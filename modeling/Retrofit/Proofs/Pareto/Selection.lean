import Retrofit.Proofs.Pareto.Shape

/-!
# What the Pareto set selects

The Pareto set consists of the solutions that none dominates and that are the first at their point,
in their old order (`paretoSet_eq_filter`). Where all costs are numbers, to be at one point is to
have the same costs, and every solution is dominated by a selected one or has its costs
(`paretoSet_selects`). Selecting twice selects nothing else. The public test of dominance agrees with
the selection as long as no cost is undefined (`agrees_on_numbers`).
-/

namespace Retrofit

open PortfolioSolution

/-! ## The first item of every key -/

section Distinct

variable {ι κ : Type} [DecidableEq κ]

/-- An item is kept if none before it has its key. -/
theorem distinctBy_eq_filter (key : ι → κ) (items : List ι) :
    distinctBy key items =
      (items.zipIdx.filter fun e : ι × Nat => ∀ y ∈ items.take e.2, key y ≠ key e.1).map
        Prod.fst := by
  induction items with
  | nil => rfl
  | cons x items ih =>
    rw [distinctBy_cons, ih, List.zipIdx_cons, List.zipIdx_succ, List.filter_map,
      List.filter_filter, List.filter_cons_of_pos (by simp), List.filter_map, List.map_cons,
      List.map_map]
    congr 2
    refine List.filter_congr fun e _ => ?_
    simp [ne_comm]

end Distinct

variable {objectives : List Objective} {solutions : List PortfolioSolution}
  {s t : PortfolioSolution}

/-! ## The selection -/

/-- A solution is selected if none dominates it and none before it is at its point. -/
theorem paretoSet_eq_filter (objectives : List Objective) (solutions : List PortfolioSolution) :
    paretoSet objectives solutions = (solutions.zipIdx.filter fun e : PortfolioSolution × Nat =>
      (∀ t ∈ solutions, ¬ dominates (t.costs objectives) (e.1.costs objectives)) ∧
        ∀ t ∈ solutions.take e.2, t.point objectives ≠ e.1.point objectives).map Prod.fst := by
  rw [paretoSet_eq_filter_distinct, distinctBy_eq_filter, List.filter_map, List.filter_filter]
  congr 1
  refine List.filter_congr fun e _ => ?_
  rw [Bool.decide_and]
  rfl

lemma paretoSet_sublist : (paretoSet objectives solutions).Sublist solutions := by
  rw [paretoSet_eq_filter]
  refine (List.filter_sublist.map Prod.fst).trans ?_
  rw [List.zipIdx_map_fst]

/-- Where all costs are numbers, every solution is dominated by a selected one or has its costs. -/
lemma exists_selected (numbers : ∀ s ∈ solutions, Numbers (s.costs objectives))
    (hs : s ∈ solutions) : ∃ t ∈ paretoSet objectives solutions,
      dominates (t.costs objectives) (s.costs objectives) ∨ t.SameCosts objectives s := by
  have hlength : ∀ s t : PortfolioSolution,
      (s.costs objectives).length = (t.costs objectives).length := fun s t =>
    (List.length_map _).trans (List.length_map _).symm
  obtain ⟨t, ht, hts⟩ := @exists_unbeaten _
    (fun a b => dominates (a.costs objectives) (b.costs objectives)) solutions
    (fun x _ => not_dominates_self _)
    (fun x hx y hy z hz => dominates_trans (numbers x hx) (numbers y hy) (numbers z hz)
      (hlength x y) (hlength y z)) s hs
  obtain ⟨hmem, hfree⟩ := mem_unbeaten.mp ht
  obtain ⟨u, hu, hpoint⟩ := exists_mem_paretoSet hmem hfree
  refine ⟨u, hu, ?_⟩
  rcases hts with rfl | hdominates
  · right
    exact (sameCosts_iff_point (numbers u (mem_of_mem_paretoSet hu)) (numbers t hmem)).mpr hpoint
  · left
    exact (dominates_congr hpoint rfl).mpr hdominates

/-- Where all costs are numbers, the Pareto set consists of the solutions that none dominates and
that are the first with their costs, in their old order, and so every other solution is dominated by
one of them or has its costs. A second selection changes nothing, whether the costs are numbers or
not. -/
theorem paretoSet_selects (objectives : List Objective) (solutions : List PortfolioSolution) :
    ((∀ s ∈ solutions, Numbers (s.costs objectives)) →
      paretoSet objectives solutions = (solutions.zipIdx.filter fun e : PortfolioSolution × Nat =>
        (∀ t ∈ solutions, ¬ dominates (t.costs objectives) (e.1.costs objectives)) ∧
          ∀ t ∈ solutions.take e.2, ¬ t.SameCosts objectives e.1).map Prod.fst ∧
      ∀ s ∈ solutions, ∃ t ∈ paretoSet objectives solutions,
        dominates (t.costs objectives) (s.costs objectives) ∨ t.SameCosts objectives s) ∧
    (paretoSet objectives solutions).Sublist solutions ∧
    paretoSet objectives (paretoSet objectives solutions) = paretoSet objectives solutions := by
  refine ⟨fun numbers => ⟨?_, fun s hs => exists_selected numbers hs⟩, paretoSet_sublist,
    paretoSet_paretoSet _ _⟩
  rw [paretoSet_eq_filter]
  congr 1
  refine List.filter_congr fun e he => decide_eq_decide.mpr (and_congr_right fun _ => ?_)
  have he := numbers _ (List.fst_mem_of_mem_zipIdx he)
  refine forall₂_congr fun t ht => not_congr ?_
  exact (sameCosts_iff_point (numbers t (List.mem_of_mem_take ht)) he).symm

/-- A solution with an expenditure and a yearly cost. -/
def bid (capex annualisedCost : Option Amount) : PortfolioSolution where
  sites := .empty
  metrics := (PerObjective.none.set .capex capex).set .annualisedCost annualisedCost
  result := Totals.fill 0
  violation := 0.0
  feasible := true

/-- The second bid repeats the costs of the first up to the sign of a zero, and the third dominates
the fourth. -/
def bids : List PortfolioSolution :=
  [bid (some (.number 0.0)) (some (.number 2.0)), bid (some (.number (-0.0))) (some (.number 2.0)),
    bid (some (.number 1.0)) (some (.number 1.0)), bid (some (.number 3.0)) (some (.number 1.0))]

theorem paretoSet_selects_bids :
    (∀ s ∈ bids, Numbers (s.costs [.capex, .annualisedCost])) ∧
    (paretoSet [.capex, .annualisedCost] bids).map (·.cost .capex) = [.number 0.0, .number 1.0] ∧
    ∀ s ∈ bids, ∃ t ∈ paretoSet [.capex, .annualisedCost] bids,
      dominates (t.costs [.capex, .annualisedCost]) (s.costs [.capex, .annualisedCost]) ∨
        t.SameCosts [.capex, .annualisedCost] s := by
  have numbers : ∀ s ∈ bids, Numbers (s.costs [.capex, .annualisedCost]) := by decide +kernel
  obtain ⟨hselected, hcovered⟩ := (paretoSet_selects [.capex, .annualisedCost] bids).1 numbers
  refine ⟨numbers, ?_, hcovered⟩
  rw [hselected]
  decide +kernel

/-! ## The public test of dominance -/

/-- A solution is dominated in the public test if the other's costs dominate and the costs of both
are numbers. So no selected solution is dominated in the test by another, and where all costs are
numbers, a solution that is not dominated in the test by any has the costs of a selected one. -/
theorem agrees_on_numbers (objectives : List Objective) (solutions : List PortfolioSolution)
    (s t : PortfolioSolution) :
    (s.isDominatedBy t objectives ↔ dominates (t.costs objectives) (s.costs objectives) ∧
      Numbers (s.costs objectives) ∧ Numbers (t.costs objectives)) ∧
    (∀ x ∈ paretoSet objectives solutions, ∀ y ∈ paretoSet objectives solutions,
      ¬ x.isDominatedBy y objectives) ∧
    ((∀ x ∈ solutions, Numbers (x.costs objectives)) → ∀ x ∈ solutions,
      ((∀ y ∈ solutions, ¬ x.isDominatedBy y objectives) ↔
        ∃ y ∈ paretoSet objectives solutions, y.SameCosts objectives x)) := by
  refine ⟨isDominatedBy_iff, fun x hx y hy hdominated => ?_, fun numbers x hx => ?_⟩
  · exact (mem_paretoSet.mp hx).2 y (mem_paretoSet.mp hy).1 (isDominatedBy_iff.mp hdominated).1
  · constructor
    · intro hfree
      obtain ⟨y, hy, hpoint⟩ := exists_mem_paretoSet hx fun y hy hdominates =>
        hfree y hy (isDominatedBy_iff.mpr ⟨hdominates, numbers x hx, numbers y hy⟩)
      have hnumbers := numbers y (mem_of_mem_paretoSet hy)
      exact ⟨y, hy, (sameCosts_iff_point hnumbers (numbers x hx)).mpr hpoint⟩
    · rintro ⟨y, hy, hsame⟩ z hz hdominated
      have hnumbers := numbers y (mem_of_mem_paretoSet hy)
      have hpoint := (sameCosts_iff_point hnumbers (numbers x hx)).mp hsame
      have hdominates := (dominates_congr rfl hpoint).mpr (isDominatedBy_iff.mp hdominated).1
      exact not_dominates_of_mem_paretoSet hy z hz hdominates

theorem agrees_on_numbers_bids :
    (∀ x ∈ bids, Numbers (x.costs [.capex, .annualisedCost])) ∧
    ∀ x ∈ bids, (∀ y ∈ bids, ¬ x.isDominatedBy y [.capex, .annualisedCost]) ↔
      ∃ y ∈ paretoSet [.capex, .annualisedCost] bids, y.SameCosts [.capex, .annualisedCost] x := by
  have numbers : ∀ x ∈ bids, Numbers (x.costs [.capex, .annualisedCost]) := by decide +kernel
  have hagrees := agrees_on_numbers [.capex, .annualisedCost] bids (bid none none) (bid none none)
  exact ⟨numbers, hagrees.2.2 numbers⟩

/-- A bid without a yearly cost is dominated by costs, though not in the public test, and it is not
selected. -/
theorem unpriced_bid_dropped :
    let unpriced := bid (some (.number 1.0)) none
    let cheap := bid (some (.number 0.0)) (some (.number 0.0))
    let objectives := [.capex, .annualisedCost]
    dominates (cheap.costs objectives) (unpriced.costs objectives) ∧
    ¬ unpriced.isDominatedBy cheap objectives ∧
    (paretoSet objectives [unpriced, cheap]).map (·.cost .capex) = [.number 0.0] := by
  decide +kernel

end Retrofit
