import Mathlib.Data.List.Zip
import Retrofit.Proofs.Pareto.Front

/-!
# The shape of a report

Solutions are on one level if all of them are defined and none has a greater penalty than another.
The first front of defined candidates is on one level (`level_firstFront`), and the Pareto set of a
level is well shaped (`Level.wellShaped_paretoSet`): it is not empty, none of its solutions
dominates another, no costs occur twice, and either all are feasible or all violate the constraints
alike.
-/

namespace Retrofit

variable {objectives : List Objective} {solutions : List PortfolioSolution}
  {x y : PortfolioSolution}

namespace PortfolioSolution

/-- The solution is feasible if its violation says so. -/
def Judged (x : PortfolioSolution) : Prop := x.feasible = decide (x.violation ≤ 0.0)

lemma judged_ofSites (sites : Dict SiteSolution) (constraints : Constraints) :
    (ofSites sites constraints).Judged := rfl

/-- The costs are equal as numbers, so both zeros are the same. -/
def SameCosts (objectives : List Objective) (x y : PortfolioSolution) : Prop :=
  List.Forall₂ (fun a b => a.value == b.value) (x.costs objectives) (y.costs objectives)

instance : Decidable (x.SameCosts objectives y) :=
  inferInstanceAs (Decidable (List.Forall₂ _ _ _))

lemma sameCosts_iff : x.SameCosts objectives y ↔
    ∀ o ∈ objectives, (x.cost o).value == (y.cost o).value := by
  unfold SameCosts costs
  rw [List.forall₂_map_left_iff, List.forall₂_map_right_iff, List.forall₂_same]
  rfl

/-- Solutions whose costs are numbers are at one point if their costs are the same. -/
lemma sameCosts_iff_point (hx : Numbers (x.costs objectives)) (hy : Numbers (y.costs objectives)) :
    x.SameCosts objectives y ↔ x.point objectives = y.point objectives := by
  rw [sameCosts_iff, point_eq_point]
  refine forall₂_congr fun o ho => ?_
  have hx := numbers_costs.mp hx o ho
  have hy := numbers_costs.mp hy o ho
  rw [Amount.add_zero_inj hx hy]
  exact Number.beq_iff_units hx hy

end PortfolioSolution

open PortfolioSolution

/-- The shape of what a search reports. -/
structure WellShaped (objectives : List Objective) (solutions : List PortfolioSolution) : Prop where
  ne_nil : solutions ≠ []
  not_dominated : ∀ x ∈ solutions, ∀ y ∈ solutions, ¬ x.isDominatedBy y objectives
  distinct : solutions.Pairwise fun x y => ¬ x.SameCosts objectives y
  feasible_or_alike : (∀ x ∈ solutions, x.feasible) ∨
    ∃ violation, ∀ x ∈ solutions, ¬ x.feasible ∧ x.violation == violation

/-- Defined solutions of one penalty, of which there is at least one. -/
structure Level (objectives : List Objective) (solutions : List PortfolioSolution) : Prop where
  ne_nil : solutions ≠ []
  defined : ∀ x ∈ solutions, x.Defined objectives
  judged : ∀ x ∈ solutions, x.Judged
  penalty_eq : ∀ x ∈ solutions, ∀ y ∈ solutions,
    (x.judgement objectives).penalty = (y.judgement objectives).penalty

namespace Level

/-- On a level, to beat is to dominate. -/
lemma dominates_iff_beats (h : Level objectives solutions) (hx : x ∈ solutions)
    (hy : y ∈ solutions) :
    dominates (x.costs objectives) (y.costs objectives) ↔
      (x.judgement objectives).beats (y.judgement objectives) := by
  have hpenalty := h.penalty_eq x hx y hy
  rw [Judgement.beats_iff (h.defined x hx) (h.defined y hy),
    PortfolioSolution.dominates_iff (h.defined x hx) (h.defined y hy)]
  constructor
  · exact fun hdominates => Or.inr ⟨hpenalty, hdominates⟩
  · rintro (hlt | ⟨-, hdominates⟩)
    · omega
    · exact hdominates

/-- The Pareto set of a level is on that level. -/
theorem paretoSet (h : Level objectives solutions) :
    Level objectives (paretoSet objectives solutions) := by
  refine ⟨?_, fun x hx => h.defined x (mem_of_mem_paretoSet hx),
    fun x hx => h.judged x (mem_of_mem_paretoSet hx),
    fun x hx y hy => h.penalty_eq x (mem_of_mem_paretoSet hx) y (mem_of_mem_paretoSet hy)⟩
  obtain ⟨x, hx⟩ := List.exists_mem_of_ne_nil _ h.ne_nil
  obtain ⟨y, hy, hfree, -⟩ := exists_best h.defined hx
  obtain ⟨z, hz, -⟩ := exists_mem_paretoSet hy fun t ht =>
    mt (h.dominates_iff_beats ht hy).mp (hfree t ht)
  exact List.ne_nil_of_mem hz

/-- On a level all solutions are feasible or all violate the constraints alike. -/
lemma feasible_or_alike (h : Level objectives solutions) :
    (∀ x ∈ solutions, x.feasible) ∨
      ∃ violation, ∀ x ∈ solutions, ¬ x.feasible ∧ x.violation == violation := by
  obtain ⟨first, hfirst⟩ := List.exists_mem_of_ne_nil _ h.ne_nil
  have hfeasible : ∀ x ∈ solutions, x.feasible ↔ (x.judgement objectives).penalty = 0 := by
    intro x hx
    rw [h.judged x hx]
    have hiff := Judgement.feasible_iff (h.defined x hx)
    exact hiff
  by_cases hzero : (first.judgement objectives).penalty = 0
  · refine Or.inl fun x hx => (hfeasible x hx).mpr ?_
    rw [h.penalty_eq x hx first hfirst, hzero]
  · refine Or.inr ⟨first.violation, fun x hx => ?_⟩
    have hpenalty := h.penalty_eq x hx first hfirst
    refine ⟨fun hx' => hzero (hpenalty ▸ (hfeasible x hx).mp hx'), ?_⟩
    apply (Number.beq_iff_units (h.defined x hx).violation (h.defined first hfirst).violation).mpr
    -- Neither penalty is zero, so each is the violation itself.
    change Number.units x.violation = Number.units first.violation
    change max (Number.units x.violation) 0 = max (Number.units first.violation) 0 at hpenalty
    change max (Number.units first.violation) 0 ≠ 0 at hzero
    omega

/-- The Pareto set of a level is a well-shaped report. -/
theorem wellShaped_paretoSet (h : Level objectives solutions) :
    WellShaped objectives (Retrofit.paretoSet objectives solutions) where
  ne_nil := h.paretoSet.ne_nil
  not_dominated x hx y hy hdominated :=
    (mem_paretoSet.mp hx).2 y (mem_paretoSet.mp hy).1 (isDominatedBy_iff.mp hdominated).1
  distinct := by
    have hpoints := List.pairwise_map.mp (nodup_points_paretoSet objectives solutions)
    refine hpoints.imp_of_mem fun {x y} hx hy hne hsame => hne ?_
    have hx := (h.paretoSet.defined x hx).numbers
    have hy := (h.paretoSet.defined y hy).numbers
    exact (sameCosts_iff_point hx hy).mp hsame
  feasible_or_alike := h.paretoSet.feasible_or_alike

end Level

/-- The first front of defined candidates is on one level. -/
theorem level_firstFront (hne : solutions ≠ []) (defined : ∀ x ∈ solutions, x.Defined objectives)
    (judged : ∀ x ∈ solutions, x.Judged) :
    Level objectives (firstFront (·.judgement objectives) solutions) where
  ne_nil := firstFront_ne_nil _ hne
  defined x hx := defined x (mem_of_mem_firstFront hx)
  judged x hx := judged x (mem_of_mem_firstFront hx)
  penalty_eq _ hx _ hy := penalty_eq_of_unbeaten defined hx hy

end Retrofit
