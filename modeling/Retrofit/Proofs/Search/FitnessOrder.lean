import Retrofit.Proofs.Metrics.Aggregation
import Retrofit.Proofs.Metrics.Ratios
import Retrofit.Proofs.Search.Elitism
import Retrofit.Proofs.Search.Fittest

/-!
# The order of fitness extends dominance

Constrained dominance compares the values of violations and costs, the order of fitness their places
in the total order of doubles. On numbers the two differ by the sign of a zero alone, and no
portfolio that is combined from its sites has a negative zero (`PortfolioSolution.plain_ofSites`).
So a solution that beats another has the lesser fitness, or the same one where the objective that is
optimised does not tell them apart (`fitness_of_beats`). In a population that is sorted by fitness
nobody stands before one that beats it on this objective alone (`fitness_extends_dominance`).
-/

namespace Retrofit

/-! ## Solutions without a negative zero -/

namespace PortfolioSolution

/-- Neither the violation nor a metric is the negative zero. -/
structure Plain (s : PortfolioSolution) : Prop where
  violation : Number.Plain s.violation
  metric : ∀ o, (s.metric o).Plain

lemma plain_get_portfolioMetrics {sites : List (Metrics Amount)} {o : Objective} {a : Amount}
    (h : (portfolioMetrics sites).get o = some a) : a.Plain := by
  by_cases hadditive : o ∈ Objective.additive
  · rw [Objective.get_portfolioMetrics hadditive] at h
    exact plain_total h
  · obtain ⟨ratio, rfl⟩ : ∃ ratio : Ratio, o = ratio.objective := by
      cases o with
      | paybackHorizon => exact ⟨.payback, rfl⟩
      | carbonCost => exact ⟨.carbon, rfl⟩
      | _ => exact absurd (by decide) hadditive
    rw [get_portfolioMetrics_ratio] at h
    exact Option.some.inj h ▸ ratio.plain_formula _ _

/-- Combining sites leaves no negative zero, whatever the sites are. -/
theorem plain_ofSites (sites : Dict SiteSolution) (constraints : Constraints) :
    (ofSites sites constraints).Plain := by
  refine ⟨Number.plain_add (Or.inl (Number.plain_sum _)), fun o => ?_⟩
  unfold metric
  cases h : (ofSites sites constraints).metrics.get o with
  | none => exact Amount.plain_undefined .above
  | some a => exact plain_get_portfolioMetrics h

end PortfolioSolution

namespace Genetic

variable {o : Objective} {s t : PortfolioSolution}

/-! ## Comparing fitness -/

/-- How the fitness of two solutions compares. The violation decides, then the cost. -/
def fitnessOrder (o : Objective) (s t : PortfolioSolution) : Ordering :=
  (compare (fitness o s).1 (fitness o t).1).then (compare (fitness o s).2 (fitness o t).2)

instance (o : Objective) : Std.TransCmp (fitnessOrder o) :=
  inferInstanceAs (Std.TransCmp
    (compareLex (compareOn fun s => (fitness o s).1) (compareOn fun s => (fitness o s).2)))

lemma fitnessOrder_eq_lt : fitnessOrder o s t = .lt ↔ (fitness o s).1 < (fitness o t).1 ∨
    (fitness o s).1 = (fitness o t).1 ∧ (fitness o s).2 < (fitness o t).2 := by
  unfold fitnessOrder
  rw [Ordering.then_eq_lt, Int.compare_eq_lt, Int.compare_eq_eq, Int.compare_eq_lt]

/-- A solution may stand before another unless its fitness comes after. -/
theorem fitter_eq_isLE (o : Objective) (s t : PortfolioSolution) :
    fitter o s t = (fitnessOrder o s t).isLE := by
  rw [Bool.eq_iff_iff, fitter_iff]
  unfold fitnessOrder
  rw [Ordering.isLE_then_iff_or, Int.compare_eq_lt, Int.compare_eq_eq, Int.isLE_compare]

/-! ## Fitness of a solution that beats another -/

section Beats

variable {objectives : List Objective}

section

variable (hs : s.Defined objectives) (ht : t.Defined objectives)
include hs ht

lemma fitness_fst_lt
    (h : (s.judgement objectives).penalty < (t.judgement objectives).penalty) :
    (fitness o s).1 < (fitness o t).1 := by
  obtain ⟨hnumber, hunits⟩ := PortfolioSolution.larger_violation hs
  obtain ⟨hnumber', hunits'⟩ := PortfolioSolution.larger_violation ht
  refine Number.rank_lt_of_units_lt hnumber hnumber' ?_
  rw [hunits, hunits']
  exact h

lemma fitness_fst_eq (hplain : Number.Plain s.violation) (hplain' : Number.Plain t.violation)
    (h : (s.judgement objectives).penalty = (t.judgement objectives).penalty) :
    (fitness o s).1 = (fitness o t).1 := by
  obtain ⟨hnumber, hunits⟩ := PortfolioSolution.larger_violation hs
  obtain ⟨hnumber', hunits'⟩ := PortfolioSolution.larger_violation ht
  refine congrArg Number.rank ((Number.plain_larger_zero hplain).eq_of_units_eq
    (Number.plain_larger_zero hplain') hnumber hnumber' ?_)
  rw [hunits, hunits']
  exact h

end

lemma fitness_snd_lt (hs : (s.cost o).IsNumber) (ht : (t.cost o).IsNumber)
    (h : (s.cost o).units < (t.cost o).units) : (fitness o s).2 < (fitness o t).2 := by
  rw [fitness_of_isNumber hs, fitness_of_isNumber ht]
  exact Number.rank_lt_of_units_lt hs ht h

lemma fitness_snd_eq (hs : (s.cost o).IsNumber) (ht : (t.cost o).IsNumber)
    (hplain : (s.metric o).Plain) (hplain' : (t.metric o).Plain)
    (h : (s.cost o).units = (t.cost o).units) : (fitness o s).2 = (fitness o t).2 := by
  have hmetric : s.metric o = t.metric o :=
    hplain.eq_of_units_eq hplain' (Objective.isNumber_cost.mp hs) (Objective.isNumber_cost.mp ht)
      (Objective.units_cost_inj.mp h)
  unfold fitness
  rw [hmetric]

/-- A solution that beats another has a violation that comes first, or one in the same place and a
cost that does not come after. The cost comes first if nothing else is asked for. -/
theorem fitness_of_beats (ho : o ∈ objectives) (hs : s.Defined objectives)
    (ht : t.Defined objectives) (hplain : s.Plain) (hplain' : t.Plain)
    (h : (s.judgement objectives).beats (t.judgement objectives)) :
    (fitness o s).1 < (fitness o t).1 ∨ (fitness o s).1 = (fitness o t).1 ∧
      (fitness o s).2 ≤ (fitness o t).2 ∧
      ((∀ o' ∈ objectives, o' = o) → (fitness o s).2 < (fitness o t).2) := by
  have hcost := PortfolioSolution.numbers_costs.mp hs.numbers o ho
  have hcost' := PortfolioSolution.numbers_costs.mp ht.numbers o ho
  rcases (Judgement.beats_iff hs ht).mp h with hless | ⟨hequal, hnomore, hdiffer⟩
  · exact Or.inl (fitness_fst_lt hs ht hless)
  · refine Or.inr ⟨fitness_fst_eq hs ht hplain.violation hplain'.violation hequal, ?_⟩
    rcases Int.lt_or_eq_of_le (cost_le_of_forall₂ hnomore ho) with hlt | heq
    · have hfitness := fitness_snd_lt hcost hcost' hlt
      exact ⟨Int.le_of_lt hfitness, fun _ => hfitness⟩
    · -- The costs differ somewhere, which with one objective alone they would do here.
      refine ⟨Int.le_of_eq (fitness_snd_eq hcost hcost' (hplain.metric o) (hplain'.metric o) heq),
        fun halone => absurd (PortfolioSolution.rowUnits_costs_eq.mpr fun o' ho' => ?_) hdiffer⟩
      rwa [halone o' ho']

lemma ne_gt_of_beats (ho : o ∈ objectives) (hs : s.Defined objectives)
    (ht : t.Defined objectives) (hplain : s.Plain) (hplain' : t.Plain)
    (h : (s.judgement objectives).beats (t.judgement objectives)) : fitnessOrder o s t ≠ .gt := by
  rw [ne_eq, Ordering.ne_gt_iff_isLE, ← fitter_eq_isLE, fitter_iff]
  exact (fitness_of_beats ho hs ht hplain hplain' h).imp_right fun hsame => ⟨hsame.1, hsame.2.1⟩

/-- Fitness tells two zeros apart before dominance gets to the next objective. -/
example :
    let metrics (capex annualisedCost : Float) : Metrics Amount :=
      { PerObjective.none with
        capex := some (.number capex)
        annualisedCost := some (.number annualisedCost) }
    let first : PortfolioSolution := ⟨.empty, metrics 0.0 1.0, .fill 0, 0.0, true⟩
    let second : PortfolioSolution := ⟨.empty, metrics (-0.0) 2.0, .fill 0, 0.0, true⟩
    (first.judgement [.capex, .annualisedCost]).beats (second.judgement [.capex, .annualisedCost]) ∧
      fitnessOrder .capex first second = .gt := by
  decide +kernel

lemma eq_lt_of_beats (ho : o ∈ objectives) (halone : ∀ o' ∈ objectives, o' = o)
    (hs : s.Defined objectives) (ht : t.Defined objectives) (hplain : s.Plain) (hplain' : t.Plain)
    (h : (s.judgement objectives).beats (t.judgement objectives)) : fitnessOrder o s t = .lt :=
  fitnessOrder_eq_lt.mpr ((fitness_of_beats ho hs ht hplain hplain' h).imp_right fun hsame =>
    ⟨hsame.1, hsame.2.2 halone⟩)

end Beats

/-! ## Sorted populations -/

/-- The fittest come first in a sorted population, those that are dropped last. -/
lemma exists_dropped (o : Objective) (places : Nat) (individuals : List Individual) :
    ∃ dropped, (fittest o places individuals ++ dropped).Perm individuals ∧
      (fittest o places individuals ++ dropped).Pairwise
        fun i j => fitter o i.solution j.solution := by
  refine ⟨(individuals.mergeSort fun a b => fitter o a.solution b.solution).drop places, ?_⟩
  unfold fittest
  rw [List.take_append_drop]
  exact ⟨List.mergeSort_perm _ _, pairwise_sorted o individuals⟩

/-- Whoever may stand before another is not beaten by it on the objective that is optimised. -/
lemma not_beats_of_fitter (h : fitter o s t) (hs : s.Defined [o]) (ht : t.Defined [o])
    (hplain : s.Plain) (hplain' : t.Plain) : ¬ (t.judgement [o]).beats (s.judgement [o]) := by
  intro hbeats
  have hless := eq_lt_of_beats List.mem_cons_self (fun _ => List.mem_singleton.mp) ht hs hplain'
    hplain hbeats
  rw [fitter_eq_isLE] at h
  exact Std.OrientedCmp.not_isLE_of_lt hless h

/-- The comparison of fitness is a total preorder of all solutions, undefined ones included: it is
reversed when its operands are, and transitive. Among solutions whose costs and violations are
numbers, and of which nothing is the negative zero, it extends constrained dominance: one that beats
another does not come after it, and comes before it if only the objective that is optimised is asked
for. So in a sorted population, the fittest and those that are dropped alike, nobody stands before
one that beats it on this objective. Solutions that are combined from sites have no negative
zero. -/
theorem fitness_extends_dominance (o : Objective) :
    Std.TransCmp (fitnessOrder o) ∧
    (∀ s t, fitter o s t = (fitnessOrder o s t).isLE) ∧
    (∀ (objectives : List Objective) (s t : PortfolioSolution), o ∈ objectives →
      s.Defined objectives → t.Defined objectives → s.Plain → t.Plain →
      (s.judgement objectives).beats (t.judgement objectives) →
      fitnessOrder o s t ≠ .gt ∧
        ((∀ o' ∈ objectives, o' = o) → fitnessOrder o s t = .lt)) ∧
    (∀ (places : Nat) (individuals : List Individual), ∃ dropped,
      (fittest o places individuals ++ dropped).Perm individuals ∧
      (fittest o places individuals).length = min places individuals.length ∧
      (fittest o places individuals ++ dropped).Pairwise fun i j =>
        i.solution.Defined [o] → j.solution.Defined [o] → i.solution.Plain → j.solution.Plain →
          ¬ (j.solution.judgement [o]).beats (i.solution.judgement [o])) ∧
    ∀ sites constraints, (PortfolioSolution.ofSites sites constraints).Plain := by
  refine ⟨inferInstance, fitter_eq_isLE o, fun objectives s t ho hs ht hplain hplain' h => ?_,
    fun places individuals => ?_, PortfolioSolution.plain_ofSites⟩
  · exact ⟨ne_gt_of_beats ho hs ht hplain hplain' h,
      fun halone => eq_lt_of_beats ho halone hs ht hplain hplain' h⟩
  · obtain ⟨dropped, hperm, hsorted⟩ := exists_dropped o places individuals
    refine ⟨dropped, hperm, ?_, hsorted.imp fun h => not_beats_of_fitter h⟩
    unfold fittest
    rw [List.length_take, List.length_mergeSort]

/-- The quay, whose yearly bill was five hundred pounds, after a retrofit. -/
def quayAfter (capex bill : Float) : PortfolioSolution :=
  let evaluated : EvaluatedSite :=
    ⟨PortfolioSolution.quay, account 0 (.number 500.0) 0, PortfolioSolution.quay.baselineScenario,
      account (.number capex) (.number bill) 0⟩
  .ofSites (Dict.empty.insert "quay" evaluated.solution) .none

/-- Two retrofits that are fifty pounds over the limit of the quay. The first saves nothing, so its
cost is the negative zero. -/
def quayRetrofits : List Individual := [⟨[], quayAfter 150.0 500.0⟩, ⟨[], quayAfter 150.0 300.0⟩]

theorem fitness_extends_dominance_quay :
    let idle := quayAfter 150.0 500.0
    let saving := quayAfter 150.0 300.0
    (.costBalance ∈ [Objective.costBalance] ∧ saving.Defined [.costBalance] ∧
      idle.Defined [.costBalance] ∧ saving.Plain ∧ idle.Plain ∧
      (saving.judgement [.costBalance]).beats (idle.judgement [.costBalance]) ∧
      (∀ o ∈ [Objective.costBalance], o = .costBalance) ∧
      fitnessOrder .costBalance saving idle = .lt) ∧
    (∀ i ∈ quayRetrofits, i.solution.Defined [.costBalance] ∧ i.solution.Plain) ∧
    ∃ dropped, (fittest .costBalance 1 quayRetrofits ++ dropped).Perm quayRetrofits ∧
      (fittest .costBalance 1 quayRetrofits ++ dropped).Pairwise fun i j =>
        ¬ (j.solution.judgement [.costBalance]).beats (i.solution.judgement [.costBalance]) := by
  intro idle saving
  obtain ⟨-, -, hextends, hsorts, hplain⟩ := fitness_extends_dominance .costBalance
  have hidle : idle.Defined [.costBalance] ∧ idle.Plain := ⟨by decide +kernel, hplain _ _⟩
  have hsaving : saving.Defined [.costBalance] ∧ saving.Plain := ⟨by decide +kernel, hplain _ _⟩
  have hbeats : (saving.judgement [.costBalance]).beats (idle.judgement [.costBalance]) := by
    decide +kernel
  have hmem : .costBalance ∈ [Objective.costBalance] := List.mem_cons_self
  have halone : ∀ o ∈ [Objective.costBalance], o = .costBalance := fun _ => List.mem_singleton.mp
  have hless := (hextends _ saving idle hmem hsaving.1 hidle.1 hsaving.2 hidle.2 hbeats).2 halone
  have hall : ∀ i ∈ quayRetrofits, i.solution.Defined [.costBalance] ∧ i.solution.Plain :=
    List.forall_mem_cons.mpr ⟨hidle, List.forall_mem_singleton.mpr hsaving⟩
  obtain ⟨dropped, hperm, -, hsorted⟩ := hsorts 1 quayRetrofits
  refine ⟨⟨hmem, hsaving.1, hidle.1, hsaving.2, hidle.2, hbeats, halone, hless⟩, hall, dropped,
    hperm, hsorted.imp_of_mem fun hi hj hfree => ?_⟩
  obtain ⟨hdefined, hplain⟩ := hall _ (hperm.subset hi)
  obtain ⟨hdefined', hplain'⟩ := hall _ (hperm.subset hj)
  exact hfree hdefined hdefined' hplain hplain'

end Genetic

end Retrofit
