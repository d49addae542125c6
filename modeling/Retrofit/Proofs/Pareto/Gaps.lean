import Retrofit.Proofs.Pareto.Front

/-!
# Fronts with undefined costs

Dominance passes over undefined costs, so solutions with such costs may dominate each other in a
ring, and a ring leaves nothing to select. The Pareto set is empty if every solution is dominated by
one of them (`paretoSet_eq_nil_iff`), the best front if every solution is beaten besides
(`bestFront_eq_nil_iff`). A ring needs undefined costs on two objectives: if the costs on all but one
are numbers, dominance is part of a strict order (`PortfolioSolution.Ahead`) and some solution is
left (`bestFront_ne_nil`).
-/

namespace Retrofit

variable {objectives : List Objective} {solutions : List PortfolioSolution}
  {gap : Objective} {s t u : PortfolioSolution}

/-! ## When nothing is left -/

theorem paretoSet_eq_nil_iff : paretoSet objectives solutions = [] ↔
    ∀ s ∈ solutions, ∃ t ∈ solutions, dominates (t.costs objectives) (s.costs objectives) := by
  constructor
  · intro hnil s hs
    by_contra hfree
    push Not at hfree
    obtain ⟨t, ht, -⟩ := exists_mem_paretoSet hs hfree
    rw [hnil] at ht
    exact absurd ht List.not_mem_nil
  · intro hdominated
    refine List.eq_nil_iff_forall_not_mem.mpr fun s hs => ?_
    obtain ⟨t, ht, hts⟩ := hdominated s (mem_of_mem_paretoSet hs)
    exact not_dominates_of_mem_paretoSet hs t ht hts

/-- The best front is empty if every solution is beaten and every solution is dominated. -/
theorem bestFront_eq_nil_iff : bestFront objectives solutions = [] ↔
    (∀ s ∈ solutions, ∃ t ∈ solutions, (t.judgement objectives).beats (s.judgement objectives)) ∧
    ∀ s ∈ solutions, ∃ t ∈ solutions, dominates (t.costs objectives) (s.costs objectives) := by
  unfold bestFront
  by_cases hbeaten : ∀ s ∈ solutions, ∃ t ∈ solutions,
      (t.judgement objectives).beats (s.judgement objectives)
  · rw [firstFront_of_beaten hbeaten, paretoSet_eq_nil_iff]
    exact (and_iff_right hbeaten).symm
  · refine iff_of_false (fun hnil => ?_) fun h => hbeaten h.1
    push Not at hbeaten
    obtain ⟨s, hs, hfree⟩ := hbeaten
    -- An unbeaten solution is in the first front, and no other unbeaten one dominates it.
    have hfirst := (mem_firstFront_of_free hs hfree).mpr ⟨hs, hfree⟩
    obtain ⟨t, ht, hts⟩ := paretoSet_eq_nil_iff.mp hnil s hfirst
    obtain ⟨ht, hfreet⟩ := (mem_firstFront_of_free hs hfree).mp ht
    exact not_dominates_of_unbeaten hs hfree ht hfreet hts

/-! ## Undefined costs on one objective -/

namespace PortfolioSolution

/-- The costs are numbers, but for that on one objective. -/
def DefinedBut (gap : Objective) (objectives : List Objective) (s : PortfolioSolution) : Prop :=
  ∀ o ∈ objectives, o ≠ gap → (s.cost o).IsNumber

instance : Decidable (s.DefinedBut gap objectives) :=
  inferInstanceAs (Decidable (∀ o ∈ objectives, o ≠ gap → (s.cost o).IsNumber))

lemma Defined.definedBut (h : s.Defined objectives) (gap : Objective) :
    s.DefinedBut gap objectives :=
  fun o ho _ => numbers_costs.mp h.numbers o ho

/-- Costs no more on the objectives beside the gap, and less on one of them or on the gap. -/
def Ahead (gap : Objective) (objectives : List Objective) (s t : PortfolioSolution) : Prop :=
  (∀ o ∈ objectives, o ≠ gap → (s.cost o).units ≤ (t.cost o).units) ∧
    ((∃ o ∈ objectives, o ≠ gap ∧ (s.cost o).units < (t.cost o).units) ∨ s.cost gap < t.cost gap)

instance : Decidable (s.Ahead gap objectives t) :=
  inferInstanceAs (Decidable (_ ∧ ((∃ o ∈ objectives, _) ∨ _)))

lemma not_ahead_self (s : PortfolioSolution) : ¬ s.Ahead gap objectives s := by
  rintro ⟨-, ⟨o, -, -, hless⟩ | hless⟩
  · exact Int.lt_irrefl _ hless
  · exact Number.not_lt_self _ hless

lemma Ahead.trans (hst : s.Ahead gap objectives t) (htu : t.Ahead gap objectives u) :
    s.Ahead gap objectives u := by
  refine ⟨fun o ho hne => Int.le_trans (hst.1 o ho hne) (htu.1 o ho hne), ?_⟩
  rcases hst.2 with ⟨o, ho, hne, hless⟩ | hless
  · exact Or.inl ⟨o, ho, hne, Int.lt_of_lt_of_le hless (htu.1 o ho hne)⟩
  · rcases htu.2 with ⟨o, ho, hne, hless'⟩ | hless'
    · exact Or.inl ⟨o, ho, hne, Int.lt_of_le_of_lt (hst.1 o ho hne) hless'⟩
    · exact Or.inr (Amount.lt_trans hless hless')

/-- Who dominates is ahead, as long as only the costs on the gap are undefined. -/
lemma ahead_of_dominates (hs : s.DefinedBut gap objectives) (ht : t.DefinedBut gap objectives)
    (h : dominates (s.costs objectives) (t.costs objectives)) : s.Ahead gap objectives t := by
  obtain ⟨hmore, o, ho, hless⟩ := dominates_costs.mp h
  refine ⟨fun o ho hne => ?_, ?_⟩
  · have hnot := hmore o ho
    rwa [Amount.lt_iff_units (ht o ho hne) (hs o ho hne), Int.not_lt] at hnot
  · by_cases hgap : o = gap
    · exact Or.inr (hgap ▸ hless)
    · exact Or.inl ⟨o, ho, hgap, (Amount.lt_iff_units (hs o ho hgap) (ht o ho hgap)).mp hless⟩

end PortfolioSolution

open PortfolioSolution

theorem paretoSet_ne_nil (hne : solutions ≠ [])
    (hdefined : ∀ s ∈ solutions, s.DefinedBut gap objectives) :
    paretoSet objectives solutions ≠ [] := by
  obtain ⟨x, hx⟩ := List.exists_mem_of_ne_nil _ hne
  obtain ⟨s, hs, -⟩ := @exists_unbeaten PortfolioSolution
    (fun a b => decide (a.Ahead gap objectives b)) solutions
    (fun x _ => by simpa only [decide_eq_true_eq] using not_ahead_self x)
    (fun x _ y _ z _ => by simpa only [decide_eq_true_eq] using Ahead.trans) x hx
  obtain ⟨hs, hfree⟩ := mem_unbeaten.mp hs
  intro hnil
  obtain ⟨t, ht, hts⟩ := paretoSet_eq_nil_iff.mp hnil s hs
  exact hfree t ht (decide_eq_true (ahead_of_dominates (hdefined t ht) (hdefined s hs) hts))

/-- Whatever the violations are, some solution is left. -/
theorem bestFront_ne_nil (hne : solutions ≠ [])
    (hdefined : ∀ s ∈ solutions, s.DefinedBut gap objectives) :
    bestFront objectives solutions ≠ [] :=
  paretoSet_ne_nil (firstFront_ne_nil _ hne) fun s hs => hdefined s (mem_of_mem_firstFront hs)

end Retrofit
