import Retrofit.Proofs.Search.Evaluation

/-!
# What a search asks its cache for

A search meets the baselines of its sites and then candidates, each with a scenario for every site.
`Tallies` ties the scenarios that were met to what the cache knows afterwards, and the candidates
with a new scenario to the count of evaluated candidates. It holds of every step of a search on the
sites of a portfolio, and adds up over the steps.
-/

namespace Retrofit

open Retrofit.Random

variable {σ : Type}

/-- The cache has a result for the scenario. -/
def Cache.knows (cache : Cache σ) (scenario : Scenario) : Bool := (cache.find? scenario).isSome

/-- What a search asks its cache for. -/
inductive Meeting where
  /-- The baseline of a site. -/
  | baseline (scenario : Scenario)
  /-- A candidate, with the scenarios of its sites. -/
  | candidate (scenarios : List Scenario)

namespace Meeting

def scenarios : Meeting → List Scenario
  | baseline scenario => [scenario]
  | candidate scenarios => scenarios

/-- One for a candidate with a scenario that is not known. -/
def fresh (known : Scenario → Bool) : Meeting → Nat
  | baseline _ => 0
  | candidate scenarios => if scenarios.all known then 0 else 1

/-- One for a candidate. -/
def size : Meeting → Nat
  | baseline _ => 0
  | candidate _ => 1

end Meeting

/-- How many candidates have a scenario that neither was known nor has been met before. -/
def newCandidates : (known : Scenario → Bool) → List Meeting → Nat
  | _, [] => 0
  | known, m :: rest =>
    m.fresh known + newCandidates (fun scenario => known scenario || m.scenarios.contains scenario)
      rest

/-- All scenarios that were met. -/
def metScenarios (met : List Meeting) : List Scenario := met.flatMap Meeting.scenarios

section Counting

variable {known : Scenario → Bool} {met met' : List Meeting}

lemma metScenarios_append : metScenarios (met ++ met') = metScenarios met ++ metScenarios met' :=
  List.flatMap_append

lemma newCandidates_append : newCandidates known (met ++ met') = newCandidates known met +
    newCandidates (fun scenario => known scenario || (metScenarios met).contains scenario) met' := by
  induction met generalizing known with
  | nil =>
    have hsame : (fun scenario => known scenario || (metScenarios []).contains scenario) = known :=
      funext fun scenario => Bool.or_false _
    rw [hsame]
    exact (Nat.zero_add _).symm
  | cons m met ih =>
    have hsame : (fun scenario => known scenario || m.scenarios.contains scenario ||
        (metScenarios met).contains scenario) =
          fun scenario => known scenario || (metScenarios (m :: met)).contains scenario := by
      funext scenario
      change _ = (known scenario || (m.scenarios ++ metScenarios met).contains scenario)
      rw [List.contains_append, Bool.or_assoc]
    rw [List.cons_append, newCandidates, ih, hsame, newCandidates, Nat.add_assoc]

lemma newCandidates_le (known : Scenario → Bool) (met : List Meeting) :
    newCandidates known met ≤ (met.map Meeting.size).sum := by
  induction met generalizing known with
  | nil => exact Nat.le_refl 0
  | cons m met ih =>
    rw [List.map_cons, List.sum_cons]
    apply Nat.add_le_add _ (ih _)
    cases m with
    | baseline scenario => exact Nat.le_refl 0
    | candidate scenarios =>
      change (if scenarios.all known then 0 else 1) ≤ 1
      split
      · exact Nat.zero_le 1
      · exact Nat.le_refl 1

end Counting

/-- From one cache to the next some scenarios were met, and as many candidates counted as had
something new. -/
structure Tallies (cache : Cache σ) (met : List Meeting) (cache' : Cache σ) (count : Nat) : Prop where
  knows_iff : ∀ scenario, cache'.knows scenario ↔
    cache.knows scenario ∨ scenario ∈ metScenarios met
  count_eq : count = newCandidates cache.knows met

namespace Tallies

variable {cache cache₁ cache₂ : Cache σ} {met met' : List Meeting} {count count' : Nat}

lemma refl (cache : Cache σ) : Tallies cache [] cache 0 :=
  ⟨fun _ => ⟨Or.inl, fun h => h.resolve_right List.not_mem_nil⟩, rfl⟩

lemma knows_eq (h : Tallies cache met cache₁ count) :
    cache₁.knows = fun scenario => cache.knows scenario || (metScenarios met).contains scenario := by
  funext scenario
  rw [Bool.eq_iff_iff, h.knows_iff, Bool.or_eq_true, List.contains_iff_mem]

lemma append (h : Tallies cache met cache₁ count) (h' : Tallies cache₁ met' cache₂ count') :
    Tallies cache (met ++ met') cache₂ (count + count') := by
  refine ⟨fun scenario => ?_, ?_⟩
  · rw [h'.knows_iff, h.knows_iff, metScenarios_append, List.mem_append, or_assoc]
  · rw [newCandidates_append, ← h.knows_eq, h.count_eq, h'.count_eq]

end Tallies

/-! ## Single steps -/

section Steps

variable {simulate : Simulator σ} {trial trial' : Trial σ}

lemma Cache.knows_fill {cache : Cache σ} {scenario scenario' : Scenario} {result : Totals Amount}
    {evaluations : Nat} {world : σ} :
    (⟨(cache.slots.withSlot scenario).fill scenario result, evaluations, world⟩ :
      Cache σ).knows scenario' ↔ cache.knows scenario' ∨ scenario' = scenario := by
  unfold knows find?
  rw [Slots.result?_fill_withSlot]
  by_cases heq : scenario' = scenario
  · rw [if_pos heq]
    exact iff_of_true rfl (Or.inr heq)
  · rw [if_neg heq]
    exact (or_iff_left heq).symm

/-- The simulator is called for a scenario that is not known, which is known afterwards. -/
lemma Trial.knows_of_returns_ask {siteId : String} {scenario : Scenario} {result : Totals Amount}
    {called : Bool} (h : Returns (ask simulate siteId scenario) trial (result, called) trial') :
    (∀ scenario', trial'.cache.knows scenario' ↔
      trial.cache.knows scenario' ∨ scenario' = scenario) ∧
      called = !trial.cache.knows scenario ∧ trial'.evaluations = trial.evaluations := by
  have hask : ask simulate siteId scenario trial = (.ok (result, called), trial') := h
  unfold ask at hask
  cases hfind : trial.cache.find? scenario with
  | some known =>
    rw [Cache.evaluate_of_find?_eq_some hfind] at hask
    cases hask
    have hknows : trial.cache.knows scenario := by
      unfold Cache.knows
      rw [hfind]
      rfl
    refine ⟨fun scenario' => ⟨Or.inl, ?_⟩, by rw [hknows]; rfl, rfl⟩
    rintro (hbefore | rfl)
    · exact hbefore
    · exact hknows
  | none =>
    rcases hanswer : simulate scenario trial.cache.world with ⟨answer, world⟩
    cases answer with
    | error fault =>
      rw [Cache.evaluate_of_fault hfind hanswer] at hask
      cases hask
    | ok value =>
      rw [Cache.evaluate_of_answer hfind hanswer] at hask
      cases hask
      refine ⟨fun scenario' => Cache.knows_fill, ?_, rfl⟩
      unfold Cache.knows
      rw [hfind]
      rfl

namespace PortfolioProblem

lemma knows_of_returns_evaluateSites {work : List (Scenario × Site × Totals Amount)}
    {solutions result : Dict SiteSolution} {fresh fresh' : Bool}
    (h : Returns (evaluateSites simulate work solutions fresh) trial (result, fresh') trial') :
    (∀ scenario, trial'.cache.knows scenario ↔
      trial.cache.knows scenario ∨ scenario ∈ work.map Prod.fst) ∧
      (fresh' ↔ fresh ∨ ∃ scenario ∈ work.map Prod.fst, ¬ trial.cache.knows scenario) ∧
      trial'.evaluations = trial.evaluations := by
  induction work generalizing solutions fresh trial with
  | nil =>
    obtain ⟨heq, rfl⟩ := returns_pure.mp h
    cases heq
    refine ⟨fun scenario => (or_iff_left List.not_mem_nil).symm, ?_, rfl⟩
    exact (or_iff_left fun ⟨_, hmem, _⟩ => absurd hmem List.not_mem_nil).symm
  | cons w rest ih =>
    obtain ⟨scenario, site, baseline⟩ := w
    obtain ⟨⟨answer, called⟩, trial₁, hask, h⟩ := returns_bind.mp h
    obtain ⟨hknows, hcalled, hcount⟩ := Trial.knows_of_returns_ask hask
    obtain ⟨hknows', hfresh, hcount'⟩ := ih h
    refine ⟨fun scenario' => ?_, ?_, hcount'.trans hcount⟩
    · rw [hknows', hknows, List.map_cons, List.mem_cons, or_assoc]
    · -- A later scenario was known by then only if it was before, or if it is the one just asked for.
      rw [hfresh, List.map_cons, List.exists_mem_cons_iff, hcalled, Bool.or_eq_true, or_assoc,
        Bool.not_eq_true', Bool.eq_false_iff]
      refine or_congr_right ?_
      by_cases hknown : trial.cache.knows scenario
      · refine or_congr_right (exists_congr fun scenario' => and_congr_right fun _ => not_congr ?_)
        rw [hknows]
        exact ⟨fun h => h.elim id fun heq => heq ▸ hknown, Or.inl⟩
      · exact iff_of_true (Or.inl hknown) (Or.inl hknown)

/-- Evaluating a candidate is meeting it. -/
theorem tallies_of_returns_evaluate {p : PortfolioProblem} {c : Chromosome} {x : PortfolioSolution}
    (hlength : (p.space.decode c).length = p.sites.length)
    (h : Returns (p.evaluate simulate c) trial x trial') :
    ∃ n, Tallies trial.cache [.candidate (p.space.decode c)] trial'.cache n ∧
      trial'.evaluations = trial.evaluations + n := by
  obtain ⟨⟨solutions, fresh⟩, trial₁, hsites, h⟩ := returns_bind.mp h
  obtain ⟨hknows, hfresh, hcount⟩ := knows_of_returns_evaluateSites hsites
  rw [List.map_fst_zip (Nat.le_of_eq hlength)] at hknows hfresh
  have hafter : trial'.cache = trial₁.cache ∧
      trial'.evaluations = trial₁.evaluations + if fresh then 1 else 0 := by
    dsimp only at h
    split at h
    · obtain ⟨_, trial₂, hcounted, h⟩ := returns_bind.mp h
      obtain ⟨-, rfl⟩ := returns_pure.mp h
      cases hcounted
      exact ⟨rfl, by rw [if_pos ‹_›]⟩
    · obtain ⟨-, rfl⟩ := returns_pure.mp h
      exact ⟨rfl, by rw [if_neg ‹_›]; rfl⟩
  refine ⟨_, ⟨fun scenario => ?_, ?_⟩, hafter.2.trans (by rw [hcount])⟩
  · rw [hafter.1, hknows]
    change _ ↔ _ ∨ scenario ∈ p.space.decode c ++ []
    rw [List.append_nil]
  · change _ = (if (p.space.decode c).all trial.cache.knows then 0 else 1) + 0
    rw [Nat.add_zero]
    by_cases hall : (p.space.decode c).all trial.cache.knows
    · rw [if_pos hall, if_neg]
      rw [hfresh]
      rintro (hfalse | ⟨scenario, hmem, hnot⟩)
      · exact Bool.false_ne_true hfalse
      · exact hnot (List.all_eq_true.mp hall scenario hmem)
    · rw [if_neg hall, if_pos]
      rw [hfresh]
      rw [List.all_eq_true] at hall
      push Not at hall
      obtain ⟨scenario, hmem, hnot⟩ := hall
      exact Or.inr ⟨scenario, hmem, hnot⟩

end PortfolioProblem

end Steps

end Retrofit
