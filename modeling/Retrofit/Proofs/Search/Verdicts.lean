import Retrofit.Proofs.Search.Tally
import Retrofit.Proofs.Search.Turns

/-!
# What a batch comes to on any schedule

With a deterministic simulator the verdict on a candidate is settled before it is begun, whatever the
cache knows and whoever takes the turns in between. So a batch returns the same solutions on every
schedule, or fails for a reason that one of its candidates has
(`PortfolioProblem.evaluateTogether_foreseen`). What the cache knows after a batch that returns, and
whether a candidate was counted at all, does not depend on the schedule either
(`PortfolioProblem.evaluateTogether_learns`); how many were counted does.
-/

namespace Retrofit

variable {σ : Type} {simulate : Simulator σ} {p : PortfolioProblem} {trial : Trial σ}

/-! ## Verdicts -/

section Verdicts

variable {outcome : Scenario → Except Fault (Totals Amount)}

/-- A question to a sound cache is answered with the outcome of the scenario. -/
lemma Trial.ask_of_sound (hsimulate : simulate.Computes outcome)
    (hsound : trial.cache.Sound outcome) (siteId : String) (scenario : Scenario) :
    (∃ result called trial', outcome scenario = .ok result ∧
      ask simulate siteId scenario trial = (.ok (result, called), trial') ∧
      trial'.cache.Sound outcome) ∨
    ∃ fault trial', outcome scenario = .error fault ∧
      ask simulate siteId scenario trial = (.error (fault.toSearchError siteId), trial') := by
  have hanswer := Cache.evaluate_of_sound hsimulate hsound scenario
  unfold ask
  generalize Cache.evaluate simulate scenario trial.cache = answer at hanswer
  obtain ⟨given, cache⟩ := answer
  rcases hanswer with ⟨result, called, hresult, rfl, hafter⟩ | ⟨fault, hfault, rfl⟩
  · exact Or.inl ⟨result, called, _, hresult, rfl, hafter⟩
  · exact Or.inr ⟨fault, _, hfault, rfl⟩

namespace PortfolioProblem

/-- What becomes of a candidate with the given scenarios left to ask for: its solution, or the first
fault. -/
def foresee (outcome : Scenario → Except Fault (Totals Amount)) (p : PortfolioProblem) :
    List (Scenario × Site × Totals Amount) → Dict SiteSolution →
      Except SearchError PortfolioSolution
  | [], solutions => .ok (.ofSites solutions p.constraints)
  | (scenario, site, baseline) :: rest, solutions =>
    match outcome scenario with
    | .ok result =>
      foresee outcome p rest
        (solutions.insert site.siteId (site.solution baseline scenario result))
    | .error fault => .error (fault.toSearchError site.siteId)

/-- What becomes of a candidate. -/
def verdict (outcome : Scenario → Except Fault (Totals Amount)) (p : PortfolioProblem)
    (chromosome : Chromosome) : Except SearchError PortfolioSolution :=
  p.foresee outcome ((p.space.decode chromosome).zip p.sites) .empty

lemma foresee_eq_error {reason : SearchError} {work : List (Scenario × Site × Totals Amount)}
    {solutions : Dict SiteSolution} (h : p.foresee outcome work solutions = .error reason) :
    ∃ w ∈ work, ∃ fault, outcome w.1 = .error fault ∧
      reason = fault.toSearchError w.2.1.siteId := by
  induction work generalizing solutions with
  | nil => cases h
  | cons w rest ih =>
    obtain ⟨scenario, site, baseline⟩ := w
    unfold foresee at h
    split at h
    · obtain ⟨w, hw, hfault⟩ := ih h
      exact ⟨w, List.mem_cons_of_mem _ hw, hfault⟩
    · rename_i fault hfault
      cases h
      exact ⟨_, List.mem_cons_self, fault, hfault, rfl⟩

end PortfolioProblem

namespace Progress

/-- What becomes of a candidate that may be under way. -/
def foresee (outcome : Scenario → Except Fault (Totals Amount)) (p : PortfolioProblem) :
    Progress → Except SearchError PortfolioSolution
  | waiting chromosome => p.verdict outcome chromosome
  | running work solutions _ => p.foresee outcome work solutions
  | settled verdict => verdict

lemma foresee_of_failure? {candidate : Progress} {reason : SearchError}
    (h : candidate.failure? = some reason) : candidate.foresee outcome p = .error reason := by
  cases candidate with
  | waiting chromosome => cases h
  | running work solutions fresh => cases h
  | settled verdict =>
    cases verdict with
    | ok solution => cases h
    | error other =>
      cases h
      rfl

/-- A step changes nothing about what becomes of a candidate, and unless it fails the cache stays
sound. -/
lemma foresee_step (hsimulate : simulate.Computes outcome) (hsound : trial.cache.Sound outcome)
    (candidate : Progress) :
    (candidate.step simulate p trial).1.foresee outcome p = candidate.foresee outcome p ∧
      ((candidate.step simulate p trial).1.failure? = none →
        (candidate.step simulate p trial).2.cache.Sound outcome) := by
  cases candidate with
  | waiting chromosome => exact ⟨rfl, fun _ => hsound⟩
  | settled verdict => exact ⟨rfl, fun _ => hsound⟩
  | running work solutions fresh =>
    cases work with
    | nil => exact ⟨rfl, fun _ => hsound⟩
    | cons w rest =>
      obtain ⟨scenario, site, baseline⟩ := w
      rcases Trial.ask_of_sound hsimulate hsound site.siteId scenario with
        ⟨result, called, trial', hresult, hask, hafter⟩ | ⟨fault, trial', hfault, hask⟩
      · rw [step_of_ask_eq_ok hask]
        refine ⟨?_, fun _ => hafter⟩
        rw [foresee, foresee, PortfolioProblem.foresee, hresult]
      · rw [step_of_ask_eq_error hask]
        refine ⟨?_, nofun⟩
        rw [foresee, foresee, PortfolioProblem.foresee, hfault]

end Progress

namespace Batch

/-- Either no candidate has failed and all of them are going to end with the given verdicts, or one
of these is the failure. -/
inductive Foreseen (outcome : Scenario → Except Fault (Totals Amount)) (p : PortfolioProblem)
    (verdicts : List (Except SearchError PortfolioSolution)) : Batch σ → Prop
  | going {trial : Trial σ} {candidates : List Progress} :
      trial.cache.Sound outcome → candidates.map (·.foresee outcome p) = verdicts →
        (∀ candidate ∈ candidates, candidate.failure? = none) →
          Foreseen outcome p verdicts ⟨trial, candidates, none⟩
  | failed {trial : Trial σ} {candidates : List Progress} {reason : SearchError} :
      .error reason ∈ verdicts → Foreseen outcome p verdicts ⟨trial, candidates, some reason⟩

lemma Foreseen.advance {verdicts : List (Except SearchError PortfolioSolution)} {b : Batch σ}
    (hsimulate : simulate.Computes outcome) (h : b.Foreseen outcome p verdicts) (place : Nat) :
    (b.advance simulate p place).Foreseen outcome p verdicts := by
  rcases advance_cases simulate p b place with
    ⟨-, heq⟩ | ⟨before, candidate, after, hsplit, -, heq⟩
  · rwa [heq]
  · rw [heq]
    cases h with
    | failed hreason => exact .failed hreason
    | @going trial candidates hsound hverdicts hnone =>
      change candidates = _ at hsplit
      subst hsplit
      obtain ⟨hsame, hafter⟩ := candidate.foresee_step (p := p) hsimulate hsound
      rw [List.map_append, List.map_cons, ← hsame] at hverdicts
      dsimp only [Option.none_or]
      cases hfailure : (candidate.step simulate p trial).1.failure? with
      | some reason =>
        refine .failed ?_
        rw [← hverdicts, ← Progress.foresee_of_failure? hfailure]
        exact List.mem_append_right _ List.mem_cons_self
      | none =>
        refine .going (hafter hfailure) ?_ ?_
        · rw [List.map_append, List.map_cons]
          exact hverdicts
        · rw [List.forall_mem_append, List.forall_mem_cons] at hnone ⊢
          exact ⟨hnone.1, hfailure, hnone.2.2⟩

/-- Once all candidates are settled the verdicts are the outcome. -/
lemma Foreseen.ends {verdicts : List (Except SearchError PortfolioSolution)} {b : Batch σ}
    (h : b.Foreseen outcome p verdicts)
    (hsettled : b.failure = none → ∀ candidate ∈ b.candidates, candidate.Settled) :
    (∃ solutions, b.outcome = .ok solutions ∧ verdicts = solutions.map .ok ∧
      b.trial.cache.Sound outcome) ∨
    ∃ reason, b.outcome = .error reason ∧ .error reason ∈ verdicts := by
  cases h with
  | @failed trial candidates reason hreason => exact Or.inr ⟨reason, rfl, hreason⟩
  | @going trial candidates hsound hverdicts hnone =>
    obtain ⟨solutions, rfl⟩ := Progress.exists_solved fun candidate hcandidate =>
      ⟨hsettled rfl candidate hcandidate, hnone candidate hcandidate⟩
    refine Or.inl ⟨solutions, ?_, ?_, hsound⟩
    · unfold Batch.outcome
      rw [Progress.filterMap_solution?_solved]
    · rw [← hverdicts, List.map_map]
      rfl

end Batch

/-- On any schedule a batch returns the solutions that its candidates are going to have, or fails for
a reason that one of them has. -/
theorem PortfolioProblem.evaluateTogether_foreseen (hsimulate : simulate.Computes outcome)
    (hsound : trial.cache.Sound outcome) (scheduler : Scheduler σ) (threads : Nat)
    (chromosomes : List Chromosome) :
    (∃ solutions trial',
      p.evaluateTogether simulate scheduler threads chromosomes trial = (.ok solutions, trial') ∧
      chromosomes.map (p.verdict outcome) = solutions.map .ok ∧ trial'.cache.Sound outcome) ∨
    ∃ reason trial',
      p.evaluateTogether simulate scheduler threads chromosomes trial = (.error reason, trial') ∧
      .error reason ∈ chromosomes.map (p.verdict outcome) := by
  have hstart : (Batch.opening scheduler trial chromosomes).Foreseen outcome p
      (chromosomes.map (p.verdict outcome)) := by
    refine .going hsound ?_ (List.forall_mem_map.mpr fun _ _ => rfl)
    rw [List.map_map]
    rfl
  have hend : (Batch.closing simulate p scheduler threads trial chromosomes).Foreseen outcome p
      (chromosomes.map (p.verdict outcome)) :=
    Batch.run_induction (fun b place h => h.advance hsimulate place) hstart threads _
  rw [evaluateTogether_eq]
  rcases hend.ends (Batch.settled_run _ threads _) with
    ⟨solutions, houtcome, hverdicts, hafter⟩ | ⟨reason, houtcome, hreason⟩
  · exact Or.inl ⟨solutions, _, Prod.ext houtcome rfl, hverdicts, hafter⟩
  · exact Or.inr ⟨reason, _, Prod.ext houtcome rfl, hreason⟩

end Verdicts

/-! ## What a cache learns -/

/-- From one trial to the next the cache learnt some scenarios, and candidates were counted if one
of these was new. -/
structure Trial.Learns (trial : Trial σ) (scenarios : List Scenario) (trial' : Trial σ) : Prop where
  knows_iff : ∀ scenario, trial'.cache.knows scenario ↔
    trial.cache.knows scenario ∨ scenario ∈ scenarios
  le : trial.evaluations ≤ trial'.evaluations
  eq_iff : trial'.evaluations = trial.evaluations ↔
    ∀ scenario, trial'.cache.knows scenario → trial.cache.knows scenario

namespace Progress

/-- The scenarios that are left to ask for. -/
def pending (p : PortfolioProblem) : Progress → List Scenario
  | waiting chromosome => ((p.space.decode chromosome).zip p.sites).map Prod.fst
  | running work _ _ => work.map Prod.fst
  | settled _ => []

/-- One for a candidate that is going to be counted. -/
def owed : Progress → Nat
  | running _ _ fresh => if fresh then 1 else 0
  | _ => 0

/-- What a step does that does not fail: it moves scenarios from those that are left to those that
are known, and a new one makes the candidate count. -/
lemma learns_step (candidate : Progress) (trial : Trial σ)
    (h : (candidate.step simulate p trial).1.failure? = none) :
    let (next, trial') := candidate.step simulate p trial
    (∀ scenario, trial.cache.knows scenario → trial'.cache.knows scenario) ∧
      (∀ scenario, trial'.cache.knows scenario ∨ scenario ∈ next.pending p ↔
        trial.cache.knows scenario ∨ scenario ∈ candidate.pending p) ∧
      trial.evaluations ≤ trial'.evaluations ∧
      ((trial'.evaluations + next.owed = trial.evaluations + candidate.owed ∧
        ∀ scenario, trial'.cache.knows scenario → trial.cache.knows scenario) ∨
      (next.owed = 1 ∧ ∃ scenario, trial'.cache.knows scenario ∧
        ¬ trial.cache.knows scenario)) := by
  cases candidate with
  | waiting chromosome =>
    exact ⟨fun _ => id, fun _ => Iff.rfl, Nat.le_refl _, Or.inl ⟨rfl, fun _ => id⟩⟩
  | settled verdict =>
    exact ⟨fun _ => id, fun _ => Iff.rfl, Nat.le_refl _, Or.inl ⟨rfl, fun _ => id⟩⟩
  | running work solutions fresh =>
    cases work with
    | nil => exact ⟨fun _ => id, fun _ => Iff.rfl, Nat.le_add_right _ _, Or.inl ⟨rfl, fun _ => id⟩⟩
    | cons w rest =>
      obtain ⟨scenario, site, baseline⟩ := w
      rcases hask : Trial.ask simulate site.siteId scenario trial with
        ⟨reason | ⟨result, called⟩, trial'⟩
      · rw [step_of_ask_eq_error hask] at h
        cases h
      · obtain ⟨hknows, hcalled, hcount⟩ := Trial.knows_of_returns_ask hask
        rw [step_of_ask_eq_ok hask]
        refine ⟨fun _ hknown => (hknows _).mpr (Or.inl hknown), fun other => ?_,
          Nat.le_of_eq hcount.symm, ?_⟩
        · rw [hknows]
          rw [pending, pending, List.map_cons, List.mem_cons, or_assoc]
        · -- the simulator is called exactly for a scenario that is not known
          cases hknown : trial.cache.knows scenario with
          | true =>
            refine Or.inl ⟨?_, fun other hother => ?_⟩
            · rw [hcalled, hknown, hcount]
              cases fresh <;> rfl
            · rcases (hknows other).mp hother with hbefore | rfl
              · exact hbefore
              · exact hknown
          | false =>
            refine Or.inr ⟨?_, scenario, (hknows _).mpr (Or.inr rfl), ?_⟩
            · rw [hcalled, hknown]
              cases fresh <;> rfl
            · rw [hknown]
              exact Bool.false_ne_true

end Progress

namespace Batch

variable {start : Trial σ} {scenarios : List Scenario} {b : Batch σ} {place : Nat}

/-- The scenarios that are left to ask for. -/
def pending (p : PortfolioProblem) (b : Batch σ) : List Scenario :=
  b.candidates.flatMap (·.pending p)

/-- How many candidates under way are going to be counted. -/
def owed (b : Batch σ) : Nat := (b.candidates.map (·.owed)).sum

/-- The cache is about to learn some scenarios. A candidate was counted, or is going to be, if it
has learnt one. -/
structure Learning (p : PortfolioProblem) (start : Trial σ) (scenarios : List Scenario)
    (b : Batch σ) : Prop where
  keeps : ∀ scenario, start.cache.knows scenario → b.trial.cache.knows scenario
  covers : ∀ scenario, b.trial.cache.knows scenario ∨ scenario ∈ b.pending p ↔
    start.cache.knows scenario ∨ scenario ∈ scenarios
  le : start.evaluations ≤ b.trial.evaluations
  eq_iff : b.trial.evaluations + b.owed = start.evaluations ↔
    ∀ scenario, b.trial.cache.knows scenario → start.cache.knows scenario

section Split

variable {trial : Trial σ} {before after : List Progress} {candidate : Progress}
  {failure : Option SearchError}

lemma mem_pending {scenario : Scenario} :
    scenario ∈ pending p ⟨trial, before ++ candidate :: after, failure⟩ ↔
      scenario ∈ candidate.pending p ∨
        scenario ∈ before.flatMap (·.pending p) ∨ scenario ∈ after.flatMap (·.pending p) := by
  unfold pending
  rw [List.flatMap_append, List.flatMap_cons, List.mem_append, List.mem_append, or_left_comm]

lemma owed_eq : owed ⟨trial, before ++ candidate :: after, failure⟩ =
    candidate.owed + ((before.map (·.owed)).sum + (after.map (·.owed)).sum) := by
  unfold owed
  rw [List.map_append, List.sum_append, List.map_cons, List.sum_cons, Nat.add_left_comm]

end Split

lemma owed_eq_zero (h : ∀ candidate ∈ b.candidates, candidate.owed = 0) : b.owed = 0 :=
  List.sum_eq_zero_iff_forall_eq_nat.mpr (List.forall_mem_map.mpr h)

lemma Learning.advance (h : b.Learning p start scenarios)
    (hfailure : (b.advance simulate p place).failure = none) :
    (b.advance simulate p place).Learning p start scenarios := by
  rcases advance_cases simulate p b place with
    ⟨-, heq⟩ | ⟨before, candidate, after, hsplit, -, heq⟩
  · rwa [heq]
  · rw [heq] at hfailure ⊢
    obtain ⟨trial, candidates, failure⟩ := b
    change candidates = _ at hsplit
    subst hsplit
    dsimp only at hfailure ⊢
    have hstep := candidate.learns_step (p := p) trial (Option.or_eq_none_iff.mp hfailure).2
    generalize candidate.step simulate p trial = step at hstep
    obtain ⟨next, trial'⟩ := step
    obtain ⟨hkeeps, hcovers, hle, hcount⟩ := hstep
    obtain ⟨hkept, hcovered, hbelow, heqiff⟩ := h
    dsimp only at hkept hcovered hbelow heqiff
    refine ⟨fun scenario hknown => hkeeps _ (hkept _ hknown), fun scenario => ?_,
      Nat.le_trans hbelow hle, ?_⟩
    · rw [← hcovered, mem_pending, mem_pending, ← or_assoc, hcovers, or_assoc]
    · rw [owed_eq] at heqiff ⊢
      dsimp only
      rcases hcount with ⟨hsame, hnothing⟩ | ⟨howed, scenario, hafter, hbefore⟩
      · rw [← Nat.add_assoc, hsame, Nat.add_assoc, heqiff]
        exact ⟨fun h scenario hknown => h _ (hnothing _ hknown),
          fun h scenario hknown => h _ (hkeeps _ hknown)⟩
      · refine iff_of_false (by omega) fun hall => ?_
        exact hbefore (hkept _ (hall _ hafter))

/-- Once all candidates are settled the cache has learnt the scenarios. -/
lemma Learning.learns (h : b.Learning p start scenarios)
    (hsettled : ∀ candidate ∈ b.candidates, candidate.Settled) :
    start.Learns scenarios b.trial := by
  have hpending : b.pending p = [] := by
    refine List.flatMap_eq_nil_iff.mpr fun candidate hcandidate => ?_
    obtain ⟨verdict, rfl⟩ := hsettled candidate hcandidate
    rfl
  have howed : b.owed = 0 := by
    refine owed_eq_zero fun candidate hcandidate => ?_
    obtain ⟨verdict, rfl⟩ := hsettled candidate hcandidate
    rfl
  refine ⟨fun scenario => ?_, h.le, ?_⟩
  · rw [← h.covers, hpending, or_iff_left List.not_mem_nil]
  · rw [← h.eq_iff, howed, Nat.add_zero]

end Batch

/-- The scenarios of a batch. -/
def PortfolioProblem.scenarios (p : PortfolioProblem) (chromosomes : List Chromosome) :
    List Scenario :=
  chromosomes.flatMap fun c => ((p.space.decode c).zip p.sites).map Prod.fst

/-- On any schedule the cache learns the scenarios of a batch that returns. -/
theorem PortfolioProblem.evaluateTogether_learns {scheduler : Scheduler σ} {threads : Nat}
    {chromosomes : List Chromosome} {solutions : List PortfolioSolution} {trial' : Trial σ}
    (h : Returns (p.evaluateTogether simulate scheduler threads chromosomes) trial solutions
      trial') : trial.Learns (p.scenarios chromosomes) trial' := by
  let before := Batch.opening scheduler trial chromosomes
  let after := Batch.closing simulate p scheduler threads trial chromosomes
  have howed : before.owed = 0 := Batch.owed_eq_zero (List.forall_mem_map.mpr fun _ _ => rfl)
  have hstart : before.Learning p trial (p.scenarios chromosomes) := by
    refine ⟨fun _ => id, fun scenario => ?_, Nat.le_refl _, ?_⟩
    · have hpending : before.pending p = p.scenarios chromosomes := List.flatMap_map ..
      rw [hpending]
      rfl
    · rw [howed]
      exact iff_of_true rfl fun _ => id
  have hend : after.failure = none → after.Learning p trial (p.scenarios chromosomes) :=
    Batch.run_induction
      (P := fun b => b.failure = none → b.Learning p trial (p.scenarios chromosomes))
      (fun b place h hfailure => (h (Batch.failure_of_advance hfailure)).advance hfailure)
      (fun _ => hstart) threads _
  have hclosing : (after.outcome, after.trial) = (.ok solutions, trial') :=
    (evaluateTogether_eq scheduler threads chromosomes trial).symm.trans h
  obtain ⟨houtcome, rfl⟩ := Prod.mk.inj hclosing
  have hfailure : after.failure = none := by
    unfold Batch.outcome at houtcome
    split at houtcome
    · cases houtcome
    · assumption
  exact (hend hfailure).learns (Batch.settled_run _ threads _ hfailure)

end Retrofit
