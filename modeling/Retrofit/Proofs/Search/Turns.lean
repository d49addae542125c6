import Retrofit.Proofs.Search.Run
import Retrofit.Search.Threads

/-!
# Turns

What a batch keeps whenever a candidate takes a step it keeps on every schedule
(`Batch.run_induction`), and in the end all candidates are settled unless one has failed
(`Batch.settled_run`). A single thread makes of a batch what evaluating its candidates in order makes
of it, and so do threads that do not interrupt one another
(`PortfolioProblem.evaluateTogether_eq_evaluateAll`).
-/

namespace Retrofit

variable {σ : Type} {simulate : Simulator σ} {p : PortfolioProblem}

namespace Progress

/-- The evaluation is over. -/
def Settled (candidate : Progress) : Prop := ∃ verdict, candidate = settled verdict

section Steps

variable {trial trial' : Trial σ} {scenario : Scenario} {site : Site} {baseline : Totals Amount}
  {rest : List (Scenario × Site × Totals Amount)} {solutions : Dict SiteSolution} {fresh : Bool}

lemma step_of_ask_eq_ok {result : Totals Amount} {called : Bool}
    (h : Trial.ask simulate site.siteId scenario trial = (.ok (result, called), trial')) :
    (running ((scenario, site, baseline) :: rest) solutions fresh).step simulate p trial =
      (running rest (solutions.insert site.siteId (site.solution baseline scenario result))
        (fresh || called), trial') := by
  unfold step
  dsimp only
  rw [h]

lemma step_of_ask_eq_error {reason : SearchError}
    (h : Trial.ask simulate site.siteId scenario trial = (.error reason, trial')) :
    (running ((scenario, site, baseline) :: rest) solutions fresh).step simulate p trial =
      (settled (.error reason), trial') := by
  unfold step
  dsimp only
  rw [h]

end Steps

lemma settled_of_stepsLeft {candidate : Progress} (h : candidate.stepsLeft p = 0) :
    candidate.Settled := by
  cases candidate with
  | waiting chromosome => cases h
  | running work solutions fresh => cases h
  | settled verdict => exact ⟨verdict, rfl⟩

lemma stepsLeft_step (simulate : Simulator σ) (p : PortfolioProblem) (candidate : Progress)
    (trial : Trial σ) :
    (candidate.step simulate p trial).1.stepsLeft p ≤ candidate.stepsLeft p - 1 := by
  cases candidate with
  | waiting chromosome => exact Nat.le_refl _
  | settled verdict => exact Nat.le_refl _
  | running work solutions fresh =>
    cases work with
    | nil => exact Nat.le_refl _
    | cons w rest =>
      unfold step
      dsimp only
      split
      · exact Nat.le_refl _
      · exact Nat.zero_le _

end Progress

namespace Batch

variable {b : Batch σ} {place threads : Nat}

/-- All that a step can do: either there is no candidate at the place, or that one takes its next
step. -/
theorem advance_cases (simulate : Simulator σ) (p : PortfolioProblem) (b : Batch σ) (place : Nat) :
    (b.candidates[place]? = none ∧ b.advance simulate p place = b) ∨
    ∃ before candidate after, b.candidates = before ++ candidate :: after ∧
      before.length = place ∧
      b.advance simulate p place = ⟨(candidate.step simulate p b.trial).2,
        before ++ (candidate.step simulate p b.trial).1 :: after,
        b.failure.or (candidate.step simulate p b.trial).1.failure?⟩ := by
  unfold advance
  cases hcandidate : b.candidates[place]? with
  | none => exact Or.inl ⟨rfl, rfl⟩
  | some candidate =>
    obtain ⟨hplace, rfl⟩ := List.getElem?_eq_some_iff.mp hcandidate
    have hlength : (b.candidates.take place).length = place :=
      List.length_take_of_le (Nat.le_of_lt hplace)
    have hsplit : b.candidates =
        b.candidates.take place ++ b.candidates[place] :: b.candidates.drop (place + 1) := by
      rw [← List.drop_eq_getElem_cons hplace, List.take_append_drop]
    refine Or.inr ⟨b.candidates.take place, _, b.candidates.drop (place + 1), hsplit, hlength, ?_⟩
    dsimp only
    rw [List.set_eq_take_append_cons_drop, if_pos hplace]

lemma advance_of_split {before after : List Progress} {candidate : Progress}
    (h : b.candidates = before ++ candidate :: after) :
    b.advance simulate p before.length = ⟨(candidate.step simulate p b.trial).2,
      before ++ (candidate.step simulate p b.trial).1 :: after,
      b.failure.or (candidate.step simulate p b.trial).1.failure?⟩ := by
  have hcandidate : b.candidates[before.length]? = some candidate := by
    rw [h, List.getElem?_append_right (Nat.le_refl _), Nat.sub_self]
    rfl
  unfold advance
  rw [hcandidate, h]
  dsimp only
  rw [List.set_append_right _ _ (Nat.le_refl _), Nat.sub_self]
  rfl

/-- What every step keeps is kept on every schedule. -/
theorem run_induction {P : Batch σ → Prop}
    (hadvance : ∀ b place, P b → P (b.advance simulate p place)) (h : P b) (threads : Nat)
    (schedule : Schedule) : P (b.run simulate p threads schedule) := by
  have hturns : P (schedule.foldl (turn simulate p threads) b) := by
    refine List.foldlRecOn schedule _ h fun b hb place _ => ?_
    unfold turn
    split
    · exact hadvance b place hb
    · exact hb
  refine List.foldlRecOn _ _ hturns fun b hb place _ => ?_
  unfold settle
  split
  · exact List.foldlRecOn _ _ hb fun b hb place _ => hadvance b place hb
  · exact hb

/-! ## In the end all candidates are settled -/

lemma length_advance (b : Batch σ) (place : Nat) :
    (b.advance simulate p place).candidates.length = b.candidates.length := by
  rcases advance_cases simulate p b place with ⟨-, heq⟩ | ⟨before, candidate, after, h, -, heq⟩
  · rw [heq]
  · rw [heq, h, List.length_append, List.length_append, List.length_cons, List.length_cons]

/-- A failure stays. -/
lemma failure_of_advance (h : (b.advance simulate p place).failure = none) : b.failure = none := by
  rcases advance_cases simulate p b place with ⟨-, heq⟩ | ⟨before, candidate, after, -, -, heq⟩
  · rwa [heq] at h
  · rw [heq] at h
    exact (Option.or_eq_none_iff.mp h).1

/-- Steps at one place leave the other candidates as they are. -/
lemma foldl_advance (simulate : Simulator σ) (p : PortfolioProblem) {before after : List Progress}
    {candidate : Progress} (h : b.candidates = before ++ candidate :: after) (count : Nat) :
    ∃ later, ((List.replicate count before.length).foldl (advance simulate p) b).candidates =
        before ++ later :: after ∧ later.stepsLeft p ≤ candidate.stepsLeft p - count := by
  induction count generalizing b candidate with
  | zero => exact ⟨candidate, h, Nat.le_refl _⟩
  | succ count ih =>
    obtain ⟨later, hlater, hleft⟩ := @ih (b.advance simulate p before.length) _
      (by rw [advance_of_split h])
    have hstep := candidate.stepsLeft_step simulate p b.trial
    exact ⟨later, hlater, by omega⟩

/-- The candidates before a place are settled, unless one has failed. -/
def SettledBefore (place : Nat) (b : Batch σ) : Prop :=
  b.failure = none → ∀ candidate ∈ b.candidates.take place, candidate.Settled

lemma SettledBefore.settle (h : b.SettledBefore place) :
    (b.settle simulate p place).SettledBefore (place + 1) := by
  unfold Batch.settle
  split
  · rename_i candidate hfailure hcandidate
    intro _
    rcases advance_cases simulate p b place with ⟨hnone, -⟩ | ⟨before, other, after, hsplit, rfl, -⟩
    · cases hnone.symm.trans hcandidate
    · have heq : other = candidate := by
        rw [hsplit, List.getElem?_append_right (Nat.le_refl _), Nat.sub_self] at hcandidate
        exact Option.some.inj hcandidate
      subst heq
      obtain ⟨later, hlater, hleft⟩ := foldl_advance simulate p hsplit (other.stepsLeft p)
      have hbefore := h hfailure
      rw [hsplit, List.take_left] at hbefore
      rw [hlater, List.take_length_add_append, List.forall_mem_append]
      refine ⟨hbefore, List.forall_mem_singleton.mpr (Progress.settled_of_stepsLeft (p := p) ?_)⟩
      omega
  · rename_i hcase
    intro hfailure candidate hcandidate
    cases hplace : b.candidates[place]? with
    | some other => exact absurd hplace (hcase other hfailure)
    | none =>
      have hlength := List.getElem?_eq_none_iff.mp hplace
      refine h hfailure candidate ?_
      rw [List.take_of_length_le hlength]
      exact List.mem_of_mem_take hcandidate

lemma settledBefore_foldl (b : Batch σ) (count : Nat) :
    ((List.range count).foldl (settle simulate p) b).SettledBefore count := by
  induction count with
  | zero => exact fun _ _ hcandidate => nomatch hcandidate
  | succ count ih =>
    rw [List.range_succ, List.foldl_concat]
    exact ih.settle

/-- In the end all candidates are settled, unless one has failed. -/
theorem settled_run (b : Batch σ) (threads : Nat) (schedule : Schedule)
    (h : (b.run simulate p threads schedule).failure = none) :
    ∀ candidate ∈ (b.run simulate p threads schedule).candidates, candidate.Settled := by
  have hlength : (b.run simulate p threads schedule).candidates.length = b.candidates.length :=
    run_induction (P := fun b' => b'.candidates.length = b.candidates.length)
      (fun b' place h => (length_advance b' place).trans h) rfl threads schedule
  intro candidate hcandidate
  refine settledBefore_foldl _ b.candidates.length h candidate ?_
  rwa [← run, ← hlength, List.take_length]

end Batch

/-! ## One candidate after the other -/

namespace Progress

/-- What is left of the evaluation of a candidate. -/
def conclude (simulate : Simulator σ) (p : PortfolioProblem) :
    Progress → Search (Trial σ) PortfolioSolution
  | waiting chromosome => p.evaluate simulate chromosome
  | running work solutions fresh => do
    let (solutions, fresh) ← PortfolioProblem.evaluateSites simulate work solutions fresh
    if fresh then Trial.count
    return .ofSites solutions p.constraints
  | settled (.ok solution) => pure solution
  | settled (.error reason) => throw reason

/-- Taking a step and concluding is concluding. -/
lemma conclude_step (candidate : Progress) (trial : Trial σ) :
    ((candidate.step simulate p trial).1.conclude simulate p).run.run
        (candidate.step simulate p trial).2 =
      (candidate.conclude simulate p).run.run trial := by
  cases candidate with
  | waiting chromosome => rfl
  | settled verdict => rfl
  | running work solutions fresh =>
    cases work with
    | nil => cases fresh <;> rfl
    | cons w rest =>
      obtain ⟨scenario, site, baseline⟩ := w
      have hask : (Trial.ask simulate site.siteId scenario).run.run trial =
          Trial.ask simulate site.siteId scenario trial := rfl
      conv_rhs => rw [conclude, PortfolioProblem.evaluateSites, bind_assoc, run_bind, hask]
      unfold step
      dsimp only
      generalize Trial.ask simulate site.siteId scenario trial = answer
      obtain ⟨reason | ⟨result, called⟩, trial'⟩ := answer <;> rfl

/-- The candidate has a solution. -/
def solved (solution : PortfolioSolution) : Progress := settled (.ok solution)

lemma filterMap_solution?_solved (solutions : List PortfolioSolution) :
    (solutions.map solved).filterMap (·.solution?) = solutions := by
  rw [List.filterMap_map]
  exact List.filterMap_some

/-- Candidates that are settled and have not failed have solutions. -/
lemma exists_solved {candidates : List Progress}
    (h : ∀ candidate ∈ candidates, candidate.Settled ∧ candidate.failure? = none) :
    ∃ solutions : List PortfolioSolution, candidates = solutions.map solved := by
  induction candidates with
  | nil => exact ⟨[], rfl⟩
  | cons candidate rest ih =>
    obtain ⟨⟨⟨verdict, rfl⟩, hfailure⟩, hrest⟩ := List.forall_mem_cons.mp h
    obtain ⟨solutions, rfl⟩ := ih hrest
    cases verdict with
    | error reason => cases hfailure
    | ok x => exact ⟨x :: solutions, rfl⟩

/-- No step takes a candidate back to its beginning. -/
lemma step_ne_waiting (candidate : Progress) (trial : Trial σ) (chromosome : Chromosome) :
    (candidate.step simulate p trial).1 ≠ waiting chromosome := by
  cases candidate with
  | waiting other => nofun
  | settled verdict => nofun
  | running work solutions fresh =>
    cases work with
    | nil => nofun
    | cons w rest =>
      unfold step
      dsimp only
      split <;> nofun

/-- A failed candidate is left as it is. -/
lemma or_failure?_step (candidate : Progress) (trial : Trial σ) :
    candidate.failure?.or (candidate.step simulate p trial).1.failure? =
      (candidate.step simulate p trial).1.failure? := by
  cases candidate with
  | waiting chromosome => rfl
  | running work solutions fresh => rfl
  | settled verdict => cases verdict <;> rfl

/-- Candidates that have solutions are concluded at once. -/
lemma run_mapM_conclude (solutions : List PortfolioSolution) (rest : List Progress)
    (trial : Trial σ) :
    ((solutions.map solved ++ rest).mapM (conclude simulate p)).run.run trial =
      match (rest.mapM (conclude simulate p)).run.run trial with
      | (.ok others, trial') => (.ok (solutions ++ others), trial')
      | (.error reason, trial') => (.error reason, trial') := by
  induction solutions with
  | nil =>
    rw [List.map_nil, List.nil_append]
    generalize (rest.mapM (conclude simulate p)).run.run trial = answer
    obtain ⟨reason | others, trial'⟩ := answer <;> rfl
  | cons x solutions ih =>
    have hsolved : ((solved x).conclude simulate p).run.run trial = (.ok x, trial) := rfl
    rw [List.map_cons, List.cons_append, List.mapM_cons, run_bind, hsolved]
    dsimp only
    rw [run_bind, ih]
    generalize (rest.mapM (conclude simulate p)).run.run trial = answer
    obtain ⟨reason | others, trial'⟩ := answer <;> rfl

end Progress

namespace Batch

variable {b : Batch σ} {place threads : Nat}

/-- What becomes of the batch if its candidates are concluded in order. -/
def remaining (simulate : Simulator σ) (p : PortfolioProblem) (b : Batch σ) :
    Except SearchError (List PortfolioSolution) × Trial σ :=
  (b.candidates.mapM (Progress.conclude simulate p)).run.run b.trial

/-- The first candidates have solutions, the last ones are not begun, and one is in between. -/
inductive InOrder : Batch σ → Prop
  | empty (trial : Trial σ) : InOrder ⟨trial, [], none⟩
  | between (trial : Trial σ) (solutions : List PortfolioSolution) (candidate : Progress)
      (chromosomes : List Chromosome) :
      InOrder ⟨trial, solutions.map .solved ++ candidate :: chromosomes.map .waiting,
        candidate.failure?⟩

/-- If the candidate at the place is not begun, it is its turn: those before it are settled. -/
def IsNext (b : Batch σ) (place : Nat) : Prop :=
  ∀ chromosome, b.candidates[place]? = some (.waiting chromosome) →
    b.failure = none ∧ ∀ candidate ∈ b.candidates.take place, candidate.Settled

/-- A single thread begins no candidate before the ones before it are settled. -/
lemma isNext_of_mayAdvance (hthreads : threads ≤ 1) (h : b.mayAdvance threads place) :
    b.IsNext place := by
  intro chromosome hchromosome
  unfold mayAdvance at h
  rw [hchromosome] at h
  simp only [Bool.and_eq_true, Option.isNone_iff_eq_none, decide_eq_true_eq, Bool.or_eq_true,
    Bool.not_eq_true', List.any_eq_false] at h
  obtain ⟨⟨hfailure, hrunning⟩, hbegun⟩ := h
  have hbegun := hbegun.resolve_left (by omega)
  have hidle := List.countP_eq_zero.mp (show b.candidates.countP (·.isRunning) = 0 by omega)
  refine ⟨hfailure, fun candidate hcandidate => ?_⟩
  cases candidate with
  | waiting other => exact absurd rfl (hbegun _ hcandidate)
  | running work solutions fresh => exact absurd rfl (hidle _ (List.mem_of_mem_take hcandidate))
  | settled verdict => exact ⟨verdict, rfl⟩

lemma SettledBefore.isNext (h : b.SettledBefore place) (hfailure : b.failure = none) :
    b.IsNext place :=
  fun _ _ => ⟨hfailure, h hfailure⟩

/-- A candidate that took a step is begun. -/
lemma isNext_advance (b : Batch σ) (place : Nat) : (b.advance simulate p place).IsNext place := by
  intro chromosome hchromosome
  rcases advance_cases simulate p b place with
    ⟨hnone, heq⟩ | ⟨before, candidate, after, -, rfl, heq⟩
  · rw [heq, hnone] at hchromosome
    cases hchromosome
  · rw [heq, List.getElem?_append_right (Nat.le_refl _), Nat.sub_self] at hchromosome
    exact absurd (Option.some.inj hchromosome) (candidate.step_ne_waiting _ _)

lemma advance_of_solved {x : PortfolioSolution} (h : b.candidates[place]? = some (.solved x)) :
    b.advance simulate p place = b := by
  obtain ⟨hplace, hsolved⟩ := List.getElem?_eq_some_iff.mp h
  unfold advance
  rw [h]
  change Batch.mk b.trial (b.candidates.set place (.solved x)) (b.failure.or none) = b
  rw [← hsolved, List.set_getElem_self, Option.or_none]

lemma advance_of_none (h : b.candidates[place]? = none) : b.advance simulate p place = b := by
  unfold advance
  rw [h]

/-- The candidates are worked on in order, and this is what becomes of the batch. -/
def HeadsFor (simulate : Simulator σ) (p : PortfolioProblem)
    (result : Except SearchError (List PortfolioSolution) × Trial σ) (b : Batch σ) : Prop :=
  b.InOrder ∧ b.remaining simulate p = result

lemma headsFor_advance_between (trial : Trial σ) (solutions : List PortfolioSolution)
    (candidate : Progress) (chromosomes : List Chromosome) :
    let b : Batch σ := ⟨trial, solutions.map .solved ++ candidate :: chromosomes.map .waiting,
      candidate.failure?⟩
    (b.advance simulate p solutions.length).HeadsFor simulate p (b.remaining simulate p) := by
  dsimp only
  have hadvance := @advance_of_split _ simulate p
    ⟨trial, solutions.map .solved ++ candidate :: chromosomes.map .waiting, candidate.failure?⟩
    _ _ _ rfl
  rw [List.length_map] at hadvance
  rw [hadvance, Progress.or_failure?_step]
  refine ⟨.between _ _ _ _, ?_⟩
  unfold remaining
  rw [Progress.run_mapM_conclude, Progress.run_mapM_conclude, List.mapM_cons, List.mapM_cons,
    run_bind, run_bind, Progress.conclude_step]

/-- If a candidate further down is next although it is not begun, the one in between has a solution
and it comes right after that one. -/
lemma IsNext.eq_solved {trial : Trial σ} {solutions : List PortfolioSolution}
    {candidate : Progress} {chromosomes : List Chromosome} {chromosome : Chromosome} {k : Nat}
    (h : IsNext ⟨trial, solutions.map .solved ++ candidate :: chromosomes.map .waiting,
      candidate.failure?⟩ (solutions.length + (k + 1)))
    (hplace : chromosomes[k]? = some chromosome) : (∃ x, candidate = .solved x) ∧ k = 0 := by
  have hlength : (solutions.map Progress.solved).length = solutions.length := List.length_map _
  have hwaiting : (solutions.map Progress.solved ++ candidate :: chromosomes.map .waiting)[
      solutions.length + (k + 1)]? = some (.waiting chromosome) := by
    rw [← hlength, List.getElem?_append_right (Nat.le_add_right _ _), Nat.add_sub_cancel_left,
      List.getElem?_cons_succ, List.getElem?_map, hplace, Option.map_some]
  obtain ⟨hfailure, hsettled⟩ := h chromosome hwaiting
  rw [← hlength, List.take_length_add_append, List.take_succ_cons, List.forall_mem_append,
    List.forall_mem_cons] at hsettled
  obtain ⟨-, ⟨verdict, rfl⟩, hbetween⟩ := hsettled
  refine ⟨?_, ?_⟩
  · cases verdict with
    | error reason => cases hfailure
    | ok x => exact ⟨x, rfl⟩
  · -- otherwise the first candidate that is not begun would be settled
    cases chromosomes with
    | nil => cases hplace
    | cons c rest =>
      cases k with
      | zero => rfl
      | succ k =>
        obtain ⟨_, hverdict⟩ := hbetween (.waiting c) List.mem_cons_self
        cases hverdict

/-- Steps that keep to the order leave the outcome of the batch as it is. -/
theorem InOrder.advance (h : b.InOrder) (hnext : b.IsNext place) :
    (b.advance simulate p place).HeadsFor simulate p (b.remaining simulate p) := by
  cases hat : b.candidates[place]? with
  | none =>
    rw [advance_of_none hat]
    exact ⟨h, rfl⟩
  | some found =>
    cases h with
    | empty trial => cases hat
    | between trial solutions candidate chromosomes =>
      have hlength : (solutions.map Progress.solved).length = solutions.length := List.length_map _
      rcases Nat.lt_trichotomy place solutions.length with hlt | rfl | hgt
      · -- the turn of a candidate that has its solution already
        have hsolved : (solutions.map Progress.solved ++
            candidate :: chromosomes.map .waiting)[place]? = some (.solved solutions[place]) := by
          rw [List.getElem?_append_left (hlength ▸ hlt), List.getElem?_map,
            List.getElem?_eq_getElem hlt, Option.map_some]
        rw [advance_of_solved hsolved]
        exact ⟨.between _ _ _ _, rfl⟩
      · exact headsFor_advance_between trial solutions candidate chromosomes
      · -- the turn of a candidate that is not begun, which becomes the one in between
        obtain ⟨k, rfl⟩ := Nat.exists_eq_add_of_lt hgt
        have hrest : (chromosomes.map Progress.waiting)[k]? = some found := by
          rw [Nat.add_assoc, ← hlength, List.getElem?_append_right (Nat.le_add_right _ _),
            Nat.add_sub_cancel_left] at hat
          exact hat
        rw [List.getElem?_map] at hrest
        obtain ⟨chromosome, hplace, rfl⟩ := Option.map_eq_some_iff.mp hrest
        obtain ⟨⟨x, rfl⟩, rfl⟩ := hnext.eq_solved hplace
        cases chromosomes with
        | nil => cases hplace
        | cons c rest =>
          have hshifted := @headsFor_advance_between _ simulate p trial (solutions ++ [x])
            (.waiting c) rest
          rw [List.length_append, List.map_append, List.append_assoc] at hshifted
          exact hshifted

section Order

variable {result : Except SearchError (List PortfolioSolution) × Trial σ}

lemma HeadsFor.advance (h : b.HeadsFor simulate p result) (hnext : b.IsNext place) :
    (b.advance simulate p place).HeadsFor simulate p result := by
  obtain ⟨horder, rfl⟩ := h
  exact horder.advance hnext

/-- A single thread keeps to the order. -/
lemma HeadsFor.turns (h : b.HeadsFor simulate p result) (hthreads : threads ≤ 1)
    (schedule : Schedule) :
    (schedule.foldl (turn simulate p threads) b).HeadsFor simulate p result := by
  refine List.foldlRecOn schedule _ h fun b' hb' place _ => ?_
  unfold turn
  split
  · rename_i hmay
    exact hb'.advance (isNext_of_mayAdvance hthreads hmay)
  · exact hb'

lemma HeadsFor.settle (h : b.HeadsFor simulate p result) (hbefore : b.SettledBefore place) :
    (b.settle simulate p place).HeadsFor simulate p result := by
  unfold Batch.settle
  split
  · rename_i hfailure _
    refine (List.foldlRecOn _ _ (motive := fun b' : Batch σ =>
      b'.HeadsFor simulate p result ∧ b'.IsNext place)
      ⟨h, hbefore.isNext hfailure⟩ fun b' hb' other hother => ?_).1
    rw [List.eq_of_mem_replicate hother]
    exact ⟨hb'.1.advance hb'.2, isNext_advance b' place⟩
  · exact h

lemma HeadsFor.settles (h : b.HeadsFor simulate p result) (count : Nat) :
    ((List.range count).foldl (Batch.settle simulate p) b).HeadsFor simulate p result := by
  induction count with
  | zero => exact h
  | succ count ih =>
    rw [List.range_succ, List.foldl_concat]
    exact ih.settle (settledBefore_foldl b count)

/-- A schedule leaves the outcome as it is if a single thread takes the turns, or if there are
none. -/
theorem HeadsFor.run (h : b.HeadsFor simulate p result) {schedule : Schedule}
    (hsingle : threads ≤ 1 ∨ schedule = []) :
    (b.run simulate p threads schedule).HeadsFor simulate p result := by
  rcases hsingle with hthreads | rfl
  · exact (h.turns hthreads schedule).settles _
  · exact h.settles _

/-- In the end nothing is left to be concluded. -/
lemma HeadsFor.ends (h : b.HeadsFor simulate p result)
    (hsettled : b.failure = none → ∀ candidate ∈ b.candidates, candidate.Settled) :
    (b.outcome, b.trial) = result := by
  obtain ⟨horder, rfl⟩ := h
  cases horder with
  | empty trial => rfl
  | between trial solutions candidate chromosomes =>
    have hlast := fun hfailure => hsettled hfailure candidate (List.mem_append_right _
      List.mem_cons_self)
    unfold remaining
    rw [Progress.run_mapM_conclude, List.mapM_cons, run_bind]
    cases candidate with
    | waiting chromosome =>
      obtain ⟨_, hverdict⟩ := hlast rfl
      cases hverdict
    | running work sites fresh =>
      obtain ⟨_, hverdict⟩ := hlast rfl
      cases hverdict
    | settled verdict =>
      cases verdict with
      | error reason => rfl
      | ok x =>
        cases chromosomes with
        | cons c rest =>
          obtain ⟨_, hverdict⟩ := hsettled rfl (.waiting c) (List.mem_append_right _
            (List.mem_cons_of_mem _ List.mem_cons_self))
          cases hverdict
        | nil =>
          unfold outcome
          dsimp only [Progress.failure?]
          rw [List.filterMap_append, Progress.filterMap_solution?_solved]
          rfl

end Order

/-! ## The batch that is evaluated -/

/-- A batch before the first turn, once the schedule is chosen. -/
def opening (scheduler : Scheduler σ) (trial : Trial σ) (chromosomes : List Chromosome) : Batch σ :=
  ⟨{ trial with cache := { trial.cache with world := (scheduler trial.cache.world).2 } },
    chromosomes.map .waiting, none⟩

/-- A batch after the last turn. -/
def closing (simulate : Simulator σ) (p : PortfolioProblem) (scheduler : Scheduler σ)
    (threads : Nat) (trial : Trial σ) (chromosomes : List Chromosome) : Batch σ :=
  (opening scheduler trial chromosomes).run simulate p threads (scheduler trial.cache.world).1

lemma inOrder_opening (scheduler : Scheduler σ) (trial : Trial σ) (chromosomes : List Chromosome) :
    (opening scheduler trial chromosomes).InOrder := by
  cases chromosomes with
  | nil => exact .empty _
  | cons c rest => exact .between _ [] (.waiting c) rest

end Batch

lemma PortfolioProblem.evaluateTogether_eq (scheduler : Scheduler σ) (threads : Nat)
    (chromosomes : List Chromosome) (trial : Trial σ) :
    p.evaluateTogether simulate scheduler threads chromosomes trial =
      ((Batch.closing simulate p scheduler threads trial chromosomes).outcome,
        (Batch.closing simulate p scheduler threads trial chromosomes).trial) := rfl

/-- A single thread evaluates the candidates of a batch in order, and so do several threads that do
not interrupt one another. -/
theorem PortfolioProblem.evaluateTogether_eq_evaluateAll (scheduler : Scheduler σ) {threads : Nat}
    {chromosomes : List Chromosome} {trial : Trial σ}
    (hsingle : threads ≤ 1 ∨ (scheduler trial.cache.world).1 = []) :
    p.evaluateTogether simulate scheduler threads chromosomes trial =
      (p.problem simulate).evaluateAll chromosomes { trial with
        cache := { trial.cache with world := (scheduler trial.cache.world).2 } } := by
  let batch := Batch.opening scheduler trial chromosomes
  have hstart : batch.HeadsFor simulate p
      ((p.problem simulate).evaluateAll chromosomes batch.trial) := by
    refine ⟨Batch.inOrder_opening scheduler trial chromosomes, ?_⟩
    have hcandidates : batch.candidates = chromosomes.map .waiting := rfl
    unfold Batch.remaining
    rw [hcandidates, List.mapM_map]
    rfl
  rw [evaluateTogether_eq]
  exact (hstart.run hsingle).ends (batch.settled_run threads _)

end Retrofit
