import Retrofit.Proofs.Queue.Orderly
import Retrofit.Proofs.Search.SiteFronts

/-!
# A submission is worked on at most once

In whatever order the workers and the clients act, a submission is handed out, started and stored at
most once, and one that was cancelled is never started or stored (`Crew.at_most_once`). Every action
keeps the crew sound: the queue shows a ledger with which the journal and the jobs agree.
-/

namespace Retrofit

variable {ι σ γ τ : Type}

/-! ## Any order of actions -/

namespace Crew

/-- The queue shows a ledger with which the journal and the jobs agree. -/
def Sound (c : Crew ι σ τ) : Prop :=
  ∃ l, Books c.queue l ∧ Orderly l c

lemma of_acceptAll (c : Crew ι σ τ) (admissions : List (TaskId × Admission)) :
    (c.acceptAll admissions).queue = c.queue ∧ (c.acceptAll admissions).stored = c.stored ∧
      (c.acceptAll admissions).jobs = c.jobs ∧ (c.acceptAll admissions).caches = c.caches := by
  unfold acceptAll
  induction admissions generalizing c with
  | nil => exact ⟨rfl, rfl, rfl, rfl⟩
  | cons e rest ih =>
    obtain ⟨hqueue, hstored, hjobs, hcaches⟩ := ih (if e.2 = .queued then c.accept e.1 else c)
    rw [List.foldl_cons, hqueue, hstored, hjobs, hcaches]
    split <;> exact ⟨rfl, rfl, rfl, rfl⟩

lemma sound_opening (capacity : Nat) (caches : ι → Cache σ) (stored : τ) :
    (opening ⟨capacity, [], [], capacity, []⟩ caches stored).Sound := by
  refine ⟨⟨capacity, [], []⟩, books_empty capacity, ?_⟩
  constructor
  · exact fun e he => absurd he List.not_mem_nil
  · exact fun s => ⟨Nat.zero_le 1, Nat.zero_le 1, Nat.zero_le 1, Nat.le_refl 0,
      fun he => absurd he List.not_mem_nil⟩
  · exact fun r hr => absurd hr List.not_mem_nil
  · exact fun w j hj => nomatch hj
  · exact fun w w' j j' hj => nomatch hj

/-- The queue keeps track of the task that a worker is at. -/
lemma Sound.find?_job {c : Crew ι σ τ} {worker : ι} {job : Job} (h : c.Sound)
    (hjob : c.jobs worker = some job) :
    ∃ slot, c.queue.find? job.task.id = some slot ∧ slot.task = job.task := by
  obtain ⟨l, hbooks, horderly⟩ := h
  obtain ⟨r, hr, htask, -⟩ := (horderly.jobs worker job hjob).tracked
  refine ⟨r.slot, ?_, htask⟩
  rw [hbooks.find?, ← htask, hbooks.find?_of_mem hr]
  rfl

section Sound

variable [DecidableEq ι] [Random.Source γ] {shop : ι → Workshop σ γ τ} {c : Crew ι σ τ}

lemma Sound.start {worker : ι} {job : Job} (h : c.Sound) (hjob : c.jobs worker = some job)
    (hstage : job.stage = .inHand) : (c.start worker job).Sound := by
  obtain ⟨l, hbooks, horderly⟩ := h
  unfold Crew.start WorkQueue.markRunning
  rcases books_leaveQueued hbooks job.task.id .running .cancelled with
    ⟨queue, l', hq, hl, hafter⟩ | ⟨reason, hq, -⟩
  · rw [hq]
    exact ⟨l', hafter, (orderly_start hbooks.nodup horderly hjob hstage hl).congr rfl rfl rfl⟩
  · rw [hq]
    exact ⟨l, hbooks, orderly_over horderly hjob⟩

lemma Sound.execute {worker : ι} {job : Job} (h : c.Sound) (hjob : c.jobs worker = some job)
    (hstage : job.stage = .running) : (c.execute (shop worker) worker job).Sound := by
  obtain ⟨l, hbooks, horderly⟩ := h
  refine ⟨l, (of_execute (shop worker) c worker job).1 ▸ hbooks, ?_⟩
  unfold Crew.execute
  dsimp only
  split
  · exact (orderly_store horderly hjob hstage).congr rfl rfl rfl
  · exact (orderly_over horderly hjob).congr rfl rfl rfl

/-- Every action keeps the crew sound. -/
theorem Sound.act (h : c.Sound) (action : Action ι) : (c.act shop action).Sound := by
  have hsound := h
  obtain ⟨l, hbooks, horderly⟩ := h
  cases action with
  | put now task =>
    obtain ⟨hadmission, hafter⟩ := @books_put _ _ now hbooks task
    refine ⟨(l.put now task).2, ?_, ?_⟩
    · exact (of_acceptAll _ _).1.symm ▸ hafter
    · change Orderly _ (acceptAll _ [(task.id, (c.queue.put now task).1)])
      rw [hadmission]
      have hqueue : Orderly l { c with queue := (c.queue.put now task).2 } :=
        horderly.congr rfl rfl rfl
      exact orderly_put hqueue task
  | resume now =>
    obtain ⟨hadmissions, hafter⟩ := @books_resume _ _ now hbooks
    refine ⟨(l.resume now).2, ?_, ?_⟩
    · exact (of_acceptAll _ _).1.symm ▸ hafter
    · change Orderly _ (acceptAll _ (c.queue.resume now).1)
      rw [hadmissions]
      have hqueue : Orderly l { c with queue := (c.queue.resume now).2 } :=
        horderly.congr rfl rfl rfl
      exact orderly_resume hqueue
  | cancel id =>
    unfold Crew.act WorkQueue.cancel
    dsimp only
    rcases books_leaveQueued hbooks id .cancelled .alreadyCancelled with
      ⟨queue, l', hq, hl, hafter⟩ | ⟨reason, hq, -⟩
    · rw [hq]
      exact ⟨l', hafter, (orderly_cancel hbooks.nodup horderly hl).congr rfl rfl rfl⟩
    · rw [hq]
      exact hsound
  | get worker =>
    unfold Crew.act
    dsimp only
    split
    · refine ⟨l.get.2, ?_, orderly_get hbooks horderly⟩
      have hqueue : (c.get worker).queue = c.queue.get.2 := by
        unfold Crew.get
        split
        · rename_i hget
          rw [hget]
        · rename_i hget
          rw [hget]
          rfl
      exact hqueue ▸ (books_get hbooks).2
    · exact hsound
  | start worker =>
    change (c.atStage worker .inHand (c.start worker)).Sound
    rcases atStage_cases c worker .inHand (c.start worker) with hact | ⟨job, hjob, hstage, hact⟩
    · rwa [hact]
    · rw [hact]
      exact hsound.start hjob hstage
  | execute worker =>
    change (c.atStage worker .running (c.execute (shop worker) worker)).Sound
    rcases atStage_cases c worker .running (c.execute (shop worker) worker) with
      hact | ⟨job, hjob, hstage, hact⟩
    · rwa [hact]
    · rw [hact]
      exact hsound.execute hjob hstage
  | finish worker =>
    change (c.atStage worker .over (c.finish worker)).Sound
    rcases atStage_cases c worker .over (c.finish worker) with hact | ⟨job, hjob, -, hact⟩
    · rwa [hact]
    · rw [hact]
      exact ⟨l.done job.task.id, books_done hbooks job.task.id,
        (orderly_finish horderly hjob).congr rfl rfl rfl⟩

theorem Sound.run (h : c.Sound) (actions : List (Action ι)) : (c.run shop actions).Sound := by
  induction actions generalizing c with
  | nil => exact h
  | cons action rest ih => exact ih (h.act action)

/-- The store changes only when a result is sent on, and then the journal says so. -/
lemma stored_act (c : Crew ι σ τ) (action : Action ι) :
    (c.act shop action).stored = c.stored ∨ ∃ worker job, c.jobs worker = some job ∧
      action = .execute worker ∧
      (c.act shop action).journal = .stored job.submission :: c.journal := by
  cases action with
  | put now task => exact Or.inl (of_acceptAll _ _).2.1
  | resume now => exact Or.inl (of_acceptAll _ _).2.1
  | cancel id =>
    left
    unfold Crew.act
    dsimp only
    split <;> rfl
  | get worker =>
    left
    unfold Crew.act Crew.get
    dsimp only
    split
    · split <;> rfl
    · rfl
  | start worker =>
    left
    change (c.atStage worker .inHand (c.start worker)).stored = c.stored
    rcases atStage_cases c worker .inHand (c.start worker) with hact | ⟨job, -, -, hact⟩
    · rw [hact]
    · rw [hact]
      unfold Crew.start
      split <;> rfl
  | execute worker =>
    change (c.atStage worker .running (c.execute (shop worker) worker)).stored = c.stored ∨ _
    rcases atStage_cases c worker .running (c.execute (shop worker) worker) with
      hact | ⟨job, hjob, -, hact⟩
    · exact Or.inl (congrArg Crew.stored hact)
    · cases hsent : wasSent (Worker.execute (shop worker) job.task
          ⟨c.queue, c.caches worker, c.stored⟩).1 with
      | true =>
        refine Or.inr ⟨worker, job, hjob, rfl, (congrArg Crew.journal hact).trans ?_⟩
        unfold Crew.execute
        dsimp only
        rw [if_pos hsent]
        rfl
      | false =>
        refine Or.inl ((congrArg Crew.stored hact).trans ?_)
        exact (of_execute _ _ _ _).2.2.trans ((execute_fst_snd _ _ _).2 hsent)
  | finish worker =>
    left
    change (c.atStage worker .over (c.finish worker)).stored = c.stored
    rcases atStage_cases c worker .over (c.finish worker) with hact | ⟨job, -, -, hact⟩
    · rw [hact]
    · rw [hact]
      rfl

lemma Sound.finish {worker : ι} {job : Job} (h : c.Sound) (hjob : c.jobs worker = some job) :
    (c.finish worker job).queue.find? job.task.id = none ∧
      (c.finish worker job).queue.free = c.queue.free + 1 := by
  obtain ⟨slot, hfind, -⟩ := h.find?_job hjob
  obtain ⟨l, hbooks, -⟩ := h
  change (c.queue.done job.task.id).find? job.task.id = none ∧ (c.queue.done job.task.id).free = _
  constructor
  · exact hbooks.find?_done job.task.id
  · unfold WorkQueue.done
    rw [hfind]

end Sound

/-- Whatever clients and workers do and in whichever order, a submission is accepted, handed out,
started and stored at most once. If it was cancelled it is neither started nor stored. Once a worker
is done with it the queue has forgotten it and its place is free. What a worker is at is the latest
submission of its id, so nothing is mistaken for an earlier submission of the same id. -/
theorem at_most_once [DecidableEq ι] [Random.Source γ] (capacity : Nat) (hcapacity : 1 ≤ capacity)
    (shop : ι → Workshop σ γ τ) (caches : ι → Cache σ) (stored : τ) (actions : List (Action ι)) :
    ∃ q, WorkQueue.ofCapacity capacity = .ok q ∧
      let c := (opening q caches stored).run shop actions
      (∀ s, c.journal.count (.accepted s) ≤ 1 ∧ c.journal.count (.handedOut s) ≤ 1 ∧
        c.journal.count (.started s) ≤ 1 ∧ c.journal.count (.stored s) ≤ 1 ∧
        (.cancelled s ∈ c.journal → .started s ∉ c.journal ∧ .stored s ∉ c.journal) ∧
        (.stored s ∈ c.journal → .cancelled s ∉ c.journal) ∧
        (.finished s ∈ c.journal → c.latest s.id = s → c.queue.find? s.id = none)) ∧
      (∀ worker job, c.jobs worker = some job → job.submission = c.latest job.task.id ∧
        (∃ slot, c.queue.find? job.task.id = some slot ∧ slot.task = job.task) ∧
        (job.stage = .over →
          let after := c.act shop (.finish worker)
          after.journal = .finished job.submission :: c.journal ∧
            after.queue.find? job.task.id = none ∧ after.queue.free = c.queue.free + 1)) ∧
      ∀ action, (c.act shop action).stored = c.stored ∨ ∃ worker job, c.jobs worker = some job ∧
        action = .execute worker ∧
        (c.act shop action).journal = .stored job.submission :: c.journal := by
  refine ⟨_, if_neg (by omega), ?_⟩
  dsimp only
  have hsound : ((opening _ caches stored).run shop actions).Sound :=
    (sound_opening capacity caches stored).run actions
  obtain ⟨l, hbooks, horderly⟩ := id hsound
  refine ⟨fun s => ?_, fun worker job hjob => ⟨?_, ?_, fun hstage => ?_⟩, fun action => ?_⟩
  · have hfate := horderly.fates s
    refine ⟨hfate.accepted, hfate.handedOut, hfate.started, ?_, fun hcancelled => ?_, ?_, ?_⟩
    · exact Nat.le_trans hfate.stored hfate.started
    · have hidle := hfate.cancelled hcancelled
      exact ⟨hidle, hfate.stored_not_mem hidle⟩
    · exact fun hstored hcancelled =>
        hfate.stored_not_mem (hfate.cancelled hcancelled) hstored
    · intro hfinished hlatest
      rw [hbooks.find?, Option.map_eq_none_iff, Ledger.find?_eq_none]
      intro hmem
      obtain ⟨r, hr, hid⟩ := List.mem_map.mp hmem
      have hopen := (horderly.records r hr).finished
      rw [hid] at hopen
      exact hopen (hlatest.symm ▸ hfinished)
  · exact (horderly.jobs worker job hjob).latest
  · exact hsound.find?_job hjob
  · rw [act_finish hjob hstage]
    exact ⟨rfl, hsound.finish hjob⟩
  · exact stored_act _ action

end Crew

/-! ## Two workers at the depot -/

/-- The cheapest renovation of the depot, by going through all of them. -/
def depotTask (id : TaskId) : Task :=
  { idleTask id with objectives := [.capex], portfolio := [depot] }

/-- Every worker has the depot's simulator, and its results are kept in a list. -/
def depotShop : Bool → Workshop Unit Random.ChaCha (List ResultPayload) := fun _ =>
  { engine := depotEngine, registry := .builtin 1, store := .inMemory, threads := none,
    now := ⟨9, 0⟩ }

/-- The first task is cancelled when a worker has it in hand already, and is submitted again. -/
def depotActions : List (Action Bool) :=
  [.put ⟨0, 0⟩ (depotTask ⟨1⟩), .get true, .cancel ⟨1⟩, .put ⟨1, 0⟩ (depotTask ⟨1⟩), .get false,
    .start true, .finish true, .resume ⟨2, 0⟩, .get false, .start false, .execute false,
    .finish false]

/-- Only the second submission is worked on, and its result is kept. -/
theorem Crew.at_most_once_depot : ∃ q, WorkQueue.ofCapacity 1 = .ok q ∧
    let c := (opening q (fun _ => .start ()) []).run depotShop depotActions
    .cancelled ⟨⟨1⟩, 1⟩ ∈ c.journal ∧ .stored ⟨⟨1⟩, 1⟩ ∉ c.journal ∧
      c.journal.count (.stored ⟨⟨1⟩, 2⟩) = 1 ∧ c.stored.map (·.taskId) = [⟨1⟩] := by
  obtain ⟨q, hq, hfates, -⟩ := at_most_once 1 (Nat.le_refl 1) depotShop (fun _ => .start ()) []
    depotActions
  refine ⟨q, hq, ?_⟩
  obtain rfl : ⟨1, [], [], 1, []⟩ = q := Except.ok.inj hq
  have hcancelled : .cancelled ⟨⟨1⟩, 1⟩ ∈ ((opening ⟨1, [], [], 1, []⟩ (fun _ => .start ())
      []).run depotShop depotActions).journal := by
    decide +kernel
  have hstored : .stored ⟨⟨1⟩, 2⟩ ∈ ((opening ⟨1, [], [], 1, []⟩ (fun _ => .start ())
      []).run depotShop depotActions).journal := by
    decide +kernel
  refine ⟨hcancelled, ((hfates _).2.2.2.2.1 hcancelled).2, ?_, ?_⟩
  · exact Nat.le_antisymm (hfates _).2.2.2.1 (List.count_pos_iff.mpr hstored)
  · decide +kernel

end Retrofit
