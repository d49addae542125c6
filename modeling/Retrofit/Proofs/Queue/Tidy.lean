import Retrofit.Proofs.Queue.Once

/-!
# What is left of a task

In a tidy crew the cache of a worker is empty unless a task was just run on it, and all tasks that
wait, are tracked or are worked on have a property. Every action keeps a crew tidy if the clients
only put tasks with the property (`Crew.Tidy.act`).
-/

namespace Retrofit

open Retrofit.Random

variable {ι σ γ τ : Type}

/-! ## Where tasks come from -/

namespace WorkQueue

variable {P : Task → Prop} {q q' : WorkQueue} {now : Timestamp} {task : Task} {id : TaskId}

/-- All tasks of the queue, tracked or waiting, have a property. -/
structure All (P : Task → Prop) (q : WorkQueue) : Prop where
  slots : ∀ slot ∈ q.slots, P slot.task
  waiting : ∀ task ∈ q.waiting, P task

lemma All.enqueue (h : q.All P) (htask : P task) (hq : q.enqueue now task = .ok q') : q'.All P := by
  unfold WorkQueue.enqueue at hq
  split at hq
  · cases hq
  · cases hq
    refine ⟨fun slot hslot => ?_, h.waiting⟩
    rcases List.mem_append.mp hslot with hold | hnew
    · exact h.slots slot hold
    · rwa [List.mem_singleton.mp hnew]

lemma All.put (h : q.All P) (htask : P task) : (q.put now task).2.All P := by
  unfold WorkQueue.put
  split
  · refine ⟨h.slots, fun other hother => ?_⟩
    rcases List.mem_append.mp hother with hold | hnew
    · exact h.waiting other hold
    · rwa [List.mem_singleton.mp hnew]
  · split
    · rename_i hq
      exact h.enqueue htask hq
    · exact h

lemma All.resumeAll {tasks : List Task} (h : q.All P) (htasks : ∀ task ∈ tasks, P task) :
    (resumeAll now tasks q).2.All P := by
  induction tasks generalizing q with
  | nil => exact h
  | cons task rest ih =>
    have hrest : ∀ task ∈ rest, P task := fun other hother =>
      htasks other (List.mem_cons_of_mem _ hother)
    unfold WorkQueue.resumeAll
    split
    · exact ⟨h.slots, htasks⟩
    · split
      · rename_i hq
        exact ih (h.enqueue (htasks task List.mem_cons_self) hq) hrest
      · exact ih h hrest

lemma All.resume (h : q.All P) : (q.resume now).2.All P :=
  All.resumeAll ⟨h.slots, fun _ hnone => absurd hnone List.not_mem_nil⟩ h.waiting

lemma All.done (h : q.All P) (id : TaskId) : (q.done id).All P := by
  unfold WorkQueue.done
  split
  · exact ⟨fun slot hslot => h.slots slot (List.mem_of_mem_eraseP hslot), h.waiting⟩
  · exact h

lemma All.dispatch (h : q.All P) (ids : List TaskId) :
    (dispatch ids q).2.All P ∧ ∀ task, (dispatch ids q).1 = some task → P task := by
  induction ids generalizing q with
  | nil =>
    unfold WorkQueue.dispatch
    refine ⟨⟨h.slots, h.waiting⟩, fun task htask => ?_⟩
    cases htask
  | cons id rest ih =>
    unfold WorkQueue.dispatch
    split
    · exact ih h
    · rename_i slot hfind
      split
      · refine ⟨⟨h.slots, h.waiting⟩, fun task htask => ?_⟩
        cases htask
        exact h.slots slot (List.mem_of_find?_eq_some hfind)
      · exact ih (h.done id)
      · exact ih h

lemma All.leaveQueued {state : TaskState} {obstacle : Obstacle} (h : q.All P)
    (hq : q.leaveQueued id state obstacle = .ok q') : q'.All P := by
  unfold WorkQueue.leaveQueued at hq
  split at hq <;> cases hq
  refine ⟨fun slot hslot => ?_, h.waiting⟩
  obtain ⟨before, hbefore, rfl⟩ := List.mem_map.mp hslot
  have htask := h.slots before hbefore
  split <;> exact htask

end WorkQueue

/-! ## Any order of actions -/

namespace Crew

/-- Every cache is empty unless its worker is about to finish a task, and all tasks on the way have
a property. -/
structure Tidy (P : Task → Prop) (c : Crew ι σ τ) : Prop where
  caches : ∀ worker, (c.caches worker).known = [] ∨
    ∃ job, c.jobs worker = some job ∧ job.stage = .over
  queue : c.queue.All P
  jobs : ∀ worker job, c.jobs worker = some job → P job.task

section Tidy

variable {P : Task → Prop} {c c' : Crew ι σ τ} {worker : ι} {job : Job}

lemma tidy_opening (capacity : Nat) (worlds : ι → σ) (stored : τ) :
    (opening ⟨capacity, [], [], capacity, []⟩ (fun worker => .start (worlds worker)) stored).Tidy
      P where
  caches _ := Or.inl rfl
  queue := ⟨fun _ hslot => absurd hslot List.not_mem_nil,
    fun _ htask => absurd htask List.not_mem_nil⟩
  jobs _ _ hjob := nomatch hjob

lemma Tidy.known_of_stage (h : c.Tidy P) (hjob : c.jobs worker = some job)
    (hstage : job.stage ≠ .over) : (c.caches worker).known = [] := by
  refine (h.caches worker).resolve_right ?_
  rintro ⟨other, hother, hover⟩
  cases hjob.symm.trans hother
  exact hstage hover

lemma Tidy.known_of_idle (h : c.Tidy P) (hidle : c.jobs worker = none) :
    (c.caches worker).known = [] := by
  refine (h.caches worker).resolve_right ?_
  rintro ⟨job, hjob, -⟩
  cases hidle.symm.trans hjob

lemma Tidy.of_queue (h : c.Tidy P) (hqueue : c'.queue.All P) (hjobs : c'.jobs = c.jobs)
    (hcaches : c'.caches = c.caches) : c'.Tidy P := by
  refine ⟨?_, hqueue, ?_⟩
  · rw [hcaches, hjobs]
    exact h.caches
  · rw [hjobs]
    exact h.jobs

/-- Where one worker acts only its own cache and job have to be looked at. -/
lemma Tidy.of_worker (h : c.Tidy P) (worker : ι) (hqueue : c'.queue.All P)
    (hothers : ∀ other, other ≠ worker →
      c'.caches other = c.caches other ∧ c'.jobs other = c.jobs other)
    (hown : (c'.caches worker).known = [] ∨
      ∃ job, c'.jobs worker = some job ∧ job.stage = .over)
    (htask : ∀ job, c'.jobs worker = some job → P job.task) : c'.Tidy P := by
  refine ⟨fun other => ?_, hqueue, fun other job hjob => ?_⟩
  · by_cases heq : other = worker
    · exact heq ▸ hown
    · rw [(hothers other heq).1, (hothers other heq).2]
      exact h.caches other
  · by_cases heq : other = worker
    · exact htask job (heq ▸ hjob)
    · exact h.jobs other job ((hothers other heq).2 ▸ hjob)

variable [DecidableEq ι]

lemma Tidy.get (h : c.Tidy P) (hidle : c.jobs worker = none) : (c.get worker).Tidy P := by
  have hknown := h.known_of_idle hidle
  obtain ⟨hqueue, hgiven⟩ := h.queue.dispatch c.queue.pending
  unfold Crew.get WorkQueue.get
  generalize WorkQueue.dispatch c.queue.pending c.queue = answer at hqueue hgiven
  obtain ⟨task | task, queue⟩ := answer
  · exact h.of_queue hqueue rfl rfl
  · refine h.of_worker worker hqueue (fun other hother => ?_) (Or.inl hknown) fun job hjob => ?_
    · exact ⟨rfl, Function.update_of_ne hother ..⟩
    · cases (jobs_assign _ _ _).symm.trans hjob
      exact hgiven task rfl

lemma Tidy.start (h : c.Tidy P) (hjob : c.jobs worker = some job) (hstage : job.stage = .inHand) :
    (c.start worker job).Tidy P := by
  have hknown := h.known_of_stage hjob (hstage ▸ by decide)
  have htask := h.jobs worker job hjob
  unfold Crew.start
  cases hmark : c.queue.markRunning job.task.id with
  | ok queue =>
    have hqueue := h.queue.leaveQueued hmark
    refine h.of_worker worker hqueue (fun other hother => ?_) (Or.inl hknown) ?_
    · exact ⟨rfl, Function.update_of_ne hother ..⟩
    · intro job' hjob'
      cases (jobs_assign _ _ _).symm.trans hjob'
      exact htask
  | error reason =>
    refine h.of_worker worker h.queue (fun other hother => ?_) (Or.inl hknown) ?_
    · exact ⟨rfl, Function.update_of_ne hother ..⟩
    · intro job' hjob'
      cases (jobs_assign _ _ _).symm.trans hjob'
      exact htask

lemma Tidy.execute [Source γ] (shop : Workshop σ γ τ) (h : c.Tidy P)
    (hjob : c.jobs worker = some job) : (c.execute shop worker job).Tidy P := by
  have hover := jobs_execute shop c worker job
  refine h.of_worker worker ?_ (fun other hother => ?_) (Or.inr ⟨_, hover, rfl⟩) ?_
  · rw [(of_execute shop c worker job).1]
    exact h.queue
  · unfold Crew.execute
    dsimp only
    split <;> exact ⟨Function.update_of_ne hother .., Function.update_of_ne hother ..⟩
  · intro job' hjob'
    cases hover.symm.trans hjob'
    exact h.jobs worker job hjob

lemma known_finish (c : Crew ι σ τ) (worker : ι) (job : Job) :
    ((c.finish worker job).caches worker).known = [] := by
  have hcache : (c.finish worker job).caches worker = (c.caches worker).clear :=
    Function.update_self ..
  rw [hcache]
  rfl

lemma Tidy.finish (h : c.Tidy P) : (c.finish worker job).Tidy P := by
  refine h.of_worker worker (h.queue.done job.task.id) (fun other hother => ?_) (Or.inl ?_) ?_
  · exact ⟨Function.update_of_ne hother .., Function.update_of_ne hother ..⟩
  · exact known_finish c worker job
  · intro job' hjob'
    cases (jobs_assign _ _ _).symm.trans hjob'

variable [Source γ] {shop : ι → Workshop σ γ τ}

/-- Every action keeps the crew tidy if what is put has the property. -/
theorem Tidy.act (h : c.Tidy P) (action : Action ι)
    (hput : ∀ now task, action = .put now task → P task) : (c.act shop action).Tidy P := by
  cases action with
  | put now task =>
    obtain ⟨hqueue, -, hkept⟩ := of_acceptAll { c with queue := (c.queue.put now task).2 }
      [(task.id, (c.queue.put now task).1)]
    exact h.of_queue (hqueue ▸ h.queue.put (hput now task rfl)) hkept.1 hkept.2
  | resume now =>
    obtain ⟨hqueue, -, hkept⟩ := of_acceptAll { c with queue := (c.queue.resume now).2 }
      (c.queue.resume now).1
    exact h.of_queue (hqueue ▸ h.queue.resume) hkept.1 hkept.2
  | cancel id =>
    unfold Crew.act
    dsimp only
    split
    · rename_i hcancel
      exact h.of_queue (h.queue.leaveQueued hcancel) rfl rfl
    · exact h
  | get worker =>
    unfold Crew.act
    dsimp only
    split
    · rename_i hidle
      exact h.get hidle
    · exact h
  | start worker =>
    change (c.atStage worker .inHand (c.start worker)).Tidy P
    rcases atStage_cases c worker .inHand (c.start worker) with hact | ⟨job, hjob, hstage, hact⟩
    · rwa [hact]
    · rw [hact]
      exact h.start hjob hstage
  | execute worker =>
    change (c.atStage worker .running (c.execute (shop worker) worker)).Tidy P
    rcases atStage_cases c worker .running (c.execute (shop worker) worker) with
      hact | ⟨job, hjob, -, hact⟩
    · rwa [hact]
    · rw [hact]
      exact h.execute (shop worker) hjob
  | finish worker =>
    change (c.atStage worker .over (c.finish worker)).Tidy P
    rcases atStage_cases c worker .over (c.finish worker) with hact | ⟨job, -, -, hact⟩
    · rwa [hact]
    · rw [hact]
      exact h.finish

end Tidy

end Crew

end Retrofit
