import Mathlib.Logic.Function.Basic
import Mathlib.Tactic.Lemma
import Retrofit.Proofs.Queue.Ledger
import Retrofit.Queue.Worker

/-!
# Several workers on one queue

A crew is any number of workers that share a queue and a store. Each works step by step on the task
that it was handed: it starts the task or skips it, runs it and sends the result on, and lets the
queue forget it; all of that is `Worker.process` (`act_process`). The steps of the workers and the
requests of the clients follow each other in any order. A journal records what becomes of every
submission: ids can be submitted again, so a submission is an id with the number of times that the id
has been accepted.
-/

namespace Retrofit

/-- The acceptance of an id for the given time, counted from one. -/
structure Submission where
  id : TaskId
  round : Nat
deriving DecidableEq

inductive Event where
  | accepted (s : Submission)
  | cancelled (s : Submission)
  | handedOut (s : Submission)
  | started (s : Submission)
  /-- A payload of the submission went to the store. -/
  | stored (s : Submission)
  | finished (s : Submission)
deriving DecidableEq

def Event.submission : Event → Submission
  | accepted s | cancelled s | handedOut s | started s | stored s | finished s => s

inductive Stage where
  | inHand
  | running
  | over
deriving DecidableEq

/-- What a worker works on. -/
structure Job where
  task : Task
  submission : Submission
  stage : Stage

structure Crew (ι σ τ : Type) where
  queue : WorkQueue
  /-- The job of every worker that has one. -/
  jobs : ι → Option Job
  caches : ι → Cache σ
  stored : τ
  /-- How often an id has been accepted. -/
  rounds : TaskId → Nat
  /-- The latest event first. -/
  journal : List Event

inductive Action (ι : Type) where
  | put (now : Timestamp) (task : Task)
  /-- Waiting tasks are let in. -/
  | resume (now : Timestamp)
  | cancel (id : TaskId)
  | get (worker : ι)
  | start (worker : ι)
  | execute (worker : ι)
  | finish (worker : ι)

/-- Whether a run came to the point where its result was sent on. -/
def wasSent : Except TaskFailure Unit → Bool
  | .ok () => true
  | .error (.transmission _) => true
  | .error _ => false

namespace Crew

variable {ι σ γ τ : Type} [DecidableEq ι]

/-- The latest submission of an id. -/
def latest (c : Crew ι σ τ) (id : TaskId) : Submission := ⟨id, c.rounds id⟩

def note (c : Crew ι σ τ) (e : Event) : Crew ι σ τ :=
  { c with journal := e :: c.journal }

/-- Counts one more submission of an id. -/
def accept (c : Crew ι σ τ) (id : TaskId) : Crew ι σ τ :=
  let rounds := Function.update c.rounds id (c.rounds id + 1)
  { c with rounds, journal := .accepted ⟨id, c.rounds id + 1⟩ :: c.journal }

/-- Counts the submissions that were queued. -/
def acceptAll (c : Crew ι σ τ) (admissions : List (TaskId × Admission)) : Crew ι σ τ :=
  admissions.foldl (fun c e => if e.2 = .queued then c.accept e.1 else c) c

def assign (c : Crew ι σ τ) (worker : ι) (job : Option Job) : Crew ι σ τ :=
  { c with jobs := Function.update c.jobs worker job }

/-- An idle worker asks the queue for a task. -/
def get (c : Crew ι σ τ) (worker : ι) : Crew ι σ τ :=
  match c.queue.get with
  | (none, queue) => { c with queue }
  | (some task, queue) =>
    ({ c with queue }.assign worker (some ⟨task, c.latest task.id, .inHand⟩)).note
      (.handedOut (c.latest task.id))

/-- A worker starts the task in its hand, unless the state of the task forbids it. -/
def start (c : Crew ι σ τ) (worker : ι) (job : Job) : Crew ι σ τ :=
  match c.queue.markRunning job.task.id with
  | .ok queue =>
    ({ c with queue }.assign worker (some { job with stage := .running })).note
      (.started job.submission)
  | .error _ => c.assign worker (some { job with stage := .over })

/-- A worker runs the task that it has started, and sends the result on. -/
def execute [Random.Source γ] (shop : Workshop σ γ τ) (c : Crew ι σ τ) (worker : ι) (job : Job) :
    Crew ι σ τ :=
  let (result, after) := Worker.execute shop job.task ⟨c.queue, c.caches worker, c.stored⟩
  let c := { c with
    caches := Function.update c.caches worker after.cache
    stored := after.stored }.assign worker (some { job with stage := .over })
  if wasSent result then c.note (.stored job.submission) else c

/-- A worker is done with a task. -/
def finish (c : Crew ι σ τ) (worker : ι) (job : Job) : Crew ι σ τ :=
  ({ c with
    queue := c.queue.done job.task.id
    caches := Function.update c.caches worker (c.caches worker).clear }.assign worker none).note
      (.finished job.submission)

/-- A worker takes a step with its job if that is at the given stage. -/
def atStage (c : Crew ι σ τ) (worker : ι) (stage : Stage) (step : Job → Crew ι σ τ) :
    Crew ι σ τ :=
  match c.jobs worker with
  | some job => if job.stage = stage then step job else c
  | none => c

/-- One action. A worker that is not in the position to act does nothing. -/
def act [Random.Source γ] (shop : ι → Workshop σ γ τ) (c : Crew ι σ τ) : Action ι → Crew ι σ τ
  | .put now task =>
    let (admission, queue) := c.queue.put now task
    { c with queue }.acceptAll [(task.id, admission)]
  | .resume now =>
    let (admissions, queue) := c.queue.resume now
    { c with queue }.acceptAll admissions
  | .cancel id =>
    match c.queue.cancel id with
    | .ok queue => { c with queue }.note (.cancelled (c.latest id))
    | .error _ => c
  | .get worker =>
    match c.jobs worker with
    | none => c.get worker
    | some _ => c
  | .start worker => c.atStage worker .inHand (c.start worker)
  | .execute worker => c.atStage worker .running (c.execute (shop worker) worker)
  | .finish worker => c.atStage worker .over (c.finish worker)

/-- One action after the other. -/
def run [Random.Source γ] (shop : ι → Workshop σ γ τ) (c : Crew ι σ τ)
    (actions : List (Action ι)) : Crew ι σ τ :=
  actions.foldl (act shop) c

/-- All workers are idle, and nothing has happened yet. -/
def opening (queue : WorkQueue) (caches : ι → Cache σ) (stored : τ) : Crew ι σ τ where
  queue := queue
  jobs _ := none
  caches := caches
  stored := stored
  rounds _ := 0
  journal := []

/-- Running a task leaves the queue alone, and the store unless the result was sent on. -/
lemma execute_fst_snd [Random.Source γ] (shop : Workshop σ γ τ) (task : Task) (w : Worker σ τ) :
    (Worker.execute shop task w).2.queue = w.queue ∧
      (wasSent (Worker.execute shop task w).1 = false →
        (Worker.execute shop task w).2.stored = w.stored) := by
  unfold Worker.execute
  dsimp only
  split
  · exact ⟨rfl, fun _ => rfl⟩
  · split
    · exact ⟨rfl, fun _ => rfl⟩
    · split
      · exact ⟨rfl, fun h => Bool.noConfusion h⟩
      · exact ⟨rfl, fun h => Bool.noConfusion h⟩

section Acting

variable [Random.Source γ] {shop : ι → Workshop σ γ τ} {c : Crew ι σ τ} {worker : ι} {job : Job}

omit [DecidableEq ι] in
lemma atStage_of_some {stage : Stage} {step : Job → Crew ι σ τ} (hjob : c.jobs worker = some job) :
    c.atStage worker stage step = if job.stage = stage then step job else c := by
  unfold atStage
  rw [hjob]

omit [DecidableEq ι] in
lemma atStage_cases (c : Crew ι σ τ) (worker : ι) (stage : Stage) (step : Job → Crew ι σ τ) :
    c.atStage worker stage step = c ∨
      ∃ job, c.jobs worker = some job ∧ job.stage = stage ∧
        c.atStage worker stage step = step job := by
  cases hjob : c.jobs worker with
  | none =>
    left
    unfold atStage
    rw [hjob]
  | some job =>
    rw [atStage_of_some hjob]
    by_cases hstage : job.stage = stage
    · exact Or.inr ⟨job, rfl, hstage, if_pos hstage⟩
    · exact Or.inl (if_neg hstage)

lemma act_start (hjob : c.jobs worker = some job) (hstage : job.stage = .inHand) :
    c.act shop (.start worker) = c.start worker job :=
  (atStage_of_some hjob).trans (if_pos hstage)

lemma act_execute (hjob : c.jobs worker = some job) :
    c.act shop (.execute worker) =
      if job.stage = .running then c.execute (shop worker) worker job else c :=
  atStage_of_some hjob

lemma act_finish (hjob : c.jobs worker = some job) (hstage : job.stage = .over) :
    c.act shop (.finish worker) = c.finish worker job :=
  (atStage_of_some hjob).trans (if_pos hstage)

@[simp] lemma jobs_assign (c : Crew ι σ τ) (worker : ι) (job : Option Job) :
    (c.assign worker job).jobs worker = job :=
  Function.update_self ..

lemma jobs_execute (shop : Workshop σ γ τ) (c : Crew ι σ τ) (worker : ι) (job : Job) :
    (c.execute shop worker job).jobs worker = some { job with stage := .over } := by
  unfold execute
  dsimp only
  split <;> exact jobs_assign _ _ _

lemma of_execute (shop : Workshop σ γ τ) (c : Crew ι σ τ) (worker : ι) (job : Job) :
    let after := (Worker.execute shop job.task ⟨c.queue, c.caches worker, c.stored⟩).2
    (c.execute shop worker job).queue = c.queue ∧
      (c.execute shop worker job).caches worker = after.cache ∧
      (c.execute shop worker job).stored = after.stored := by
  unfold execute
  dsimp only
  split <;> exact ⟨rfl, Function.update_self .., rfl⟩

lemma process_of_error {shop : Workshop σ γ τ} {task : Task} {w : Worker σ τ} {reason : QueueError}
    (h : w.queue.markRunning task.id = .error reason) :
    (Worker.process shop task w).2 =
      { w with cache := w.cache.clear, queue := w.queue.done task.id } := by
  unfold Worker.process Worker.attempt
  rw [h]

lemma process_of_ok {shop : Workshop σ γ τ} {task : Task} {w : Worker σ τ} {queue : WorkQueue}
    (h : w.queue.markRunning task.id = .ok queue) :
    (Worker.process shop task w).2 =
      { cache := (Worker.execute shop task { w with queue }).2.cache.clear
        queue := queue.done task.id
        stored := (Worker.execute shop task { w with queue }).2.stored } := by
  have hkept := (execute_fst_snd shop task { w with queue }).1
  unfold Worker.process Worker.attempt
  rw [h]
  dsimp only
  split
  · rename_i heq
    rw [heq] at hkept ⊢
    rw [hkept]
  · rename_i heq
    rw [heq] at hkept ⊢
    rw [hkept]

/-- Starting, running and finishing the task in hand, one after the other, is processing it. -/
theorem act_process (hjob : c.jobs worker = some job) (hstage : job.stage = .inHand) :
    let after := c.run shop [.start worker, .execute worker, .finish worker]
    let processed :=
      (Worker.process (shop worker) job.task ⟨c.queue, c.caches worker, c.stored⟩).2
    after.jobs worker = none ∧ after.queue = processed.queue ∧
      after.caches worker = processed.cache ∧ after.stored = processed.stored := by
  dsimp only
  unfold run
  rw [List.foldl_cons, List.foldl_cons, List.foldl_cons, List.foldl_nil, act_start hjob hstage]
  unfold start
  cases hmark : c.queue.markRunning job.task.id with
  | error reason =>
    dsimp only
    rw [act_execute (jobs_assign _ _ _), if_neg (by simp), act_finish (jobs_assign _ _ _) rfl,
      process_of_error hmark]
    exact ⟨jobs_assign _ _ _, rfl, Function.update_self .., rfl⟩
  | ok queue =>
    have hrunning : (({ c with queue }.assign worker (some { job with stage := .running })).note
        (.started job.submission)).jobs worker = some { job with stage := .running } :=
      jobs_assign _ _ _
    dsimp only
    rw [act_execute hrunning, if_pos rfl, act_finish (jobs_execute _ _ _ _) rfl,
      process_of_ok hmark]
    obtain ⟨hqueue, hcache, hstored⟩ := of_execute (shop worker) (({ c with queue }.assign worker
      (some { job with stage := .running })).note (.started job.submission)) worker
        { job with stage := .running }
    refine ⟨jobs_assign _ _ _, ?_, (Function.update_self ..).trans ?_, hstored⟩
    · exact congrArg (WorkQueue.done · job.task.id) hqueue
    · exact congrArg Cache.clear hcache

end Acting

end Crew

end Retrofit
