import Retrofit.Queue.Basic

/-!
# The worker

The worker takes tasks from the queue, one at a time, runs their optimisers on its cache and sends
the results on. Whatever becomes of a task, afterwards the cache is empty and the queue no longer
knows the task.
-/

namespace Retrofit

/-- Takes a payload, fails, or breaks off; it may have a state of its own. -/
abbrev ResultStore (τ : Type) := ResultPayload → StateM τ (Except Fault Unit)

namespace ResultStore

/-- Keeps every payload, in order of arrival. -/
def inMemory : ResultStore (List ResultPayload) := fun payload payloads =>
  (.ok (), payloads ++ [payload])

/-- Fails for the payloads of some tasks. -/
def failingFor {τ : Type} (ids : List TaskId) (store : ResultStore τ) : ResultStore τ :=
  fun payload state =>
    if ids.contains payload.taskId then (.error (.failed "the store rejected the result"), state)
    else store payload state

end ResultStore

/-- What a worker is set up with. -/
structure Workshop (σ γ τ : Type) where
  engine : Engine σ γ
  /-- How the threads of a search evaluate its batches. -/
  pool : Pool σ := engine.oneByOne
  registry : Registry
  store : ResultStore τ
  /-- The number of threads of tasks that leave it open; without it their optimisers choose. -/
  threads : Option Nat
  /-- The time at which results are completed. -/
  now : Timestamp

/-- The queue, the cache and the store while a worker is at work. -/
structure Worker (σ τ : Type) where
  queue : WorkQueue
  cache : Cache σ
  stored : τ

/-- Why a task was given up. -/
inductive TaskFailure where
  | configuration (reason : ConfigurationError)
  | search (reason : SearchError)
  | transmission (fault : Fault)
deriving DecidableEq

/-- What became of a task that was handed out. -/
inductive Outcome where
  | completed
  /-- The task was not started. -/
  | skipped (reason : QueueError)
  | failed (reason : TaskFailure)
deriving DecidableEq

namespace Worker

variable {σ γ τ : Type}

/-- Runs a task's optimiser and sends the result on. -/
def execute [Random.Source γ] (shop : Workshop σ γ τ) (task : Task) (w : Worker σ τ) :
    Except TaskFailure Unit × Worker σ τ :=
  let given := task.optimiser.hyperparameters
  let hyperparameters := match shop.threads with
    | some threads => task.optimiser.id.withDefaultConcurrency given threads
    | none => given
  match shop.registry.build task.optimiser.id hyperparameters with
  | .error reason => (.error (.configuration reason), w)
  | .ok optimiser =>
    match optimiser.runOn shop.engine shop.pool task.request w.cache with
    | (.error reason, cache) => (.error (.search reason), { w with cache })
    | (.ok result, cache) =>
      match shop.store (task.payload result shop.now) w.stored with
      | (.error fault, stored) => (.error (.transmission fault), { w with cache, stored })
      | (.ok (), stored) => (.ok (), { w with cache, stored })

/-- Starts a task unless its state forbids it. -/
def attempt [Random.Source γ] (shop : Workshop σ γ τ) (task : Task) (w : Worker σ τ) :
    Outcome × Worker σ τ :=
  match w.queue.markRunning task.id with
  | .error reason => (.skipped reason, w)
  | .ok queue =>
    match execute shop task { w with queue } with
    | (.ok (), w) => (.completed, w)
    | (.error reason, w) => (.failed reason, w)

/-- Processes a task that was handed out. -/
def process [Random.Source γ] (shop : Workshop σ γ τ) (task : Task) (w : Worker σ τ) :
    Outcome × Worker σ τ :=
  let (outcome, w) := attempt shop task w
  (outcome, { w with cache := w.cache.clear, queue := w.queue.done task.id })

/-- Processes the next task of the queue; without one there is nothing to do. -/
def processNext [Random.Source γ] (shop : Workshop σ γ τ) (w : Worker σ τ) :
    Option (TaskId × Outcome) × Worker σ τ :=
  match w.queue.get with
  | (none, queue) => (none, { w with queue })
  | (some task, queue) =>
    let (outcome, w) := process shop task { w with queue }
    (some (task.id, outcome), w)

/-- Processes tasks until there is none to hand out, at most the given number. -/
def processMany [Random.Source γ] (shop : Workshop σ γ τ) :
    Nat → Worker σ τ → List (TaskId × Outcome) × Worker σ τ
  | 0, w => ([], w)
  | count + 1, w =>
    match processNext shop w with
    | (none, w) => ([], w)
    | (some done, w) =>
      let (others, w) := processMany shop count w
      (done :: others, w)

/-- Processes all tasks that can be handed out. Every task taken leaves fewer of them, so there are
at most as many as wait now, and one more look finds none. -/
def runUntilIdle [Random.Source γ] (shop : Workshop σ γ τ) (w : Worker σ τ) :
    List (TaskId × Outcome) × Worker σ τ :=
  processMany shop (w.queue.pending.length + 1) w

end Worker

end Retrofit
