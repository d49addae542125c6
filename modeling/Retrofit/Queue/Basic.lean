import Retrofit.Optimiser.Registry
import Retrofit.Queue.Entry
import Retrofit.Task.Basic

/-!
# The work queue

A queue keeps track of a bounded number of tasks from their admission until they are done. Running
and cancelled tasks take up a place like queued ones. `WorkQueue.get` hands out the oldest task that
is still queued, once, and drops the cancelled tasks before it; it does not change the state of the
task. A task that finds no free place waits; `WorkQueue.resume` admits the waiting tasks, first come
first served, when places have become free.
-/

namespace Retrofit

/-- A tracked task. -/
structure Slot where
  entry : QueueEntry
  task : Task

structure WorkQueue where
  capacity : Nat
  /-- The tracked tasks in the order of their admission. -/
  slots : List Slot
  /-- The tasks that have not been handed out, the oldest first. -/
  pending : List TaskId
  /-- The number of places that are not taken. -/
  free : Nat
  /-- The tasks that wait for a place, first come first. -/
  waiting : List Task

/-- What happens to a task that is put into the queue. -/
inductive Admission where
  | queued
  | waiting
  | refused (reason : QueueError)
deriving DecidableEq

namespace WorkQueue

/-- The empty queue of a capacity. -/
def ofCapacity (capacity : Nat) : Except ConfigurationError WorkQueue :=
  if capacity = 0 then .error .nonPositiveCapacity else .ok ⟨capacity, [], [], capacity, []⟩

def find? (q : WorkQueue) (id : TaskId) : Option Slot :=
  q.slots.find? (·.entry.taskId = id)

def state? (q : WorkQueue) (id : TaskId) : Option TaskState :=
  (q.find? id).map (·.entry.state)

def size (q : WorkQueue) : Nat :=
  q.slots.length

/-- The entries that are not cancelled, in the order of their admission. -/
def uncancelled (q : WorkQueue) : List QueueEntry :=
  (q.slots.map (·.entry)).filter (·.state ≠ .cancelled)

/-- Forgets a task whatever its state and frees its place. An unknown id changes nothing. -/
def done (q : WorkQueue) (id : TaskId) : WorkQueue :=
  match q.find? id with
  | some _ =>
    { q with
      slots := q.slots.eraseP (·.entry.taskId = id)
      pending := q.pending.filter (· ≠ id)
      free := q.free + 1 }
  | none => q

/-- Gives a free place to a task, unless a task of its id is tracked. -/
def enqueue (q : WorkQueue) (now : Timestamp) (task : Task) : Except QueueError WorkQueue :=
  match q.find? task.id with
  | some _ => .error (.duplicateTask task.id)
  | none =>
    .ok { q with
      slots := q.slots ++ [⟨⟨task.id, task.clientId, .queued, now⟩, task⟩]
      pending := q.pending ++ [task.id]
      free := q.free - 1 }

/-- Queues a task. It waits if there is no free place, or if others wait already. -/
def put (q : WorkQueue) (now : Timestamp) (task : Task) : Admission × WorkQueue :=
  if q.free = 0 ∨ q.waiting ≠ [] then (.waiting, { q with waiting := q.waiting ++ [task] })
  else
    match q.enqueue now task with
    | .ok q => (.queued, q)
    | .error reason => (.refused reason, q)

/-- Lets the given tasks in, one after the other, while there is a free place. A task that is
refused leaves the place to the next one. -/
def resumeAll (now : Timestamp) : List Task → WorkQueue → List (TaskId × Admission) × WorkQueue
  | [], q => ([], q)
  | task :: rest, q =>
    if q.free = 0 then ([], { q with waiting := task :: rest })
    else
      match q.enqueue now task with
      | .ok q =>
        let (others, q) := resumeAll now rest q
        ((task.id, .queued) :: others, q)
      | .error reason =>
        let (others, q) := resumeAll now rest q
        ((task.id, .refused reason) :: others, q)

/-- Lets waiting tasks in; the answer tells what became of those that wait no longer. -/
def resume (q : WorkQueue) (now : Timestamp) : List (TaskId × Admission) × WorkQueue :=
  resumeAll now q.waiting { q with waiting := [] }

/-- Goes through ids that have not been handed out up to the first one that is queued. Cancelled
tasks on the way are forgotten; tasks that run already are passed over. -/
def dispatch : List TaskId → WorkQueue → Option Task × WorkQueue
  | [], q => (none, { q with pending := [] })
  | id :: rest, q =>
    match q.find? id with
    | none => dispatch rest q
    | some slot =>
      match slot.entry.state with
      | .queued => (some slot.task, { q with pending := rest })
      | .cancelled => dispatch rest (q.done id)
      | .running => dispatch rest q

/-- Hands out the oldest task that is queued and has not been handed out before. -/
def get (q : WorkQueue) : Option Task × WorkQueue :=
  dispatch q.pending q

/-- Sets the state of a tracked task. -/
def setState (q : WorkQueue) (id : TaskId) (state : TaskState) : WorkQueue :=
  { q with
    slots := q.slots.map fun s =>
      if s.entry.taskId = id then { s with entry := { s.entry with state } } else s }

/-- Takes a queued task to another state. -/
def leaveQueued (q : WorkQueue) (id : TaskId) (state : TaskState) (ifCancelled : Obstacle) :
    Except QueueError WorkQueue :=
  match q.state? id with
  | none => .error (.invalidTransition id .notTracked)
  | some .queued => .ok (q.setState id state)
  | some .running => .error (.invalidTransition id .alreadyRunning)
  | some .cancelled => .error (.invalidTransition id ifCancelled)

/-- Notes that a queued task has been started. -/
def markRunning (q : WorkQueue) (id : TaskId) : Except QueueError WorkQueue :=
  q.leaveQueued id .running .cancelled

/-- Cancels a task that has not been started. -/
def cancel (q : WorkQueue) (id : TaskId) : Except QueueError WorkQueue :=
  q.leaveQueued id .cancelled .alreadyCancelled

end WorkQueue

end Retrofit
