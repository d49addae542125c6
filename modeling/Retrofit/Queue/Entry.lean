import Retrofit.Task.Id
import Retrofit.Task.Timestamp

/-!
# Entries of the queue

What the queue shows of a task that it keeps track of, and why it refuses a request.
-/

namespace Retrofit

inductive TaskState where
  | queued
  | running
  | cancelled
deriving DecidableEq

namespace TaskState

def all : List TaskState := [queued, running, cancelled]

def name : TaskState → String
  | queued => "QUEUED"
  | running => "RUNNING"
  | cancelled => "CANCELLED"

def ofName? (name : String) : Option TaskState :=
  all.find? (·.name = name)

theorem ofName?_name (s : TaskState) : ofName? s.name = some s := by
  cases s <;> decide

end TaskState

structure QueueEntry where
  taskId : TaskId
  clientId : String
  state : TaskState
  addedAt : Timestamp
deriving DecidableEq

/-- What stands in the way of a change of state. -/
inductive Obstacle where
  | notTracked
  | alreadyRunning
  /-- The task cannot start any more. -/
  | cancelled
  | alreadyCancelled
deriving DecidableEq

def Obstacle.message : Obstacle → String
  | notTracked => "task is not in the queue"
  | alreadyRunning => "task is already running"
  | cancelled => "task has been cancelled"
  | alreadyCancelled => "task has already been cancelled"

inductive QueueError where
  | invalidTransition (id : TaskId) (reason : Obstacle)
  | duplicateTask (id : TaskId)
deriving DecidableEq

def QueueError.message : QueueError → String
  | invalidTransition id reason =>
    "Cannot change the state of task " ++ id.text ++ ": " ++ reason.message
  | duplicateTask id => "Task " ++ id.text ++ " is already queued."

end Retrofit
