import Retrofit.Exchange.Task
import Retrofit.Queue.Entry

/-!
# Exchange form of queue entries
-/

namespace Retrofit

open Json

def TaskState.toJson (s : TaskState) : Json := .text s.name

def TaskState.ofJson? (j : Json) : Option TaskState :=
  j.toName?.bind ofName?

namespace QueueEntry

def toJson (e : QueueEntry) : Json :=
  .object [
    ("task_id", e.taskId.toJson),
    ("client_id", .text e.clientId),
    ("state", e.state.toJson),
    ("added_at", e.addedAt.toJson)]

def ofJson? (j : Json) : Option QueueEntry := do
  let r ← j.toRecord? ["task_id", "client_id", "state", "added_at"] false
  let taskId ← r.required "task_id" TaskId.ofJson?
  let clientId ← r.required "client_id" toText?
  let state ← r.required "state" TaskState.ofJson?
  let addedAt ← r.required "added_at" Timestamp.ofJson?
  return { taskId, clientId, state, addedAt }

end QueueEntry

end Retrofit
