import Retrofit.Queue.Basic

/-!
# The ledger

A ledger is one list of records in the order of submission, each with the task, its state and whether
it has been handed out. It is what the queue, which keeps slots, pending ids and free places apart,
looks like from outside: `converse` asks either of them the same calls.
-/

namespace Retrofit

/-- What the ledger knows of a tracked task. -/
structure Record where
  task : Task
  state : TaskState
  handedOut : Bool
  addedAt : Timestamp

namespace Record

def slot (r : Record) : Slot :=
  ⟨⟨r.task.id, r.task.clientId, r.state, r.addedAt⟩, r.task⟩

/-- The record is queued and was not handed out. -/
def ready (r : Record) : Bool :=
  r.state = .queued && !r.handedOut

/-- The record was cancelled before it was handed out. -/
def lapsed (r : Record) : Bool :=
  r.state = .cancelled && !r.handedOut

end Record

structure Ledger where
  capacity : Nat
  /-- In the order of submission. -/
  records : List Record
  /-- The tasks that wait to be tracked, first come first. -/
  waiting : List Task

namespace Ledger

def find? (l : Ledger) (id : TaskId) : Option Record :=
  l.records.find? (·.task.id = id)

def state? (l : Ledger) (id : TaskId) : Option TaskState :=
  (l.find? id).map (·.state)

/-- Appends a queued record, unless the id is tracked. -/
def enrol (l : Ledger) (now : Timestamp) (task : Task) : Admission × Ledger :=
  match l.find? task.id with
  | some _ => (.refused (.duplicateTask task.id), l)
  | none => (.queued, { l with records := l.records ++ [⟨task, .queued, false, now⟩] })

/-- Admits a task while fewer than `capacity` records are tracked and no other task waits. -/
def put (l : Ledger) (now : Timestamp) (task : Task) : Admission × Ledger :=
  if l.capacity ≤ l.records.length ∨ l.waiting ≠ [] then
    (.waiting, { l with waiting := l.waiting ++ [task] })
  else l.enrol now task

/-- Admits tasks in order while fewer than `capacity` records are tracked. -/
def enrolAll (now : Timestamp) : List Task → Ledger → List (TaskId × Admission) × Ledger
  | [], l => ([], l)
  | task :: rest, l =>
    if l.capacity ≤ l.records.length then ([], { l with waiting := task :: rest })
    else
      let (admission, l) := l.enrol now task
      let (others, l) := enrolAll now rest l
      ((task.id, admission) :: others, l)

def resume (l : Ledger) (now : Timestamp) : List (TaskId × Admission) × Ledger :=
  enrolAll now l.waiting { l with waiting := [] }

/-- Hands out the earliest ready record and deletes the lapsed records before it; if there is none
all lapsed records are deleted. -/
def take (records : List Record) : Option Task × List Record :=
  let kept := (records.takeWhile (!·.ready)).filter (!·.lapsed)
  match records.dropWhile (!·.ready) with
  | [] => (none, kept)
  | r :: rest => (some r.task, kept ++ { r with handedOut := true } :: rest)

def get (l : Ledger) : Option Task × Ledger :=
  ((take l.records).1, { l with records := (take l.records).2 })

def setState (l : Ledger) (id : TaskId) (state : TaskState) : Ledger :=
  { l with records := l.records.map fun r => if r.task.id = id then { r with state } else r }

/-- Moves a queued record to another state. -/
def leaveQueued (l : Ledger) (id : TaskId) (state : TaskState) (ifCancelled : Obstacle) :
    Except QueueError Ledger :=
  match l.state? id with
  | none => .error (.invalidTransition id .notTracked)
  | some .queued => .ok (l.setState id state)
  | some .running => .error (.invalidTransition id .alreadyRunning)
  | some .cancelled => .error (.invalidTransition id ifCancelled)

/-- Deletes the record of a task. -/
def done (l : Ledger) (id : TaskId) : Ledger :=
  { l with records := l.records.filter (·.task.id ≠ id) }

end Ledger

/-! ## Calls -/

inductive Call where
  | put (task : Task)
  /-- Waiting tasks are let in. -/
  | resume
  /-- Without a task to return the caller waits; when it is woken it asks again. -/
  | get
  | markRunning (id : TaskId)
  | cancel (id : TaskId)
  | done (id : TaskId)
  | uncancelled
  | size
  | state (id : TaskId)

/-- What a call shows to its caller. -/
inductive Reply where
  | admission (a : Admission)
  | resumed (admissions : List (TaskId × Admission))
  | task (task : Option Task)
  | moved (result : Except QueueError Unit)
  | done
  | entries (entries : List QueueEntry)
  | size (n : Nat)
  | state (state : Option TaskState)

/-- The reply to a request to move a task, and what it leaves. -/
def Reply.ofMove {σ : Type} (before : σ) : Except QueueError σ → Reply × σ
  | .ok after => (.moved (.ok ()), after)
  | .error reason => (.moved (.error reason), before)

def WorkQueue.answer (now : Timestamp) (q : WorkQueue) : Call → Reply × WorkQueue
  | .put task => (.admission (q.put now task).1, (q.put now task).2)
  | .resume => (.resumed (q.resume now).1, (q.resume now).2)
  | .get => (.task q.get.1, q.get.2)
  | .markRunning id => Reply.ofMove q (q.markRunning id)
  | .cancel id => Reply.ofMove q (q.cancel id)
  | .done id => (.done, q.done id)
  | .uncancelled => (.entries q.uncancelled, q)
  | .size => (.size q.size, q)
  | .state id => (.state (q.state? id), q)

def Ledger.answer (now : Timestamp) (l : Ledger) : Call → Reply × Ledger
  | .put task => (.admission (l.put now task).1, (l.put now task).2)
  | .resume => (.resumed (l.resume now).1, (l.resume now).2)
  | .get => (.task l.get.1, l.get.2)
  | .markRunning id => Reply.ofMove l (l.leaveQueued id .running .cancelled)
  | .cancel id => Reply.ofMove l (l.leaveQueued id .cancelled .alreadyCancelled)
  | .done id => (.done, l.done id)
  | .uncancelled => (.entries ((l.records.filter (·.state ≠ .cancelled)).map (·.slot.entry)), l)
  | .size => (.size l.records.length, l)
  | .state id => (.state (l.state? id), l)

/-- The replies to calls made at some times, and the state after them. -/
def converse {σ : Type} (answer : Timestamp → σ → Call → Reply × σ) :
    List (Timestamp × Call) → σ → List Reply × σ
  | [], s => ([], s)
  | (now, call) :: rest, s =>
    let (reply, s) := answer now s call
    let (replies, s) := converse answer rest s
    (reply :: replies, s)

end Retrofit
