import Kookr.Spec.Core.IdempotencyLedger
import Kookr.Spec.Launch.Slots

/-! Launches with an idempotency key, between their awaits (`launchTaskIdempotent` in
`src/server/launch-service.ts`). A call also stands still between two rounds of its loop. What
`launchTaskCore` does is left to the events: the tasks of the store come, change and go at any time,
and a launch returns any task, or throws, with or without a task that it has disposed of. A launch
that has made a task has waited for the file system, and by then the calls that an earlier launch
has woken have gone on; this order of the event loop is all that is asked of the events. -/

namespace Kookr.Launch.Idempotent

open Kookr.Lib Kookr.Core

structure Task where
  status : TaskStatus
  /-- How many sessions it has. -/
  sessions : ℕ
  /-- Whether it was disposed of before its session. -/
  disposition : Bool

def isReplayableTask (task : Task) : Bool :=
  !task.status.isTerminalStatus || task.sessions > 0 || task.disposition

/-- What a promise of the ledger resolves to. -/
inductive IdempotencyWaitOutcome where
  | ok (taskId : String) (duplicate : Bool)
  | released
  deriving DecidableEq

/-- How `launchTaskCore` settles. -/
inductive LaunchOutcome where
  | returned (taskId : String) (duplicate : Bool)
  | threw (disposedTaskId : Option String)

inductive Stage where
  | looping
  /-- Waits for `ledger.clear`. -/
  | clearing
  | waiting (promise : ℕ)
  /-- Its `launchTaskCore` is in flight. -/
  | launching (promise : ℕ) (createdAtMs : Timestamp)
  /-- Waits for `finalize` or `release`; then it returns its own task, or throws. -/
  | settling (task : Option String)
  | replayed (taskId : String) (duplicate : Bool)
  | launched (taskId : String)
  | failed
  deriving DecidableEq

structure Call where
  idempotencyKey : String
  stage : Stage
  deriving DecidableEq

structure State where
  ledger : IdempotencyLedger
  /-- The promises of the reservations; `none` is not resolved. -/
  promises : List (Option IdempotencyWaitOutcome)
  tasks : OrderedMap String Task
  calls : List Call
  /-- `Date.now()`. -/
  now : Timestamp

namespace State

inductive Event where
  | launch (idempotencyKey : String)
  | reserve (p : ℕ)
  | cleared (p : ℕ)
  | woken (p : ℕ)
  | settled (p : ℕ) (outcome : LaunchOutcome)
  | recorded (p : ℕ)
  | configure (ttlMs maxEntries : ℕ)
  | putTask (id : String) (task : Task)
  | deleteTask (id : String)
  | tick (now : Timestamp)

/-- No call has been made yet. -/
def initial (ledger : IdempotencyLedger) (tasks : OrderedMap String Task) (now : Timestamp) : State :=
  ⟨ledger, [], tasks, [], now⟩

variable (runtime : LedgerRuntime) (s : State) (p : ℕ) (key : String)

def goto (stage : Stage) : State := { s with calls := s.calls.set p ⟨key, stage⟩ }

/-- The task is there and can be given back. -/
def replayable (taskId : String) : Bool := (s.tasks.get taskId).any isReplayableTask

/-- One round of the loop, up to its first wait. -/
def reserve : State :=
  let (reservation, ledger) := s.ledger.reserveOrWait s.now s.promises.length key
  match reservation with
  | .replay taskId duplicate =>
    if s.replayable taskId then { s.goto p key (.replayed taskId duplicate) with ledger }
    else { s.goto p key .clearing with ledger := ledger.delete key }
  | .wait promise => { s.goto p key (.waiting promise) with ledger }
  | .own =>
    { s.goto p key (.launching s.promises.length s.now) with ledger, promises := s.promises ++ [none] }

/-- After the wait for another's launch. -/
def woken : IdempotencyWaitOutcome → State
  | .ok taskId duplicate => if s.replayable taskId then s.goto p key (.replayed taskId duplicate) else s.goto p key .looping
  | .released => s.goto p key .looping

def finalize (promise : ℕ) (createdAtMs : Timestamp) (taskId : String) (duplicate : Bool) (task : Option String) : State :=
  { s.goto p key (.settling task) with
    ledger := s.ledger.finalize runtime key ⟨createdAtMs, taskId, duplicate⟩
    promises := s.promises.set promise (some (.ok taskId duplicate)) }

def release (promise : ℕ) : State :=
  { s.goto p key (.settling none) with
    ledger := s.ledger.delete key
    promises := s.promises.set promise (some .released) }

/-- A call with the key that a finalized reservation has woken, and that has not gone on yet. -/
def isWoken (call : Call) : Bool :=
  call.idempotencyKey = key &&
    match call.stage with
    | .waiting promise => s.promises[promise]?.any fun outcome => outcome.any fun outcome => outcome ≠ .released
    | _ => false

/-- The launch has left a task, so the ledger records it. -/
def recordsTask : LaunchOutcome → Option (String × Bool)
  | .returned taskId duplicate => some (taskId, duplicate)
  | .threw disposedTaskId => (disposedTaskId.filter fun id => s.tasks.has id).map fun id => (id, false)

def settled (promise : ℕ) (createdAtMs : Timestamp) (outcome : LaunchOutcome) : Option State :=
  match s.recordsTask outcome with
  | none => some (s.release p key promise)
  | some (taskId, duplicate) =>
    if s.calls.any (s.isWoken key) then none
    else
      let task :=
        match outcome with
        | .returned .. => some taskId
        | .threw _ => none
      some (s.finalize runtime p key promise createdAtMs taskId duplicate task)

def callStep : Stage → Event → Option State
  | .looping, .reserve _ => some (s.reserve p key)
  | .clearing, .cleared _ => some (s.goto p key .looping)
  | .waiting promise, .woken _ => (s.promises[promise]?.join).map (s.woken p key)
  | .launching promise createdAtMs, .settled _ outcome => s.settled runtime p key promise createdAtMs outcome
  | .settling (some taskId), .recorded _ => some (s.goto p key (.launched taskId))
  | .settling none, .recorded _ => some (s.goto p key .failed)
  | _, _ => none

def step (e : Event) : Option State :=
  match e with
  | .launch idempotencyKey => some { s with calls := s.calls ++ [⟨idempotencyKey, .looping⟩] }
  | .configure ttlMs maxEntries => some { s with ledger := (s.ledger.configure runtime s.now ttlMs maxEntries).2 }
  | .putTask id task => some { s with tasks := s.tasks.set id task }
  | .deleteTask id => some { s with tasks := s.tasks.delete id }
  | .tick now => some { s with now }
  | .reserve p | .cleared p | .woken p | .settled p _ | .recorded p =>
    s.calls[p]?.bind fun call => s.callStep runtime p call.idempotencyKey call.stage e

end State

end Kookr.Launch.Idempotent
