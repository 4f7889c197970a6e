import Mathlib.Data.Int.Notation
import Mathlib.Data.Nat.Notation
import Kookr.Lib.Exec

/-! The scheduler of task-state saves (`src/server/task-state-save-scheduler.ts`) with the flushes
that go through it. Saves and flushes are known by their numbers. A save takes its snapshot when
it starts; its file is renamed into place, and its promise is settled, at any later time. A flush
that awaits a promise resumes at any time after the promise is settled. Timers are flags, which
their firing clears. -/

namespace Kookr.Server

inductive TaskStateSaveReason where
  | taskEdgesMutation
  | taskRelationMutation
  | periodic
  | flush
  | close
  deriving DecidableEq

inductive SnapshotPolicy where
  | none
  | daily
  | predelete
  deriving DecidableEq

structure FlushTaskStateSaveOptions where
  force : Bool := false
  policy : SnapshotPolicy := .none
  forceFull : Bool := false

structure RetryOptions where
  retryMaxAttempts : ℕ := 6

/-- A call of the saver. -/
structure Save where
  reason : TaskStateSaveReason
  policy : SnapshotPolicy
  forceFull : Bool
  /-- The number of requests made before it started. -/
  covers : ℕ
  renamed : Bool
  /-- Whether it succeeded, once it is settled. -/
  result : Option Bool

/-- Where a flush stands: at which `await`, or how it ended. -/
inductive FlushStage where
  | called
  | awaitingInFlight (save : ℕ)
  | saving (save : ℕ)
  | awaitingOther (save : ℕ)
  | resolved
  | rejected
  /-- Rejected, and the timer that started it has handled that. -/
  | caught
  deriving DecidableEq

structure FlushCall where
  /-- Started by one of the timers, which goes on to schedule a retry when it is rejected. -/
  fromTimer : Bool
  reason : TaskStateSaveReason
  options : FlushTaskStateSaveOptions
  /-- The number of requests made before it. -/
  asked : ℕ
  stage : FlushStage

structure SaveScheduler where
  dirty : Bool
  timer : Bool
  retryTimer : Bool
  retryAttempt : ℕ
  retryStartedAtMs : Option ℤ
  inFlight : Option ℕ
  latestReason : TaskStateSaveReason
  saves : List Save
  calls : List FlushCall
  /-- How many times a save has been requested. -/
  requests : ℕ
  /-- The saves whose snapshots have become the file, in order. -/
  file : List ℕ

namespace SaveScheduler

def new : SaveScheduler := ⟨false, false, false, 0, none, none, .flush, [], [], 0, []⟩

variable (s : SaveScheduler)

def result (save : ℕ) : Option Bool := s.saves[save]?.bind Save.result

def setStage (c : ℕ) (stage : FlushStage) : SaveScheduler :=
  { s with calls := s.calls.modify c fun call => { call with stage } }

def requestSave (reason : TaskStateSaveReason) : SaveScheduler :=
  let s := { s with requests := s.requests + 1, dirty := true, latestReason := reason }
  if s.inFlight.isSome then s
  else if s.timer || s.retryTimer then s
  else { s with timer := true }

def clearPendingTimer : SaveScheduler := { s with timer := false, retryTimer := false }

/-- The head of the loop: `saveNow` up to its `await`. -/
def startSave (c : ℕ) (call : FlushCall) : SaveScheduler :=
  let save : Save := ⟨call.reason, call.options.policy, call.options.forceFull, s.requests, false, none⟩
  let s' : SaveScheduler := { s with dirty := false, saves := s.saves ++ [save], inFlight := some s.saves.length }
  s'.setStage c (.saving s.saves.length)

/-- What follows the wait for the save in flight. -/
def afterInFlight (c : ℕ) (call : FlushCall) : SaveScheduler :=
  if !s.dirty && !call.options.force then s.setStage c .resolved else s.startSave c call

def whileDirty (c : ℕ) (call : FlushCall) : SaveScheduler :=
  if s.dirty then s.startSave c call else s.setStage c .resolved

def flush (fromTimer : Bool) (reason : TaskStateSaveReason) (options : FlushTaskStateSaveOptions) : SaveScheduler :=
  let s := s.clearPendingTimer
  let c := s.calls.length
  let call : FlushCall := ⟨fromTimer, reason, options, s.requests, .called⟩
  let s := { s with calls := s.calls ++ [call] }
  match s.inFlight with
  | some save => s.setStage c (.awaitingInFlight save)
  | none => s.afterInFlight c call

/-- The `catch` and the `finally` around the flush's own save. -/
def saveEnded (save : ℕ) (ok : Bool) : SaveScheduler :=
  { s with
    dirty := if ok then s.dirty else true
    inFlight := if s.inFlight = some save then none else s.inFlight }

/-- The flush goes on after its own save. -/
def afterSave (c : ℕ) (call : FlushCall) (save : ℕ) (ok : Bool) : SaveScheduler :=
  let s := s.saveEnded save ok
  if ok then
    match s.inFlight with
    | some other => s.setStage c (.awaitingOther other)
    | none => s.whileDirty c call
  else s.setStage c .rejected

/-- The flush resumes from the promise it awaits; `none` where there is none, or it is pending. -/
def wake (c : ℕ) : Option SaveScheduler :=
  s.calls[c]?.bind fun call =>
    match call.stage with
    | .awaitingInFlight save =>
      (s.result save).map fun ok => if ok then s.afterInFlight c call else s.setStage c .rejected
    | .saving save => (s.result save).map fun ok => s.afterSave c call save ok
    | .awaitingOther save => (s.result save).map fun ok => if ok then s.whileDirty c call else s.setStage c .rejected
    | _ => none

def scheduleRetry (options : RetryOptions) (now : ℤ) : SaveScheduler :=
  if !s.dirty then s
  else if s.inFlight.isSome || s.timer || s.retryTimer then s
  else
    let s := { s with retryStartedAtMs := s.retryStartedAtMs.or (some now) }
    if s.retryAttempt ≥ options.retryMaxAttempts then s
    else { s with retryAttempt := s.retryAttempt + 1, retryTimer := true }

inductive Event where
  | requestSave (reason : TaskStateSaveReason)
  | flush (reason : TaskStateSaveReason) (options : FlushTaskStateSaveOptions)
  | close
  | timerFires
  | retryTimerFires
  /-- The snapshot of the save replaces the file. -/
  | rename (save : ℕ)
  | settle (save : ℕ) (ok : Bool)
  | wake (c : ℕ)
  /-- The handler of a rejected flush that a timer started. -/
  | catch (c : ℕ) (now : ℤ)

def step (options : RetryOptions) : Event → Option SaveScheduler
  | .requestSave reason => some (s.requestSave reason)
  | .flush reason flushOptions => some (s.flush false reason flushOptions)
  | .close => some (s.flush false .close {})
  | .timerFires => if s.timer then some ({ s with timer := false }.flush true s.latestReason {}) else none
  | .retryTimerFires => if s.retryTimer then some ({ s with retryTimer := false }.flush true s.latestReason {}) else none
  | .rename save =>
    s.saves[save]?.bind fun sv =>
      if sv.result = none ∧ sv.renamed = false then
        some { s with
          saves := s.saves.modify save fun sv => { sv with renamed := true }
          file := s.file ++ [save] }
      else none
  | .settle save ok =>
    s.saves[save]?.bind fun sv =>
      -- a save succeeds after its rename, and may still fail then
      if sv.result = none ∧ (ok = true → sv.renamed = true) then
        let s := { s with saves := s.saves.modify save fun sv => { sv with result := some ok } }
        some (if ok then { s with retryAttempt := 0, retryStartedAtMs := none } else s)
      else none
  | .wake c => s.wake c
  | .catch c now =>
    s.calls[c]?.bind fun call =>
      if call.fromTimer && call.stage = .rejected then some ((s.setStage c .caught).scheduleRetry options now) else none

end SaveScheduler

end Kookr.Server
