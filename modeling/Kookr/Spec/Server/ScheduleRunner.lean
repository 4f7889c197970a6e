import Mathlib.Data.Nat.Notation
import Kookr.Lib.Exec
import Kookr.Spec.Launch.Slots

/-! The runs of one schedule (`src/server/schedule-runner.ts`, `src/server/schedule-service.ts`, the
file of `src/core/schedule.ts`), one await at a time. Of the row there is what says which task is the
latest one; the ledger, the counters and the watermarks are left out, for nothing here reads them. When
a tick is due, which gate holds a fire back and what the launcher returns is what the event says. A
task that has once stopped blocking the schedule never blocks it again. -/

namespace Kookr.Server

open Kookr.Lib Kookr.Launch

inductive ScheduleExecutionOutcome where
  | queued
  | queuedCapacity
  | parkedDependency
  | running
  | completed
  | cancelled
  | dispatchFailed
  | skippedActive
  | skippedCoalesced
  | skippedDraining
  | skippedServerRestarting
  | skippedSafeMode
  | skippedProjectAutomation
  | skippedManual
  | skippedStale
  | skippedRelaunchLocked
  | skippedProviderPaused
  | skippedPlaybookDrift
  | unknownAfterRestart
  deriving DecidableEq

inductive ExecutionReceiptStatus where
  | reserved
  | accepted
  | terminal
  | unknownAfterRestart
  deriving DecidableEq

structure ScheduleExecutionReceipt where
  id : ℕ
  status : ExecutionReceiptStatus
  taskId : Option String
  deriving DecidableEq

structure ScheduleLatestExecutionStatus where
  taskId : Option String
  outcome : ScheduleExecutionOutcome
  deriving DecidableEq

structure Schedule where
  latestExecution : Option ScheduleLatestExecutionStatus
  currentExecution : Option ScheduleExecutionReceipt
  deriving DecidableEq

namespace Schedule

variable (schedule : Schedule)

/-- The task that blocks the next fire. -/
def blockingTaskId : Option String := schedule.latestExecution.bind ScheduleLatestExecutionStatus.taskId

def reserveExecution (receiptId : ℕ) : Schedule := { schedule with currentExecution := some ⟨receiptId, .reserved, none⟩ }

/-- `none` where the receipt was rotated out. -/
def requireReceipt (receiptId : ℕ) : Option ScheduleExecutionReceipt :=
  schedule.currentExecution.filter fun receipt => receipt.id = receiptId

/-- A catch-up that does not fire. -/
def recordCatchUp (outcome : ScheduleExecutionOutcome) : Schedule := { schedule with latestExecution := some ⟨none, outcome⟩ }

def recordCatchUpSkipped : Schedule := schedule.recordCatchUp .skippedStale

def recordCatchUpDeferred : Schedule := schedule.recordCatchUp .skippedManual

def recordCatchUpLeaseDenied : Schedule := schedule.recordCatchUp .skippedRelaunchLocked

/-- A receipt that was rotated out is made anew. -/
def markExecutionAccepted (receiptId : ℕ) (taskId : String) (queued dependencyParked : Bool) : Schedule :=
  let receipt := (schedule.requireReceipt receiptId).getD ⟨receiptId, .reserved, none⟩
  { latestExecution := some ⟨some taskId, if dependencyParked then .parkedDependency else if queued then .queuedCapacity else .running⟩
    currentExecution := some { receipt with taskId := some taskId, status := .accepted } }

/-- A skip keeps the task it was blocked by. -/
def markExecutionOutcome (receiptId : ℕ) (outcome : ScheduleExecutionOutcome) (blockingTaskId : Option String) : Option Schedule :=
  (schedule.requireReceipt receiptId).map fun receipt =>
    { latestExecution := some ⟨receipt.taskId.or blockingTaskId, outcome⟩
      currentExecution := some
        { receipt with status := if outcome = .unknownAfterRestart then .unknownAfterRestart else .terminal } }

def markProbeCompleted (receiptId : ℕ) : Option Schedule :=
  (schedule.requireReceipt receiptId).map fun receipt =>
    { latestExecution := some ⟨none, .completed⟩
      currentExecution := some { receipt with status := .terminal } }

/-- Only the latest task is closed, and a skip that names it stays a skip when it is cancelled. -/
def recordTaskTerminalOutcome (taskId : String) (completed : Bool) : Schedule :=
  match schedule.latestExecution with
  | none => schedule
  | some latest =>
    if latest.taskId ≠ some taskId then schedule
    else if (schedule.currentExecution.bind ScheduleExecutionReceipt.taskId).any fun other => other ≠ taskId then schedule
    else if !completed && latest.outcome ∈ [.skippedActive, .skippedCoalesced] then schedule
    else
      { latestExecution := some { latest with outcome := if completed then .completed else .cancelled }
        currentExecution := schedule.currentExecution.map fun receipt => { receipt with status := .terminal } }

/-- A receipt of which no task is known. -/
def reconcileReceipt : Schedule :=
  match schedule.currentExecution with
  | none => schedule
  | some receipt =>
    let taskId :=
      match receipt.status with
      | .accepted => receipt.taskId.or schedule.blockingTaskId
      | _ => receipt.taskId
    if receipt.status ∈ [.reserved, .accepted] ∧ taskId = none then
      { latestExecution := schedule.latestExecution.or (some ⟨none, .unknownAfterRestart⟩)
        currentExecution := some { receipt with status := .unknownAfterRestart } }
    else schedule

/-- A run that was under way, by what became of its task. -/
def reconcileLatest (getTask : String → Option TaskStatus) : Schedule :=
  let close (latest : ScheduleLatestExecutionStatus) (outcome : ScheduleExecutionOutcome) (status : ExecutionReceiptStatus) : Schedule :=
    { latestExecution := some { latest with outcome }
      currentExecution := schedule.currentExecution.map fun receipt => { receipt with status } }
  match schedule.latestExecution with
  | none => schedule
  | some latest =>
    if latest.outcome ∈ [.running, .queued, .queuedCapacity, .parkedDependency] then
      match latest.taskId with
      | none => schedule
      | some taskId =>
        match getTask taskId with
        | none => close latest .unknownAfterRestart .unknownAfterRestart
        | some .completed => close latest .completed .terminal
        | some .cancelled | some .terminated => close latest .cancelled .terminal
        | some _ => schedule
    else schedule

def reconcileOnStartup (getTask : String → Option TaskStatus) : Schedule := schedule.reconcileReceipt.reconcileLatest getTask

end Schedule

/-- What a fire that nothing blocks waits for, before it launches. -/
inductive FireAwait where
  | automationProject
  | probe
  | playbookDrift
  | grokAuth
  | resolveLaunch
  deriving DecidableEq

namespace FireAwait

/-- Without a probe the drift comes next. -/
def next : FireAwait → List FireAwait
  | .automationProject => [.probe, .playbookDrift]
  | .probe => [.playbookDrift]
  | .playbookDrift => [.grokAuth]
  | .grokAuth => [.resolveLaunch]
  | .resolveLaunch => []

/-- A loop is armed without `resolveLaunch`. -/
def launches : FireAwait → Bool
  | .grokAuth | .resolveLaunch => true
  | _ => false

/-- How a fire may be held back, once the wait is over. -/
def skips : FireAwait → List ScheduleExecutionOutcome
  | .automationProject => [.skippedSafeMode, .skippedProjectAutomation]
  | .probe => []
  | .playbookDrift => [.skippedPlaybookDrift]
  | .grokAuth => [.skippedRelaunchLocked, .dispatchFailed, .skippedProviderPaused]
  | .resolveLaunch => [.dispatchFailed, .skippedProviderPaused]

end FireAwait

/-- Where an admitted fire waits. A ticket is the number of a write of the file. -/
inductive FireStage where
  | reserving (blockingTaskId : Option String) (receiptId ticket : ℕ)
  | preparing (wait : FireAwait) (receiptId : ℕ)
  | launching (receiptId : ℕ)
  | accepting (taskId : String) (queued dependencyParked : Bool) (receiptId : ℕ) (retried : Bool) (ticket : ℕ)
  | recording (ticket : ℕ)
  deriving DecidableEq

/-- How the fire goes on. -/
inductive FireAnswer where
  | skip (outcome : ScheduleExecutionOutcome)
  | goOn (next : FireAwait)
  | probeQuiet
  | launch
  | launched (taskId : String) (queued dependencyParked : Bool)
  | settled
  | throws

inductive CatchUpMode where
  | auto
  | manual
  | off
  deriving DecidableEq

inductive CatchUpAction where
  | none
  | fire
  | leaseDenied
  | deferred
  | stale
  | suppress
  deriving DecidableEq

/-- What a pass does with a schedule, in each mode. -/
def CatchUpMode.actions : CatchUpMode → List CatchUpAction
  | .auto => [.none, .fire, .leaseDenied, .stale]
  | .manual => [.none, .deferred, .stale]
  | .off => [.none, .suppress]

/-- The rollup is written after the file, and its failure is one of the write. -/
inductive WriteResult where
  | written
  | rollupFailed
  | failed
  deriving DecidableEq

structure ScheduleRunner where
  schedule : Schedule
  /-- What the file has. -/
  file : Schedule
  /-- The writes asked for, and those that are over. -/
  persists : ℕ
  written : ℕ
  writing : Option Schedule
  rejected : List ℕ
  inFlightFires : Bool
  fires : List FireStage
  receipts : ℕ
  /-- The pass that the start of the runner asked for. -/
  catchUp : Option CatchUpMode
  stopped : List String
  /-- The tasks launched and accepted, which nothing of the code reads. -/
  accepted : List String

inductive ScheduleEvent where
  /-- A tick that is due, a `runNow`, a re-fire of the self-heal. -/
  | fire
  | resume (i : ℕ) (answer : FireAnswer)
  | catchUp (action : CatchUpAction)
  | taskTerminal (taskId : String) (completed : Bool)
  /-- A change of the definition, a pause, a limit reached: whatever else rewrites the row. -/
  | edit
  | stopsBlocking (taskId : String)
  | startWrite
  | endWrite (result : WriteResult)
  | restart (mode : CatchUpMode) (getTask : String → Option TaskStatus)

namespace ScheduleRunner

def start (mode : CatchUpMode) : ScheduleRunner where
  schedule := ⟨none, none⟩
  file := ⟨none, none⟩
  persists := 0
  written := 0
  writing := none
  rejected := []
  inFlightFires := false
  fires := []
  receipts := 0
  catchUp := some mode
  stopped := []
  accepted := []

variable (s : ScheduleRunner)

def isTaskBlockingSchedule (taskId : String) : Bool := taskId ∉ s.stopped

/-- `store.replace` and `store.persist`. -/
def replace (schedule : Schedule) : ScheduleRunner := { s with schedule, persists := s.persists + 1 }

/-- A concurrent fire writes a row of the ledger only. The admitted one reads the row and reserves
without an await between. -/
def fire : ScheduleRunner :=
  if s.inFlightFires then s.replace s.schedule
  else
    { s.replace (s.schedule.reserveExecution s.receipts) with
      inFlightFires := true
      receipts := s.receipts + 1
      fires := s.fires ++ [.reserving s.schedule.blockingTaskId s.receipts (s.persists + 1)] }

def goto (i : ℕ) (stage : FireStage) : ScheduleRunner := { s with fires := s.fires.set i stage }

def settle (i : ℕ) : ScheduleRunner := { s with fires := s.fires.eraseIdx i, inFlightFires := false }

/-- A write of the outcome, which throws where the receipt is not there. -/
def record (i : ℕ) (schedule : Option Schedule) : ScheduleRunner :=
  match schedule with
  | none => s.settle i
  | some schedule => (s.replace schedule).goto i (.recording (s.persists + 1))

def accept (i : ℕ) (taskId : String) (queued dependencyParked : Bool) (receiptId : ℕ) (retried : Bool) : ScheduleRunner :=
  { (s.replace (s.schedule.markExecutionAccepted receiptId taskId queued dependencyParked)).goto i
      (.accepting taskId queued dependencyParked receiptId retried (s.persists + 1)) with
    accepted := taskId :: s.accepted }

/-- The reservation is written, or it is not and the fire fails. -/
def afterReserve (i : ℕ) (blockingTaskId : Option String) (receiptId ticket : ℕ) (answer : FireAnswer) : Option ScheduleRunner :=
  if s.written < ticket then none
  else if ticket ∈ s.rejected then
    match answer with
    | .throws => some (s.settle i)
    | _ => none
  else if blockingTaskId.any s.isTaskBlockingSchedule then
    match answer with
    | .skip outcome =>
      if outcome ∈ [.skippedCoalesced, .skippedActive] then
        some (s.record i (s.schedule.markExecutionOutcome receiptId outcome blockingTaskId))
      else none
    | _ => none
  else
    match answer with
    | .skip outcome =>
      if outcome ∈ [.skippedServerRestarting, .skippedDraining] then
        some (s.record i (s.schedule.markExecutionOutcome receiptId outcome none))
      else none
    | .goOn .automationProject => some (s.goto i (.preparing .automationProject receiptId))
    | _ => none

def prepare (i : ℕ) (wait : FireAwait) (receiptId : ℕ) : FireAnswer → Option ScheduleRunner
  | .skip outcome =>
    if outcome ∈ wait.skips then some (s.record i (s.schedule.markExecutionOutcome receiptId outcome none)) else none
  | .goOn next => if next ∈ wait.next then some (s.goto i (.preparing next receiptId)) else none
  | .probeQuiet => if wait = .probe then some (s.record i (s.schedule.markProbeCompleted receiptId)) else none
  | .launch => if wait.launches then some (s.goto i (.launching receiptId)) else none
  | .throws => some (s.settle i)
  | _ => none

/-- `recordFireFailure`. -/
def recordFireFailure (i : ℕ) (receiptId : ℕ) (outcome : ScheduleExecutionOutcome) : Option ScheduleRunner :=
  if outcome ∈ [.dispatchFailed, .skippedProviderPaused] then
    some (s.record i (s.schedule.markExecutionOutcome receiptId outcome none))
  else none

/-- `bindLaunchedTaskReceipt` tries twice. What comes after it for a loop may still fail. -/
def afterAccept (i : ℕ) (taskId : String) (queued dependencyParked : Bool) (receiptId : ℕ) (retried : Bool) (ticket : ℕ)
    (answer : FireAnswer) : Option ScheduleRunner :=
  if s.written < ticket then none
  else if ticket ∈ s.rejected ∧ retried = false then
    match answer with
    | .settled => some (s.accept i taskId queued dependencyParked receiptId true)
    | _ => none
  else
    match answer with
    | .settled => some (s.settle i)
    | .skip outcome => s.recordFireFailure i receiptId outcome
    | _ => none

def resume (i : ℕ) (answer : FireAnswer) : Option ScheduleRunner :=
  s.fires[i]?.bind fun stage =>
    match stage, answer with
    | .reserving blockingTaskId receiptId ticket, answer => s.afterReserve i blockingTaskId receiptId ticket answer
    | .preparing wait receiptId, answer => s.prepare i wait receiptId answer
    | .launching receiptId, .launched taskId queued dependencyParked =>
      some (s.accept i taskId queued dependencyParked receiptId false)
    | .launching receiptId, .skip outcome => s.recordFireFailure i receiptId outcome
    | .accepting taskId queued dependencyParked receiptId retried ticket, answer =>
      s.afterAccept i taskId queued dependencyParked receiptId retried ticket answer
    | .recording ticket, .settled => if s.written < ticket then none else some (s.settle i)
    | _, _ => none

def doCatchUp (action : CatchUpAction) : ScheduleRunner :=
  match action with
  | .none => s
  | .fire => s.fire
  | .leaseDenied => s.replace s.schedule.recordCatchUpLeaseDenied
  | .deferred => s.replace s.schedule.recordCatchUpDeferred
  | .stale => s.replace s.schedule.recordCatchUpSkipped
  | .suppress => s.replace s.schedule

/-- The rename is part of a write that is written. -/
def endWrite (result : WriteResult) : Option ScheduleRunner :=
  s.writing.map fun data =>
    { s with
      file := if result = .failed then s.file else data
      written := s.written + 1
      writing := none
      rejected := if result = .written then s.rejected else (s.written + 1) :: s.rejected }

def step : ScheduleEvent → Option ScheduleRunner
  | .fire => some s.fire
  | .resume i answer => s.resume i answer
  | .catchUp action =>
    s.catchUp.bind fun mode => if action ∈ mode.actions then some { s.doCatchUp action with catchUp := none } else none
  | .taskTerminal taskId completed => some (s.replace (s.schedule.recordTaskTerminalOutcome taskId completed))
  | .edit => some (s.replace s.schedule)
  | .stopsBlocking taskId => some { s with stopped := taskId :: s.stopped }
  -- one write after the other, each of what the row is by then
  | .startWrite => if s.writing = none ∧ s.written < s.persists then some { s with writing := some s.schedule } else none
  | .endWrite result => s.endWrite result
  | .restart mode getTask =>
    if s.fires = [] then
      let schedule := s.file.reconcileOnStartup getTask
      some { start mode with
        schedule
        file := s.file
        persists := if schedule = s.file then 0 else 1
        receipts := s.receipts
        stopped := s.stopped
        accepted := s.accepted }
    else none

end ScheduleRunner

end Kookr.Server
