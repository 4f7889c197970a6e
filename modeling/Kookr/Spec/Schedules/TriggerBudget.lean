import Kookr.Spec.Schedules.ScheduleService

/-! The fires of one schedule (`src/server/schedule-runner.ts`), each write of the file a wait that may
end in an error, the row in memory being written before it. One fire holds the gate at a time. The limit
of the triggers is never edited; whatever else writes the row does so at any moment. -/

namespace Kookr.Schedules

open Kookr.Lib

variable {ν : Type}

/-- What is written to the row without a receipt. -/
def FireWrite.needsNoReceipt : FireWrite → Bool
  | recordOverlapSkipped .. | recordCatchUpSkipped _ | recordCatchUpDeferred _ | recordCatchUpLeaseDenied _ | suppressCatchUp
  | markCronLimitExhausted => true
  | _ => false

/-- Where the fire that holds the gate waits. -/
inductive BudgetStage where
  | reserving (receipt : ScheduleExecutionReceipt)
  | preparing (receipt : ScheduleExecutionReceipt)
  | accepting (receipt : ScheduleExecutionReceipt) (taskId : String) (queued dependencyParked : Bool)
      (reasonCode : Option ScheduleExecutionReasonCode) (retried : Bool)
  /-- The task is bound, and a loop may still fail. -/
  | bound (receipt : ScheduleExecutionReceipt)
  | recording
  deriving DecidableEq

def BudgetStage.receipt : BudgetStage → Option ScheduleExecutionReceipt
  | reserving receipt | preparing receipt | accepting receipt .. | bound receipt => some receipt
  | recording => none

inductive BudgetEvent (ν : Type) where
  /-- A tick, a catch-up or a `runNow`. -/
  | fire (trigger : ScheduleExecutionTrigger) (decision : ScheduleExecutionDecision) (scheduledFor : Option ℕ) (now : ℕ)
  | reserved (written : Bool)
  | outcome (outcome : ScheduleExecutionOutcome) (reasonCode : ScheduleExecutionReasonCode) (blockingTaskId : Option String) (threshold now : ℕ)
  | probeCompleted (reasonCode : ScheduleExecutionReasonCode) (now : ℕ)
  | launched (taskId : String) (queued dependencyParked : Bool) (reasonCode : Option ScheduleExecutionReasonCode) (now : ℕ)
  | accepted (written : Bool) (now : ℕ)
  | settled
  | other (write : FireWrite) (threshold now : ℕ)
  | taskTerminal (e : Schedule.TaskTerminal ν) (threshold now : ℕ)
  | setEnabled (enabled : Bool) (operatorHold : Option Bool) (now : ℕ)
  | editDefinition (definition : ScheduleDefinition)

/-- What goes on in a fire that has taken the gate. -/
def BudgetEvent.ofFire : BudgetEvent ν → Bool
  | reserved _ | outcome .. | probeCompleted .. | launched .. | accepted .. | settled => true
  | _ => false

structure BudgetRun (ν : Type) where
  schedule : Schedule ν
  /-- The fire that holds the gate. -/
  fire : Option BudgetStage
  receipts : ℕ
  /-- The receipts of the cron fires that ended accepted, failed to dispatch or done by a probe, which
  nothing of the code reads. -/
  counted : List ℕ

namespace BudgetRun

def start (id : String) (definition : ScheduleDefinition) (enabled : Bool) (maxTriggers : Option ℕ) (now : ℕ) : BudgetRun ν :=
  ⟨.created id definition enabled maxTriggers now, none, 0, []⟩

variable (s : BudgetRun ν)

def count (receipt : ScheduleExecutionReceipt) : List ℕ := if receipt.trigger = .cron then s.counted.insert receipt.id else s.counted

/-- A fire that finds the gate taken is recorded and is over. -/
def admitFire (trigger : ScheduleExecutionTrigger) (decision : ScheduleExecutionDecision) (scheduledFor : Option ℕ) (now : ℕ) : BudgetRun ν :=
  match s.fire with
  | some _ =>
    { s with
      schedule := s.schedule.recordOverlapSkipped s.receipts trigger decision scheduledFor now
      receipts := s.receipts + 1 }
  | none =>
    { s with
      schedule := s.schedule.reserveExecution s.receipts trigger decision scheduledFor now
      fire := some (.reserving ⟨s.receipts, trigger, decision, scheduledFor, now, none, .reserved⟩)
      receipts := s.receipts + 1 }

/-- A receipt that is not there throws, and the fire is over. -/
def record (schedule : Option (Schedule ν)) (counted : List ℕ) : BudgetRun ν :=
  match schedule with
  | none => { s with fire := none }
  | some schedule => { s with schedule, fire := some .recording, counted }

def markOutcome (receipt : ScheduleExecutionReceipt) (outcome : ScheduleExecutionOutcome) (reasonCode : ScheduleExecutionReasonCode)
    (blockingTaskId : Option String) (threshold now : ℕ) : BudgetRun ν :=
  s.record (s.schedule.markExecutionOutcome receipt.id outcome reasonCode blockingTaskId threshold now)
    (if outcome = .dispatchFailed then s.count receipt else s.counted)

def accept (receipt : ScheduleExecutionReceipt) (taskId : String) (queued dependencyParked : Bool)
    (reasonCode : Option ScheduleExecutionReasonCode) (retried : Bool) (now : ℕ) : BudgetRun ν :=
  { s with
    schedule := s.schedule.markExecutionAccepted receipt taskId queued dependencyParked reasonCode now
    fire := some (.accepting receipt taskId queued dependencyParked reasonCode retried)
    counted := s.count receipt }

def step : BudgetEvent ν → Option (BudgetRun ν)
  | .fire trigger decision scheduledFor now => some (s.admitFire trigger decision scheduledFor now)
  | .reserved written =>
    match s.fire with
    | some (.reserving receipt) => some { s with fire := if written then some (.preparing receipt) else none }
    | _ => none
  | .outcome outcome reasonCode blockingTaskId threshold now =>
    match s.fire with
    | some (.preparing receipt) | some (.bound receipt) => some (s.markOutcome receipt outcome reasonCode blockingTaskId threshold now)
    | _ => none
  | .probeCompleted reasonCode now =>
    match s.fire with
    | some (.preparing receipt) => some (s.record (s.schedule.markProbeCompleted receipt.id reasonCode now) (s.count receipt))
    | _ => none
  | .launched taskId queued dependencyParked reasonCode now =>
    match s.fire with
    | some (.preparing receipt) => some (s.accept receipt taskId queued dependencyParked reasonCode false now)
    | _ => none
  -- `bindLaunchedTaskReceipt` tries twice
  | .accepted written now =>
    match s.fire with
    | some (.accepting receipt taskId queued dependencyParked reasonCode retried) =>
      if written || retried then some { s with fire := some (.bound receipt) }
      else some (s.accept receipt taskId queued dependencyParked reasonCode true now)
    | _ => none
  | .settled =>
    match s.fire with
    | some (.preparing _) | some (.bound _) | some .recording => some { s with fire := none }
    | _ => none
  | .other write threshold now =>
    if write.needsNoReceipt then (write.apply threshold now s.schedule).map fun schedule => { s with schedule } else none
  | .taskTerminal e threshold now => some { s with schedule := s.schedule.recordTaskTerminalOutcome e threshold now }
  | .setEnabled enabled operatorHold now => (s.schedule.setEnabled enabled operatorHold now).map fun schedule => { s with schedule }
  | .editDefinition definition =>
    (s.schedule.updateDefinition ⟨some definition, none⟩ s.schedule.createdAt).map fun schedule => { s with schedule }

end BudgetRun

end Kookr.Schedules

/-! The fires of one schedule with the tasks they launch (`src/server/schedule-runner.ts`). The launcher
makes the task before it answers, and a task ends once, at any moment after that. What is recorded of a
fire that launches nothing is never mid-flight. -/

namespace Kookr.Schedules

variable {ν : Type}

inductive LaunchEvent (ν : Type) where
  | run (e : BudgetEvent ν)
  | spawn (taskId : String)

structure LaunchRun (ν : Type) where
  run : BudgetRun ν
  /-- The task that the launcher has made for the fire. -/
  launching : Option String
  spawned : List String
  ended : List String

namespace LaunchRun

def start (id : String) (definition : ScheduleDefinition) (enabled : Bool) (maxTriggers : Option ℕ) (now : ℕ) : LaunchRun ν :=
  ⟨.start id definition enabled maxTriggers now, none, [], []⟩

variable (s : LaunchRun ν)

/-- The tasks that have not ended. -/
def live : List String := s.spawned.filter fun taskId => taskId ∉ s.ended

def canRun : BudgetEvent ν → Bool
  | .launched taskId .. => s.launching = some taskId
  | .outcome outcome .. => !outcome.isPending
  | .taskTerminal e .. => e.taskId ∈ s.spawned && e.taskId ∉ s.ended
  | _ => true

def afterRun (e : BudgetEvent ν) (run : BudgetRun ν) : LaunchRun ν :=
  { s with
    run
    launching := if s.run.fire = none then none else s.launching
    ended := match e with
      | .taskTerminal terminal .. => terminal.taskId :: s.ended
      | _ => s.ended }

def spawn (taskId : String) : Option (LaunchRun ν) :=
  match s.run.fire with
  | some (.preparing _) =>
    if s.launching = none ∧ taskId ∉ s.spawned then some { s with launching := some taskId, spawned := taskId :: s.spawned } else none
  | _ => none

def step : LaunchEvent ν → Option (LaunchRun ν)
  | .run e => if s.canRun e then (s.run.step e).map (s.afterRun e) else none
  | .spawn taskId => s.spawn taskId

end LaunchRun

end Kookr.Schedules
