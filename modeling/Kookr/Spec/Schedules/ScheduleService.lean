import Kookr.Spec.Schedules.Schedule
import Kookr.Lib.Exec

/-! The rows of the store (`src/core/schedule.ts`) and the calls of the service that write them
(`src/server/schedule-service.ts`), each up to the await of the write of the file. A call that throws
changes nothing. The threshold of the failure alert is read anew at each call. -/

namespace Kookr.Schedules

open Kookr.Lib

variable {ν : Type}

structure ScheduleRows (ν : Type) where
  rows : OrderedMap String (Schedule ν)
  /-- A row is found under its own id. -/
  keyed : ∀ id schedule, rows.get id = some schedule → schedule.id = id

namespace ScheduleRows

def empty : ScheduleRows ν := ⟨.empty, fun _ _ h => by cases h⟩

variable (s : ScheduleRows ν)

def get (id : String) : Option (Schedule ν) := s.rows.get id

/-- Every row, the archived ones as well. -/
def listAll : List (Schedule ν) := s.rows.values

def list : List (Schedule ν) := s.listAll.filter fun schedule => !schedule.archived

def replace (schedule : Schedule ν) : ScheduleRows ν where
  rows := s.rows.set schedule.id schedule
  keyed := by
    intro id schedule' h
    rw [OrderedMap.get_set] at h
    split at h
    · next heq =>
      cases h
      exact heq
    · exact s.keyed id schedule' h

def delete (id : String) : ScheduleRows ν where
  rows := s.rows.delete id
  keyed := by
    intro id' schedule h
    rw [OrderedMap.get_delete] at h
    split at h
    · cases h
    · exact s.keyed id' schedule h

/-- A call on the row of an id, which may throw. -/
def update (id : String) (f : Schedule ν → Option (Schedule ν)) : ScheduleRows ν :=
  match (s.get id).bind f with
  | none => s
  | some schedule => s.replace schedule

end ScheduleRows

/-- What a fire and a catch-up write to the row. -/
inductive FireWrite where
  | reserveExecution (receiptId : ℕ) (trigger : ScheduleExecutionTrigger) (decision : ScheduleExecutionDecision) (scheduledFor : Option ℕ)
  | markExecutionAccepted (reserved : ScheduleExecutionReceipt) (taskId : String) (queued dependencyParked : Bool)
      (reasonCode : Option ScheduleExecutionReasonCode)
  | markExecutionOutcome (receiptId : ℕ) (outcome : ScheduleExecutionOutcome) (reasonCode : ScheduleExecutionReasonCode)
      (blockingTaskId : Option String)
  | markProbeCompleted (receiptId : ℕ) (reasonCode : ScheduleExecutionReasonCode)
  | recordOverlapSkipped (key : ℕ) (trigger : ScheduleExecutionTrigger) (decision : ScheduleExecutionDecision) (scheduledFor : Option ℕ)
  | recordCatchUpSkipped (scheduledFor : ℕ)
  | recordCatchUpDeferred (scheduledFor : ℕ)
  | recordCatchUpLeaseDenied (scheduledFor : ℕ)
  | suppressCatchUp
  | markCronLimitExhausted
  deriving DecidableEq

def FireWrite.apply (write : FireWrite) (threshold now : ℕ) (s : Schedule ν) : Option (Schedule ν) :=
  match write with
  | reserveExecution receiptId trigger decision scheduledFor => some (s.reserveExecution receiptId trigger decision scheduledFor now)
  | markExecutionAccepted reserved taskId queued dependencyParked reasonCode =>
    some (s.markExecutionAccepted reserved taskId queued dependencyParked reasonCode now)
  | markExecutionOutcome receiptId outcome reasonCode blockingTaskId =>
    s.markExecutionOutcome receiptId outcome reasonCode blockingTaskId threshold now
  | markProbeCompleted receiptId reasonCode => s.markProbeCompleted receiptId reasonCode now
  | recordOverlapSkipped key trigger decision scheduledFor => some (s.recordOverlapSkipped key trigger decision scheduledFor now)
  | recordCatchUpSkipped scheduledFor => some (s.recordCatchUpSkipped scheduledFor now)
  | recordCatchUpDeferred scheduledFor => some (s.recordCatchUpDeferred scheduledFor now)
  | recordCatchUpLeaseDenied scheduledFor => some (s.recordCatchUpLeaseDenied scheduledFor now)
  | suppressCatchUp => some (s.suppressCatchUp now)
  | markCronLimitExhausted => some (s.markCronLimitExhausted now)

namespace ScheduleRows

variable (s : ScheduleRows ν)

def createDefinition (id : String) (definition : ScheduleDefinition) (enabled : Bool) (maxTriggers : Option ℕ) (now : ℕ) : ScheduleRows ν :=
  match Schedule.create id definition enabled maxTriggers now with
  | none => s
  | some schedule => s.replace schedule

def updateDefinition (id : String) (patch : Schedule.UpdateScheduleDefinitionInput) (now : ℕ) : ScheduleRows ν :=
  s.update id fun schedule => schedule.updateDefinition patch now

/-- Whether `setEnabled` goes through. -/
def canSetEnabled (id : String) (enabled : Bool) : Bool := (s.get id).any fun schedule => !(enabled && schedule.isTriggerLimitExhausted)

def setEnabled (id : String) (enabled : Bool) (operatorHold : Option Bool) (now : ℕ) : ScheduleRows ν :=
  s.update id fun schedule => schedule.setEnabled enabled operatorHold now

def archive (id : String) : ScheduleRows ν := s.update id fun schedule => some schedule.archive

def unarchive (id : String) : ScheduleRows ν := s.update id fun schedule => some schedule.unarchive

def fireWrite (id : String) (write : FireWrite) (threshold now : ℕ) : ScheduleRows ν := s.update id (write.apply threshold now)

/-- The first row whose latest task this is. -/
def recordTaskTerminalOutcome (e : Schedule.TaskTerminal ν) (threshold now : ℕ) : ScheduleRows ν :=
  match s.listAll.find? fun schedule => schedule.latestExecution.any fun latest => latest.taskId = some e.taskId with
  | none => s
  | some schedule => s.replace (schedule.recordTaskTerminalOutcome e threshold now)

def enforceFailureAutoPauses (threshold now : ℕ) : ScheduleRows ν :=
  s.list.foldl
    (fun rows schedule =>
      if schedule.autoPauses schedule.consecutiveFailures threshold then rows.replace (schedule.autoPaused now) else rows)
    s

end ScheduleRows

end Kookr.Schedules

/-! The calls of the service, one after the other. -/

namespace Kookr.Schedules

open Kookr.Lib

variable {ν : Type}

inductive ScheduleCall (ν : Type) where
  | createDefinition (id : String) (definition : ScheduleDefinition) (enabled : Bool) (maxTriggers : Option ℕ)
  | updateDefinition (id : String) (patch : Schedule.UpdateScheduleDefinitionInput)
  | setEnabled (id : String) (enabled : Bool) (operatorHold : Option Bool)
  | archive (id : String)
  | unarchive (id : String)
  | fireWrite (id : String) (write : FireWrite)
  | recordTaskTerminalOutcome (e : Schedule.TaskTerminal ν)
  | enforceFailureAutoPauses

structure CallAt (ν : Type) where
  call : ScheduleCall ν
  threshold : ℕ
  now : ℕ

structure ScheduleCalls (ν : Type) where
  schedules : ScheduleRows ν
  /-- The schedules that an operator disabled and has not enabled since, which nothing of the code reads. -/
  disabled : List String

namespace ScheduleCalls

def empty : ScheduleCalls ν := ⟨.empty, []⟩

/-- A `setEnabled` that throws is none. -/
def setEnabled (s : ScheduleCalls ν) (id : String) (enabled : Bool) (operatorHold : Option Bool) (now : ℕ) : ScheduleCalls ν where
  schedules := s.schedules.setEnabled id enabled operatorHold now
  disabled :=
    if s.schedules.canSetEnabled id enabled = false then s.disabled
    else if enabled then s.disabled.filter fun other => other ≠ id
    else id :: s.disabled

/-- A definition gets a new id. -/
def step (s : ScheduleCalls ν) (e : CallAt ν) : Option (ScheduleCalls ν) :=
  match e.call with
  | .createDefinition id definition enabled maxTriggers =>
    if (s.schedules.get id).isSome then none
    else some { s with schedules := s.schedules.createDefinition id definition enabled maxTriggers e.now }
  | .updateDefinition id patch => some { s with schedules := s.schedules.updateDefinition id patch e.now }
  | .setEnabled id enabled operatorHold => some (s.setEnabled id enabled operatorHold e.now)
  | .archive id => some { s with schedules := s.schedules.archive id }
  | .unarchive id => some { s with schedules := s.schedules.unarchive id }
  | .fireWrite id write => some { s with schedules := s.schedules.fireWrite id write e.threshold e.now }
  | .recordTaskTerminalOutcome terminal =>
    some { s with schedules := s.schedules.recordTaskTerminalOutcome terminal e.threshold e.now }
  | .enforceFailureAutoPauses => some { s with schedules := s.schedules.enforceFailureAutoPauses e.threshold e.now }

end ScheduleCalls

end Kookr.Schedules

/-! The passes that lift the holds of schedules that failed too often (`rearmTransientFailureHolds` and
`recoverConsecutiveFailureHolds` of `src/server/schedule-service.ts`), one await at a time, next to the
calls of an operator, the fires and the ends of tasks. A pass reads the schedules once and waits for a
write of the file after each one that it enables. -/

namespace Kookr.Schedules

open Kookr.Lib

variable {ν : Type}

inductive TransientFailureRearmDecision where
  | rearm
  | healthNotOk
  | alreadyEnabled
  | notFailurePause
  | operatorHold
  | notTransientReason
  | failureAfterReady
  deriving DecidableEq

def TRANSIENT_FAILURE_REARM_REASON_CODES : List ScheduleExecutionReasonCode :=
  [.launchError, .sessionGone, .previousRunActive, .previousRunPending]

def isTransientFailureRearmReason (reasonCode : Option ScheduleExecutionReasonCode) : Bool :=
  reasonCode.any fun code => code ∈ TRANSIENT_FAILURE_REARM_REASON_CODES

namespace Schedule

variable (s : Schedule ν)

def latestReasonCode : Option ScheduleExecutionReasonCode := s.latestExecution.bind ScheduleLatestExecutionStatus.reasonCode

/-- The first reason not to wins. -/
def decideTransientFailureRearm (healthOk : Bool) (readyAt : Option ℕ) : TransientFailureRearmDecision :=
  if healthOk = false then .healthNotOk
  else if s.enabled then .alreadyEnabled
  else if s.stopReason ≠ some .consecutiveFailures then .notFailurePause
  else if s.holdSource = some .operator then .operatorHold
  else if isTransientFailureRearmReason s.latestReasonCode = false then .notTransientReason
  else
    match readyAt, s.latestExecution.map ScheduleLatestExecutionStatus.evaluatedAt with
    | some readyAt, some lastEvaluatedAt => if readyAt ≤ lastEvaluatedAt then .failureAfterReady else .rearm
    | _, _ => .failureAfterReady

end Schedule

def holdPredatesWatermark (heldAt watermark : Option ℕ) : Bool :=
  match watermark, heldAt with
  | some watermark, some heldAt => heldAt < watermark
  | _, _ => true

inductive HoldPassKind where
  | rearmTransientFailureHolds (healthOk : Bool) (readyAt : Option ℕ)
  /-- An operator's call. -/
  | recoverConsecutiveFailureHolds (heldBefore : Option ℕ)
  deriving DecidableEq

namespace HoldPassKind

/-- The schedules that a pass enables, by what it has read of them. -/
def selects (kind : HoldPassKind) (s : Schedule ν) : Bool :=
  match kind with
  | rearmTransientFailureHolds healthOk readyAt => s.decideTransientFailureRearm healthOk readyAt = .rearm && !s.isTriggerLimitExhausted
  | recoverConsecutiveFailureHolds heldBefore =>
    !s.enabled && s.stopReason = some .consecutiveFailures && holdPredatesWatermark s.heldAt heldBefore && !s.isTriggerLimitExhausted

/-- The next schedule to enable, and what comes after it. -/
def next (kind : HoldPassKind) : List (Schedule ν) → Option (Schedule ν × List (Schedule ν))
  | [] => none
  | schedule :: rest => if kind.selects schedule then some (schedule, rest) else kind.next rest

def isOperators : HoldPassKind → Bool
  | recoverConsecutiveFailureHolds _ => true
  | rearmTransientFailureHolds .. => false

end HoldPassKind

/-- A pass that waits, with the schedules it has read and not looked at. -/
structure HoldPass (ν : Type) where
  kind : HoldPassKind
  remaining : List (Schedule ν)

structure HoldPasses (ν : Type) where
  schedules : ScheduleRows ν
  passes : List (HoldPass ν)
  /-- The schedules that an operator holds and has not let go since, which nothing of the code reads. -/
  held : List String

inductive HoldEvent (ν : Type) where
  /-- An operator's call. -/
  | setEnabled (id : String) (enabled : Bool) (operatorHold : Option Bool) (now : ℕ)
  | fireWrite (id : String) (write : FireWrite) (threshold now : ℕ)
  | taskTerminal (e : Schedule.TaskTerminal ν) (threshold now : ℕ)
  | enforceFailureAutoPauses (threshold now : ℕ)
  | startPass (kind : HoldPassKind) (now : ℕ)
  | resumePass (i : ℕ) (now : ℕ)

namespace HoldPasses

def start (schedules : ScheduleRows ν) : HoldPasses ν := ⟨schedules, [], []⟩

variable (s : HoldPasses ν)

def release (id : String) : List String := s.held.filter fun other => other ≠ id

/-- What an operator's `setEnabled` makes of the holds. A critical schedule is held where nothing is said. -/
def heldAfter (id : String) (enabled : Bool) (operatorHold : Option Bool) : List String :=
  if s.schedules.canSetEnabled id enabled = false then s.held
  else if enabled || operatorHold = some false then s.release id
  else if operatorHold = some true || (s.schedules.get id).any (fun schedule => schedule.definition.criticalAllowlisted) then id :: s.held
  else s.held

/-- A pass enables its next schedule and waits, or it is over. -/
def advance (kind : HoldPassKind) (rows : List (Schedule ν)) (now : ℕ) : HoldPasses ν × Option (HoldPass ν) :=
  match kind.next rows with
  | none => (s, none)
  | some (schedule, rest) =>
    ({ s with
        schedules := s.schedules.setEnabled schedule.id true none now
        held := if kind.isOperators then s.heldAfter schedule.id true none else s.held },
      some ⟨kind, rest⟩)

def startPass (kind : HoldPassKind) (now : ℕ) : HoldPasses ν :=
  let (s', pass) := s.advance kind s.schedules.list now
  { s' with passes := s.passes ++ pass.toList }

def resumePass (i : ℕ) (now : ℕ) : Option (HoldPasses ν) :=
  s.passes[i]?.map fun pass =>
    let (s', pass) := s.advance pass.kind pass.remaining now
    { s' with passes := s.passes.take i ++ pass.toList ++ s.passes.drop (i + 1) }

def step : HoldEvent ν → Option (HoldPasses ν)
  | .setEnabled id enabled operatorHold now =>
    some { s with
      schedules := s.schedules.setEnabled id enabled operatorHold now
      held := s.heldAfter id enabled operatorHold }
  | .fireWrite id write threshold now => some { s with schedules := s.schedules.fireWrite id write threshold now }
  | .taskTerminal e threshold now => some { s with schedules := s.schedules.recordTaskTerminalOutcome e threshold now }
  | .enforceFailureAutoPauses threshold now => some { s with schedules := s.schedules.enforceFailureAutoPauses threshold now }
  | .startPass kind now => some (s.startPass kind now)
  | .resumePass i now => s.resumePass i now

end HoldPasses

end Kookr.Schedules
