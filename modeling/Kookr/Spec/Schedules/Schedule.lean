import Mathlib.Data.Nat.Notation
import Kookr.Spec.Core.TerminalReceipt

/-! The row of a schedule (`src/core/schedule.ts`) and what the service writes to it
(`src/server/schedule-service.ts`), up to the await of the write of the file. Times are in
milliseconds, a receipt has a number, and the numbers of a usage are of any type. Of the definition
there is the cron expression and what name, playbook and failure policy say about its criticality.
Texts, execution tokens, the provider memory and the fields that only a view reads (`lastRunAt`,
`lastRunStatus`, `lastCronEvaluatedAt`, `updatedAt`) are left out. -/

namespace Kookr.Schedules

open Kookr.Core (TerminationReason)
open Kookr.Launch (TaskStatus)

inductive ScheduleStopReason where
  | triggerLimitReached
  | consecutiveFailures
  deriving DecidableEq

inductive ScheduleHoldSource where
  | operator
  | daemon
  deriving DecidableEq

inductive ScheduleExecutionTrigger where
  | cron
  | manual
  deriving DecidableEq

inductive ScheduleExecutionDecision where
  | cronDue
  | manualRun
  | catchUp
  | manualCatchUp
  | staleCatchUp
  deriving DecidableEq

/-- The reader of the file takes any text for an outcome. -/
inductive ScheduleExecutionOutcome where
  | queued
  | queuedCapacity
  | parkedDependency
  | running
  | completed
  | cancelled
  | deduplicated
  | dispatchFailed
  | skippedActive
  | skippedCapacity
  | skippedDraining
  | skippedServerRestarting
  | skippedSafeMode
  | skippedManual
  | skippedStale
  | skippedCoalesced
  | skippedRelaunchLocked
  | skippedProviderPaused
  | skippedPlaybookDrift
  | skippedProjectAutomation
  | unknownAfterRestart
  | unrecognized (text : String)
  deriving DecidableEq

inductive ScheduleExecutionReasonCode where
  | none
  | capacity
  | dependencyDegraded
  | draining
  | serverRestarting
  | safeMode
  | previousRunActive
  | previousRunPending
  | manualCatchUpRequired
  | missingCwd
  | missingPlaybook
  | validation
  | deduplicated
  | launchError
  | pendingQueueFull
  | staleCatchUp
  | relaunchLeaseHeld
  | agentSubstituted
  | providerBackoff
  | providerPaused
  | authExpired
  | sessionGone
  | reconciledAfterRestart
  | unknownAfterRestart
  | probeQuiet
  | probeBlip
  | playbookCwdLag
  | projectAutomation
  deriving DecidableEq

inductive ExecutionReceiptStatus where
  | reserved
  | accepted
  | terminal
  | unknownAfterRestart
  deriving DecidableEq

/-- `ledgerKeyFor`, of the slot or of the receipt, or the id that an overlap makes up. -/
inductive LedgerKey where
  | slot (trigger : ScheduleExecutionTrigger) (scheduledFor : ℕ)
  | receipt (trigger : ScheduleExecutionTrigger) (receiptId : ℕ)
  | uuid (n : ℕ)
  deriving DecidableEq

structure LedgerTokenUsage (ν : Type) where
  inputTokens : ν
  outputTokens : ν
  cacheReadTokens : ν
  cacheWriteTokens : ν
  costUsd : ν
  deriving DecidableEq

structure ScheduleLedgerEnrichment (ν : Type) where
  tokenUsage : Option (LedgerTokenUsage ν)
  artifacts : Option (List String)
  mergeCommit : Option String
  deriving DecidableEq

structure ScheduleExecutionLedgerEntry (ν : Type) where
  id : LedgerKey
  receiptId : Option ℕ
  trigger : ScheduleExecutionTrigger
  decision : ScheduleExecutionDecision
  scheduledFor : Option ℕ
  evaluatedAt : ℕ
  completedAt : Option ℕ
  outcome : ScheduleExecutionOutcome
  reasonCode : Option ScheduleExecutionReasonCode
  taskId : Option String
  blockingTaskId : Option String
  enrichment : ScheduleLedgerEnrichment ν
  deriving DecidableEq

def MAX_LEDGER_ENTRIES : ℕ := 500

/-- `PENDING_LEDGER_OUTCOMES`. -/
def ScheduleExecutionOutcome.isPending : ScheduleExecutionOutcome → Bool
  | running | queued | queuedCapacity | parkedDependency => true
  | _ => false

/-- `SKIP_POINTER_OUTCOMES`. -/
def ScheduleExecutionOutcome.isSkipPointer : ScheduleExecutionOutcome → Bool
  | skippedActive | skippedCoalesced => true
  | _ => false

variable {ν : Type}

def isPendingLedgerEntry (entry : ScheduleExecutionLedgerEntry ν) : Bool := entry.outcome.isPending

def pruneExecutionLedger (ledger : List (ScheduleExecutionLedgerEntry ν)) : List (ScheduleExecutionLedgerEntry ν) :=
  if ledger.length ≤ MAX_LEDGER_ENTRIES then ledger
  else
    let cutoff := ledger.length - MAX_LEDGER_ENTRIES
    (ledger.take cutoff).filter isPendingLedgerEntry ++ ledger.drop cutoff

def ScheduleLedgerEnrichment.or (enrichment old : ScheduleLedgerEnrichment ν) : ScheduleLedgerEnrichment ν where
  tokenUsage := enrichment.tokenUsage.or old.tokenUsage
  artifacts := enrichment.artifacts.or old.artifacts
  mergeCommit := enrichment.mergeCommit.or old.mergeCommit

/-- A field that the new entry does not have stays. -/
def ScheduleExecutionLedgerEntry.merged (entry old : ScheduleExecutionLedgerEntry ν) : ScheduleExecutionLedgerEntry ν :=
  { entry with
    receiptId := entry.receiptId.or old.receiptId
    scheduledFor := entry.scheduledFor.or old.scheduledFor
    completedAt := entry.completedAt.or old.completedAt
    reasonCode := entry.reasonCode.or old.reasonCode
    taskId := entry.taskId.or old.taskId
    blockingTaskId := entry.blockingTaskId.or old.blockingTaskId
    enrichment := entry.enrichment.or old.enrichment }

/-- The first entry with the id, where there is one. -/
def updateLedgerEntry (entry : ScheduleExecutionLedgerEntry ν) : List (ScheduleExecutionLedgerEntry ν) → List (ScheduleExecutionLedgerEntry ν)
  | [] => []
  | candidate :: rest => if candidate.id = entry.id then entry.merged candidate :: rest else candidate :: updateLedgerEntry entry rest

def upsertLedgerEntry (ledger : List (ScheduleExecutionLedgerEntry ν)) (entry : ScheduleExecutionLedgerEntry ν) :
    List (ScheduleExecutionLedgerEntry ν) :=
  if entry.id ∈ ledger.map ScheduleExecutionLedgerEntry.id then updateLedgerEntry entry ledger
  else pruneExecutionLedger (ledger ++ [entry])

/-- What closes the rows of a task. -/
structure LedgerPatch (ν : Type) where
  outcome : ScheduleExecutionOutcome
  reasonCode : ScheduleExecutionReasonCode
  completedAt : ℕ
  enrichment : ScheduleLedgerEnrichment ν

def LedgerPatch.apply (patch : LedgerPatch ν) (entry : ScheduleExecutionLedgerEntry ν) : ScheduleExecutionLedgerEntry ν :=
  { entry with
    outcome := patch.outcome
    reasonCode := some patch.reasonCode
    completedAt := some patch.completedAt
    enrichment := patch.enrichment.or entry.enrichment }

def updateLedgerEntryForTask (ledger : List (ScheduleExecutionLedgerEntry ν)) (taskId : String) (patch : LedgerPatch ν) :
    List (ScheduleExecutionLedgerEntry ν) :=
  ledger.map fun entry => if entry.taskId = some taskId then patch.apply entry else entry

def closeMidFlightLedgerRowsForTask (ledger : List (ScheduleExecutionLedgerEntry ν)) (taskId : String) (patch : LedgerPatch ν) :
    List (ScheduleExecutionLedgerEntry ν) :=
  ledger.map fun entry => if entry.taskId = some taskId ∧ entry.outcome.isSkipPointer = false then patch.apply entry else entry

structure ScheduleExecutionReceipt where
  id : ℕ
  trigger : ScheduleExecutionTrigger
  decision : ScheduleExecutionDecision
  scheduledFor : Option ℕ
  evaluatedAt : ℕ
  taskId : Option String
  status : ExecutionReceiptStatus
  deriving DecidableEq

structure ScheduleLatestExecutionStatus where
  receiptId : Option ℕ
  scheduledFor : Option ℕ
  evaluatedAt : ℕ
  triggeredAt : Option ℕ
  trigger : ScheduleExecutionTrigger
  taskId : Option String
  outcome : ScheduleExecutionOutcome
  reasonCode : Option ScheduleExecutionReasonCode
  deriving DecidableEq

structure ScheduleDefinition where
  cron : String
  /-- `isRecoveryCriticalSchedule`. -/
  recoveryCritical : Bool
  /-- `isCriticalAllowlistedSchedule`. -/
  criticalAllowlisted : Bool
  deriving DecidableEq

structure Schedule (ν : Type) where
  id : String
  definition : ScheduleDefinition
  enabled : Bool
  operatorHold : Bool
  holdSource : Option ScheduleHoldSource
  heldAt : Option ℕ
  archived : Bool
  maxTriggers : Option ℕ
  remainingTriggers : Option ℕ
  stopReason : Option ScheduleStopReason
  exhaustedAt : Option ℕ
  consecutiveFailures : ℕ
  lastScheduledFor : Option ℕ
  latestExecution : Option ScheduleLatestExecutionStatus
  currentExecution : Option ScheduleExecutionReceipt
  executionLedger : List (ScheduleExecutionLedgerEntry ν)
  createdAt : ℕ
  deriving DecidableEq

def isGenuineTerminationFailure (terminationReason : Option TerminationReason) (serverRestartActive reconciledAfterRestart : Bool) : Bool :=
  match terminationReason with
  | some .timeout | some .oom => true
  | some .unknown => !serverRestartActive && !reconciledAfterRestart
  | some .serverRestart | some .manual | some .supervisor | some .providerTransient | none => false

def isGenuineExecutionFailure (outcome : ScheduleExecutionOutcome) (terminationReason : Option TerminationReason)
    (serverRestartActive reconciledAfterRestart : Bool) : Bool :=
  match outcome with
  | .dispatchFailed => true
  | .cancelled => isGenuineTerminationFailure terminationReason serverRestartActive reconciledAfterRestart
  | _ => false

def nextConsecutiveFailures (previous : ℕ) (completed : Bool) : ℕ := if completed then 0 else previous + 1

def shouldAutoPauseForConsecutiveFailures (consecutiveFailures threshold : ℕ) (currentlyEnabled : Bool) : Bool :=
  currentlyEnabled && decide (0 < threshold) && decide (threshold ≤ consecutiveFailures)

namespace Schedule

variable (s : Schedule ν)

/-- Whether `autoPausePatch` has anything in it. -/
def autoPauses (consecutiveFailures threshold : ℕ) : Bool :=
  !s.archived && shouldAutoPauseForConsecutiveFailures consecutiveFailures threshold s.enabled && !s.definition.recoveryCritical

def autoPaused (now : ℕ) : Schedule ν :=
  { s with
    enabled := false
    stopReason := some .consecutiveFailures
    operatorHold := true
    holdSource := some .daemon
    heldAt := some now }

def isTriggerLimitExhausted : Bool :=
  match s.maxTriggers with
  | none => false
  | some maxTriggers => s.remainingTriggers.getD maxTriggers = 0

def consumeCronTrigger (trigger : ScheduleExecutionTrigger) (shouldConsume : Bool) (now : ℕ) : Schedule ν :=
  match s.maxTriggers with
  | none => s
  | some maxTriggers =>
    if shouldConsume = false ∨ trigger ≠ .cron then s
    else
      let remainingTriggers := s.remainingTriggers.getD maxTriggers - 1
      if remainingTriggers = 0 then
        { s with
          remainingTriggers := some remainingTriggers
          enabled := false
          stopReason := some .triggerLimitReached
          exhaustedAt := s.exhaustedAt.or (some now) }
      else
        { s with
          remainingTriggers := some remainingTriggers
          stopReason := none
          exhaustedAt := none }

/-- A failure pause is not the exhaustion of the budget. -/
def wasAutoExhausted : Bool :=
  if s.stopReason = some .consecutiveFailures then false
  else s.stopReason = some .triggerLimitReached || s.exhaustedAt.isSome

/-- The triggers used up. -/
def consumedTriggers : ℕ :=
  match s.maxTriggers with
  | none => 0
  | some maxTriggers => maxTriggers - s.remainingTriggers.getD maxTriggers

/-- The budget after an edit: absent, cleared, or a new limit. -/
def computeUpdatedTriggerState (nextMaxTriggers : Option (Option ℕ)) (now : ℕ) : Schedule ν :=
  let failurePaused := s.stopReason = some .consecutiveFailures
  match nextMaxTriggers with
  | none => s
  | some none =>
    { s with
      maxTriggers := none
      remainingTriggers := none
      stopReason := if failurePaused then some .consecutiveFailures else none
      exhaustedAt := none
      enabled := s.wasAutoExhausted || s.enabled }
  | some (some maxTriggers) =>
    let remainingTriggers := maxTriggers - s.consumedTriggers
    if remainingTriggers = 0 then
      { s with
        maxTriggers := some maxTriggers
        remainingTriggers := some remainingTriggers
        stopReason := if failurePaused then some .consecutiveFailures else some .triggerLimitReached
        exhaustedAt := s.exhaustedAt.or (some now)
        enabled := false }
    else
      { s with
        maxTriggers := some maxTriggers
        remainingTriggers := some remainingTriggers
        stopReason := if failurePaused then some .consecutiveFailures else none
        exhaustedAt := none
        enabled := s.wasAutoExhausted || s.enabled }

def markCronLimitExhausted (now : ℕ) : Schedule ν :=
  if s.isTriggerLimitExhausted = false then s
  else if s.enabled = false ∧ s.stopReason = some .triggerLimitReached then s
  else
    { s with
      enabled := false
      stopReason := some .triggerLimitReached
      exhaustedAt := s.exhaustedAt.or (some now) }

structure UpdateScheduleDefinitionInput where
  definition : Option ScheduleDefinition
  maxTriggers : Option (Option ℕ)

/-- A limit is a positive integer. -/
def isValidMaxTriggers (maxTriggers : ℕ) : Bool := 0 < maxTriggers

def created (id : String) (definition : ScheduleDefinition) (enabled : Bool) (maxTriggers : Option ℕ) (now : ℕ) : Schedule ν where
  id
  definition
  enabled
  operatorHold := false
  holdSource := none
  heldAt := none
  archived := false
  maxTriggers
  remainingTriggers := maxTriggers
  stopReason := none
  exhaustedAt := none
  consecutiveFailures := 0
  lastScheduledFor := none
  latestExecution := none
  currentExecution := none
  executionLedger := []
  createdAt := now

/-- `none` where the limit is refused. -/
def create (id : String) (definition : ScheduleDefinition) (enabled : Bool) (maxTriggers : Option ℕ) (now : ℕ) : Option (Schedule ν) :=
  if maxTriggers.all isValidMaxTriggers then some (created id definition enabled maxTriggers now) else none

/-- `none` where the limit is refused. -/
def updateDefinition (patch : UpdateScheduleDefinitionInput) (now : ℕ) : Option (Schedule ν) :=
  if patch.maxTriggers.join.all isValidMaxTriggers then
    some { s.computeUpdatedTriggerState patch.maxTriggers now with definition := patch.definition.getD s.definition }
  else none

/-- An operator holds the schedule. -/
def held (now : ℕ) : Schedule ν := { s with operatorHold := true, holdSource := some .operator, heldAt := some now }

def released : Schedule ν := { s with operatorHold := false, holdSource := none, heldAt := none }

/-- `ScheduleStore.setEnabled`. -/
def storeSetEnabled (enabled : Bool) (operatorHold : Option Bool) (now : ℕ) : Schedule ν :=
  let updated := { s with enabled }
  if enabled then updated.released
  else
    match operatorHold with
    | some true => updated.held now
    | some false => updated.released
    | none => if s.definition.criticalAllowlisted then updated.held now else updated

/-- `ScheduleService.setEnabled`, which refuses to resume a schedule without triggers. -/
def setEnabled (enabled : Bool) (operatorHold : Option Bool) (now : ℕ) : Option (Schedule ν) :=
  if enabled && s.isTriggerLimitExhausted then none
  else
    let after := s.storeSetEnabled enabled operatorHold now
    if enabled && (0 < after.consecutiveFailures || after.stopReason = some .consecutiveFailures) then
      some { after with
        consecutiveFailures := 0
        stopReason := if after.stopReason = some .consecutiveFailures then none else after.stopReason }
    else some after

def archive : Schedule ν := { s with archived := true }

def unarchive : Schedule ν := { s with archived := false }

def reserveExecution (receiptId : ℕ) (trigger : ScheduleExecutionTrigger) (decision : ScheduleExecutionDecision)
    (scheduledFor : Option ℕ) (now : ℕ) : Schedule ν :=
  { s with
    lastScheduledFor := if trigger = .cron then scheduledFor.or s.lastScheduledFor else s.lastScheduledFor
    currentExecution := some ⟨receiptId, trigger, decision, scheduledFor, now, none, .reserved⟩ }

/-- `none` where the receipt was rotated out. -/
def requireReceipt (receiptId : ℕ) : Option ScheduleExecutionReceipt :=
  s.currentExecution.filter fun receipt => receipt.id = receiptId

end Schedule

def ScheduleExecutionReceipt.ledgerKey (receipt : ScheduleExecutionReceipt) : LedgerKey :=
  match receipt.scheduledFor with
  | some scheduledFor => .slot receipt.trigger scheduledFor
  | none => .receipt receipt.trigger receipt.id

def ledgerEntryFromReceipt (receipt : ScheduleExecutionReceipt) (outcome : ScheduleExecutionOutcome)
    (reasonCode : ScheduleExecutionReasonCode) (completedAt : ℕ) (taskId blockingTaskId : Option String) :
    ScheduleExecutionLedgerEntry ν where
  id := receipt.ledgerKey
  receiptId := some receipt.id
  trigger := receipt.trigger
  decision := receipt.decision
  scheduledFor := receipt.scheduledFor
  evaluatedAt := receipt.evaluatedAt
  completedAt := some completedAt
  outcome
  reasonCode := some reasonCode
  taskId
  blockingTaskId
  enrichment := ⟨none, none, none⟩

namespace Schedule

variable (s : Schedule ν)

/-- A receipt that was rotated out is made anew from what the fire was reserved for. -/
def acceptedReceipt (reserved : ScheduleExecutionReceipt) (now : ℕ) : ScheduleExecutionReceipt :=
  (s.requireReceipt reserved.id).getD { reserved with evaluatedAt := now, taskId := none, status := .reserved }

def markExecutionAccepted (reserved : ScheduleExecutionReceipt) (taskId : String) (queued dependencyParked : Bool)
    (reasonCode : Option ScheduleExecutionReasonCode) (now : ℕ) : Schedule ν :=
  let receipt := s.acceptedReceipt reserved now
  let outcome := if dependencyParked then .parkedDependency else if queued then .queuedCapacity else .running
  let reasonCode :=
    if dependencyParked then .dependencyDegraded else reasonCode.getD (if queued then .capacity else .none)
  { s.consumeCronTrigger receipt.trigger true now with
    latestExecution := some
      ⟨some receipt.id, receipt.scheduledFor, receipt.evaluatedAt, some now, receipt.trigger, some taskId, outcome, some reasonCode⟩
    executionLedger := upsertLedgerEntry s.executionLedger (ledgerEntryFromReceipt receipt outcome reasonCode now (some taskId) none)
    currentExecution := some { receipt with taskId := some taskId, status := .accepted } }

/-- A row of the ledger for a fire that another one kept out. -/
def recordOverlapSkipped (key : ℕ) (trigger : ScheduleExecutionTrigger) (decision : ScheduleExecutionDecision)
    (scheduledFor : Option ℕ) (now : ℕ) : Schedule ν :=
  { s with
    executionLedger := upsertLedgerEntry s.executionLedger
      { id := .uuid key
        receiptId := s.currentExecution.map ScheduleExecutionReceipt.id
        trigger
        decision
        scheduledFor
        evaluatedAt := now
        completedAt := some now
        outcome := .skippedActive
        reasonCode := some .previousRunActive
        taskId := none
        blockingTaskId := s.currentExecution.bind ScheduleExecutionReceipt.taskId
        enrichment := ⟨none, none, none⟩ } }

/-- A skip keeps the task it was blocked by. The budget is spent by a dispatch that failed only. -/
def markExecutionOutcome (receiptId : ℕ) (outcome : ScheduleExecutionOutcome) (reasonCode : ScheduleExecutionReasonCode)
    (blockingTaskId : Option String) (threshold now : ℕ) : Option (Schedule ν) :=
  (s.requireReceipt receiptId).map fun receipt =>
    let preservedTaskId := receipt.taskId.or blockingTaskId
    let consecutiveFailures :=
      if isGenuineExecutionFailure outcome none false false then nextConsecutiveFailures s.consecutiveFailures false
      else s.consecutiveFailures
    let recorded :=
      { s.consumeCronTrigger receipt.trigger (outcome = .dispatchFailed) now with
        consecutiveFailures
        latestExecution := some
          ⟨some receipt.id, receipt.scheduledFor, receipt.evaluatedAt, none, receipt.trigger, preservedTaskId, outcome, some reasonCode⟩
        executionLedger := upsertLedgerEntry s.executionLedger
          (ledgerEntryFromReceipt receipt outcome reasonCode now preservedTaskId blockingTaskId)
        currentExecution := some
          { receipt with status := if outcome = .unknownAfterRestart then .unknownAfterRestart else .terminal } }
    if s.autoPauses consecutiveFailures threshold then recorded.autoPaused now else recorded

def markProbeCompleted (receiptId : ℕ) (reasonCode : ScheduleExecutionReasonCode) (now : ℕ) : Option (Schedule ν) :=
  (s.requireReceipt receiptId).map fun receipt =>
    { s.consumeCronTrigger receipt.trigger true now with
      consecutiveFailures := nextConsecutiveFailures s.consecutiveFailures true
      latestExecution := some
        ⟨some receipt.id, receipt.scheduledFor, receipt.evaluatedAt, none, receipt.trigger, none, .completed, some reasonCode⟩
      executionLedger := upsertLedgerEntry s.executionLedger (ledgerEntryFromReceipt receipt .completed reasonCode now none none)
      currentExecution := some { receipt with status := .terminal } }

/-- How a task ended. -/
structure TaskTerminal (ν : Type) where
  taskId : String
  completed : Bool
  terminationReason : Option TerminationReason
  serverRestartActive : Bool
  enrichment : ScheduleLedgerEnrichment ν

namespace TaskTerminal

variable (e : TaskTerminal ν)

def outcome : ScheduleExecutionOutcome := if e.completed then .completed else .cancelled

def patch (now : ℕ) : LedgerPatch ν := ⟨e.outcome, .none, now, e.enrichment⟩

/-- What becomes of the failures in a row. -/
def nextFailures (previous : ℕ) : ℕ :=
  if e.completed then nextConsecutiveFailures previous true
  else if isGenuineExecutionFailure e.outcome e.terminationReason e.serverRestartActive false then nextConsecutiveFailures previous false
  else previous

end TaskTerminal

/-- Only the latest task is closed, and a skip that names it stays a skip when it is cancelled. -/
def recordTaskTerminalOutcome (e : TaskTerminal ν) (threshold now : ℕ) : Schedule ν :=
  match s.latestExecution with
  | none => s
  | some latest =>
    if latest.taskId ≠ some e.taskId then s
    else if (s.currentExecution.bind ScheduleExecutionReceipt.taskId).any fun taskId => taskId ≠ e.taskId then s
    else if e.completed = false ∧ latest.outcome.isSkipPointer = true then
      { s with executionLedger := closeMidFlightLedgerRowsForTask s.executionLedger e.taskId (e.patch now) }
    else
      let consecutiveFailures := e.nextFailures s.consecutiveFailures
      let recorded :=
        { s with
          consecutiveFailures
          latestExecution := some { latest with outcome := e.outcome, reasonCode := some .none }
          executionLedger := updateLedgerEntryForTask s.executionLedger e.taskId (e.patch now)
          currentExecution := s.currentExecution.map fun receipt => { receipt with status := .terminal } }
      if s.autoPauses consecutiveFailures threshold then recorded.autoPaused now else recorded

/-- A catch-up that does not fire. -/
def recordCatchUp (outcome : ScheduleExecutionOutcome) (reasonCode : ScheduleExecutionReasonCode)
    (decision : ScheduleExecutionDecision) (scheduledFor now : ℕ) : Schedule ν :=
  { s with
    lastScheduledFor := some now
    latestExecution := some ⟨none, some scheduledFor, now, none, .cron, none, outcome, some reasonCode⟩
    executionLedger := upsertLedgerEntry s.executionLedger
      { id := .slot .cron scheduledFor
        receiptId := none
        trigger := .cron
        decision
        scheduledFor := some scheduledFor
        evaluatedAt := now
        completedAt := some now
        outcome
        reasonCode := some reasonCode
        taskId := none
        blockingTaskId := none
        enrichment := ⟨none, none, none⟩ } }

def recordCatchUpSkipped (scheduledFor now : ℕ) : Schedule ν := s.recordCatchUp .skippedStale .staleCatchUp .staleCatchUp scheduledFor now

def recordCatchUpDeferred (scheduledFor now : ℕ) : Schedule ν :=
  s.recordCatchUp .skippedManual .manualCatchUpRequired .manualCatchUp scheduledFor now

def recordCatchUpLeaseDenied (scheduledFor now : ℕ) : Schedule ν :=
  s.recordCatchUp .skippedRelaunchLocked .relaunchLeaseHeld .catchUp scheduledFor now

def suppressCatchUp (now : ℕ) : Schedule ν := { s with lastScheduledFor := some now }

/-- What the task store has of a task. -/
structure ReconcileTask (ν : Type) where
  status : TaskStatus
  terminationReason : Option TerminationReason
  updatedAt : ℕ
  enrichment : ScheduleLedgerEnrichment ν

/-- A receipt of which no task is known. Only an accepted one may borrow the latest task. -/
def reconcileReceipt (now : ℕ) : Schedule ν :=
  match s.currentExecution with
  | none => s
  | some receipt =>
    let taskId :=
      match receipt.status with
      | .accepted => receipt.taskId.or (s.latestExecution.bind ScheduleLatestExecutionStatus.taskId)
      | _ => receipt.taskId
    if receipt.status ∈ [.reserved, .accepted] ∧ taskId = none then
      { s with
        latestExecution := s.latestExecution.or (some
          ⟨some receipt.id, receipt.scheduledFor, receipt.evaluatedAt, none, receipt.trigger, none, .unknownAfterRestart,
            some .unknownAfterRestart⟩)
        executionLedger := upsertLedgerEntry s.executionLedger
          (ledgerEntryFromReceipt receipt .unknownAfterRestart .unknownAfterRestart now none none)
        currentExecution := some { receipt with status := .unknownAfterRestart } }
    else s

/-- A run that was under way, by what became of its task. -/
def reconcileLatest (getTask : String → Option (ReconcileTask ν)) (serverRestartActive : Bool) (threshold now : ℕ) : Schedule ν :=
  match s.latestExecution with
  | none => s
  | some latest =>
    if latest.outcome.isPending = false then s
    else
      match latest.taskId with
      | none => s
      | some taskId =>
        match getTask taskId with
        | none =>
          { s with
            latestExecution := some { latest with outcome := .unknownAfterRestart, reasonCode := some .unknownAfterRestart }
            executionLedger := updateLedgerEntryForTask s.executionLedger taskId
              ⟨.unknownAfterRestart, .unknownAfterRestart, now, ⟨none, none, none⟩⟩
            currentExecution := s.currentExecution.map fun receipt => { receipt with status := .unknownAfterRestart } }
        | some task =>
          if task.status ∈ [.completed, .cancelled, .terminated] then
            let outcome := if task.status = .completed then .completed else .cancelled
            let terminationReason := if task.status = .terminated then task.terminationReason else none
            let consecutiveFailures :=
              if task.status = .completed then nextConsecutiveFailures s.consecutiveFailures true
              else if isGenuineExecutionFailure outcome terminationReason serverRestartActive true then
                nextConsecutiveFailures s.consecutiveFailures false
              else s.consecutiveFailures
            let recorded :=
              { s with
                consecutiveFailures
                latestExecution := some { latest with outcome, reasonCode := some .reconciledAfterRestart }
                executionLedger := updateLedgerEntryForTask s.executionLedger taskId
                  ⟨outcome, .reconciledAfterRestart, task.updatedAt, task.enrichment⟩
                currentExecution := s.currentExecution.map fun receipt => { receipt with status := .terminal } }
            if s.autoPauses consecutiveFailures threshold then recorded.autoPaused now else recorded
          else s

def reconcileOnStartup (getTask : String → Option (ReconcileTask ν)) (serverRestartActive : Bool) (threshold now : ℕ) : Schedule ν :=
  (s.reconcileReceipt now).reconcileLatest getTask serverRestartActive threshold now

end Schedule

end Kookr.Schedules
