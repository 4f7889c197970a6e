import Kookr.Sanity.Schedules.RowChanges
import Kookr.Spec.Schedules.TriggerBudget

/-! The steps of the fires of one schedule by what they write, and the receipt of the fire that holds the
gate, which is the one in the row. -/

namespace Kookr.Schedules

variable {ν : Type}

namespace Schedule

variable {s s' : Schedule ν} {c : ScheduleExecutionReceipt} {receipt : ScheduleExecutionReceipt}

/-- What a write without a receipt does to the receipt and the ledger: nothing, or a settled row that is
no receipt's. -/
inductive FreeWrite (s s' : Schedule ν) : Prop where
  | keeps (receipt : s'.currentExecution = s.currentExecution) (ledger : s'.executionLedger = s.executionLedger)
  | appends (entry : ScheduleExecutionLedgerEntry ν) (free : entry.receiptId = none ∨ ∃ n, entry.id = .uuid n)
      (settled : entry.outcome.isPending = false) (receipt : s'.currentExecution = s.currentExecution)
      (ledger : s'.executionLedger = upsertLedgerEntry s.executionLedger entry)

theorem FreeWrite.recordOverlapSkipped (key : ℕ) (trigger : ScheduleExecutionTrigger) (decision : ScheduleExecutionDecision)
    (scheduledFor : Option ℕ) (now : ℕ) : FreeWrite s (s.recordOverlapSkipped key trigger decision scheduledFor now) :=
  .appends _ (.inr ⟨key, rfl⟩) rfl rfl rfl

theorem FreeWrite.of_apply {write : FireWrite} {threshold now : ℕ} (hfree : write.needsNoReceipt = true)
    (h : write.apply threshold now s = some s') : FreeWrite s s' := by
  cases write with
  | recordOverlapSkipped key trigger decision scheduledFor =>
    cases h
    exact .recordOverlapSkipped key trigger decision scheduledFor now
  | recordCatchUpSkipped | recordCatchUpDeferred | recordCatchUpLeaseDenied =>
    cases h
    exact .appends _ (.inl rfl) rfl rfl rfl
  | suppressCatchUp =>
    cases h
    exact .keeps rfl rfl
  | markCronLimitExhausted =>
    cases h
    unfold Schedule.markCronLimitExhausted
    split_ifs <;> exact .keeps rfl rfl
  | reserveExecution | markExecutionAccepted | markExecutionOutcome | markProbeCompleted => cases hfree

theorem FreeWrite.setEnabled {enabled : Bool} {operatorHold : Option Bool} {now : ℕ} (h : s.setEnabled enabled operatorHold now = some s') :
    FreeWrite s s' := by
  cases enabled with
  | false =>
    obtain ⟨hold, source, heldAt, hfalse⟩ := setEnabled_false (s := s) operatorHold now
    obtain rfl := Option.some.inj (hfalse.symm.trans h)
    exact .keeps rfl rfl
  | true =>
    rw [setEnabled_true, Option.ite_none_left_eq_some, Option.some.injEq] at h
    obtain ⟨-, rfl⟩ := h
    exact .keeps rfl rfl

theorem FreeWrite.editDefinition {definition : ScheduleDefinition} {now : ℕ} (h : s.updateDefinition ⟨some definition, none⟩ now = some s') :
    FreeWrite s s' := by
  cases h
  exact .keeps rfl rfl

/-- What a write for the receipt `c` does to it and to the ledger. -/
structure OwnWrite (c : ScheduleExecutionReceipt) (entry : ScheduleExecutionLedgerEntry ν) (s s' : Schedule ν) : Prop where
  id : entry.id = c.ledgerKey
  receiptId : entry.receiptId = some c.id
  ledger : s'.executionLedger = upsertLedgerEntry s.executionLedger entry
  receipt : ∃ taskId status, status ≠ .reserved ∧ s'.currentExecution = some { c with taskId, status }

section

variable (hc : s.currentExecution = some c)
include hc

theorem requireReceipt_of_id {receiptId : ℕ} (hid : c.id = receiptId) : s.requireReceipt receiptId = some c := by
  simp [requireReceipt, hc, hid]

theorem ownWrite_markExecutionAccepted (hid : c.id = receipt.id) (taskId : String)
    (queued dependencyParked : Bool) (reasonCode : Option ScheduleExecutionReasonCode) (now : ℕ) :
    ∃ entry, OwnWrite c entry s (s.markExecutionAccepted receipt taskId queued dependencyParked reasonCode now) ∧
      entry.taskId = some taskId := by
  have haccepted : s.acceptedReceipt receipt now = c := by rw [acceptedReceipt, requireReceipt_of_id hc hid, Option.getD_some]
  unfold markExecutionAccepted
  rw [haccepted]
  refine ⟨_, ⟨?_, ?_, rfl, ⟨_, _, by simp, rfl⟩⟩, ?_⟩ <;> rfl

theorem ownWrite_markExecutionOutcome {outcome : ScheduleExecutionOutcome} {reasonCode : ScheduleExecutionReasonCode}
    {blockingTaskId : Option String} {threshold now : ℕ} (hid : c.id = receipt.id)
    (h : s.markExecutionOutcome receipt.id outcome reasonCode blockingTaskId threshold now = some s') :
    ∃ entry, OwnWrite c entry s s' ∧ entry.outcome = outcome := by
  simp only [markExecutionOutcome, requireReceipt_of_id hc hid, Option.map_some, Option.some.injEq] at h
  subst h
  refine ⟨ledgerEntryFromReceipt c outcome reasonCode now (c.taskId.or blockingTaskId) blockingTaskId, ?_, rfl⟩
  have hstatus : (if outcome = .unknownAfterRestart then ExecutionReceiptStatus.unknownAfterRestart else .terminal) ≠ .reserved := by
    split_ifs <;> simp
  refine ⟨rfl, rfl, ?_, c.taskId, _, hstatus, ?_⟩ <;> split_ifs <;> rfl

theorem ownWrite_markProbeCompleted {reasonCode : ScheduleExecutionReasonCode} {now : ℕ}
    (hid : c.id = receipt.id) (h : s.markProbeCompleted receipt.id reasonCode now = some s') :
    ∃ entry, OwnWrite c entry s s' ∧ entry.outcome = .completed := by
  simp only [markProbeCompleted, requireReceipt_of_id hc hid, Option.map_some, Option.some.injEq] at h
  subst h
  exact ⟨ledgerEntryFromReceipt c .completed reasonCode now none none, ⟨rfl, rfl, rfl, ⟨_, _, by simp, rfl⟩⟩, rfl⟩

end

/-- A task that is the latest one, and no other than the one of the receipt. -/
structure Finds (s : Schedule ν) (taskId : String) : Prop where
  latest : s.latestExecution.bind ScheduleLatestExecutionStatus.taskId = some taskId
  receipt : ∀ receiptTaskId ∈ s.currentExecution.bind ScheduleExecutionReceipt.taskId, receiptTaskId = taskId

instance Finds.decidable (s : Schedule ν) (taskId : String) : Decidable (s.Finds taskId) :=
  decidable_of_iff (s.latestExecution.bind ScheduleLatestExecutionStatus.taskId = some taskId ∧
      ∀ receiptTaskId ∈ s.currentExecution.bind ScheduleExecutionReceipt.taskId, receiptTaskId = taskId)
    ⟨fun h => ⟨h.1, h.2⟩, fun h => ⟨h.latest, h.receipt⟩⟩

/-- A skip stays when the task that it names is cancelled. -/
def keepsSkip (s : Schedule ν) (e : TaskTerminal ν) : Bool :=
  e.completed = false && s.latestExecution.any fun latest => latest.outcome.isSkipPointer

/-- What the end of a task does to the receipt and the ledger. -/
inductive TerminalWrite (e : TaskTerminal ν) (now : ℕ) (s s' : Schedule ν) : Prop where
  | drops (lost : ¬s.Finds e.taskId) (same : s' = s)
  | spares (found : s.Finds e.taskId) (skip : s.keepsSkip e = true) (receipt : s'.currentExecution = s.currentExecution)
      (ledger : s'.executionLedger = closeMidFlightLedgerRowsForTask s.executionLedger e.taskId (e.patch now))
  | closes (found : s.Finds e.taskId) (skip : s.keepsSkip e = false)
      (receipt : s'.currentExecution = s.currentExecution.map fun receipt => { receipt with status := .terminal })
      (ledger : s'.executionLedger = updateLedgerEntryForTask s.executionLedger e.taskId (e.patch now))

theorem terminalWrite (e : TaskTerminal ν) (threshold now : ℕ) : TerminalWrite e now s (s.recordTaskTerminalOutcome e threshold now) := by
  unfold Schedule.recordTaskTerminalOutcome
  split
  · next hnone => exact .drops (fun h => by simpa [hnone] using h.latest) rfl
  · next latest hlatest =>
    split
    · next hother => exact .drops (fun h => hother (by simpa [hlatest] using h.latest)) rfl
    · next htask =>
      split
      · next hreceipt =>
        refine .drops (fun h => ?_) rfl
        rw [Option.any_eq_true] at hreceipt
        obtain ⟨taskId, hmem, hne⟩ := hreceipt
        exact of_decide_eq_true hne (h.receipt taskId hmem)
      · next hreceipt =>
        have hfound : s.Finds e.taskId := by
          refine ⟨by simpa [hlatest] using htask, fun taskId hmem => ?_⟩
          by_contra hne
          exact hreceipt ((Option.any_eq_true _ _).2 ⟨taskId, hmem, decide_eq_true hne⟩)
        split
        · next hskip => exact .spares hfound (by simpa [keepsSkip, hlatest] using hskip) rfl rfl
        · next hskip =>
          have hskip : s.keepsSkip e = false := by simpa [keepsSkip, hlatest] using hskip
          dsimp only
          split_ifs <;> exact .closes hfound hskip rfl rfl

end Schedule

/-- What an event records of the fire. -/
def BudgetEvent.recorded : BudgetEvent ν → Option ScheduleExecutionOutcome
  | .outcome result .. => some result
  | .probeCompleted .. => some .completed
  | _ => none

namespace BudgetRun

open Schedule Option

variable {s s' : BudgetRun ν} {e : BudgetEvent ν} {stage : BudgetStage} {fire : Option BudgetStage}

/-- The task that the row is written for, at the first try or at the second. -/
def acceptedTask (s : BudgetRun ν) (e : BudgetEvent ν) : Option String :=
  match e, s.fire with
  | .launched taskId .., _ => some taskId
  | .accepted written _, some (.accepting _ taskId _ _ _ retried) => if written || retried then none else some taskId
  | _, _ => none

/-- A stage that is waited for, and the one after it with the same receipt. -/
def Follows : BudgetStage → BudgetStage → Prop
  | .reserving receipt, .preparing receipt' => receipt' = receipt
  | .accepting receipt .., .bound receipt' => receipt' = receipt
  | _, _ => False

theorem Follows.receipt {stage stage' : BudgetStage} (h : Follows stage stage') : stage'.receipt = stage.receipt := by
  unfold Follows at h
  split at h
  · exact congrArg some h
  · exact congrArg some h
  · cases h

inductive FireMove (s : BudgetRun ν) : BudgetEvent ν → BudgetRun ν → Prop where
  | goto {e : BudgetEvent ν} {stage : BudgetStage} {fire : Option BudgetStage} (gate : s.fire = some stage)
      (next : ∀ stage' ∈ fire, Follows stage stage') : FireMove s e { s with fire }
  | outcome {stage : BudgetStage} {receipt : ScheduleExecutionReceipt} {result reasonCode blockingTaskId threshold now} (gate : s.fire = some stage)
      (stage : stage = .preparing receipt ∨ stage = .bound receipt) :
      FireMove s (.outcome result reasonCode blockingTaskId threshold now) (s.markOutcome receipt result reasonCode blockingTaskId threshold now)
  | probeCompleted {receipt : ScheduleExecutionReceipt} {reasonCode now} (gate : s.fire = some (.preparing receipt)) :
      FireMove s (.probeCompleted reasonCode now) (s.record (s.schedule.markProbeCompleted receipt.id reasonCode now) (s.count receipt))
  | launched {receipt : ScheduleExecutionReceipt} {taskId queued dependencyParked reasonCode now} (gate : s.fire = some (.preparing receipt)) :
      FireMove s (.launched taskId queued dependencyParked reasonCode now) (s.accept receipt taskId queued dependencyParked reasonCode false now)
  | retried {receipt : ScheduleExecutionReceipt} {taskId queued dependencyParked reasonCode now}
      (gate : s.fire = some (.accepting receipt taskId queued dependencyParked reasonCode false)) :
      FireMove s (.accepted false now) (s.accept receipt taskId queued dependencyParked reasonCode true now)

theorem fireMove (he : e.ofFire = true) (hstep : s.step e = some s') : FireMove s e s' := by
  cases e with
  | reserved written =>
    simp only [step] at hstep
    split at hstep
    · next receipt hfire =>
      cases hstep
      refine .goto hfire fun stage' hmem => ?_
      rw [mem_def, ite_none_right_eq_some] at hmem
      obtain rfl := some.inj hmem.2
      exact rfl
    · cases hstep
  | outcome result reasonCode blockingTaskId threshold now =>
    simp only [step] at hstep
    split at hstep
    · next receipt hfire =>
      cases hstep
      exact .outcome hfire (.inl rfl)
    · next receipt hfire =>
      cases hstep
      exact .outcome hfire (.inr rfl)
    · cases hstep
  | probeCompleted reasonCode now =>
    simp only [step] at hstep
    split at hstep
    · next receipt hfire =>
      cases hstep
      exact .probeCompleted hfire
    · cases hstep
  | launched taskId queued dependencyParked reasonCode now =>
    simp only [step] at hstep
    split at hstep
    · next receipt hfire =>
      cases hstep
      exact .launched hfire
    · cases hstep
  | accepted written now =>
    simp only [step] at hstep
    split at hstep
    · next receipt taskId queued dependencyParked reasonCode retried hfire =>
      split at hstep
      · cases hstep
        refine .goto hfire fun stage' hmem => ?_
        cases hmem
        exact rfl
      · next hagain =>
        cases hstep
        rw [Bool.not_eq_true, Bool.or_eq_false_iff] at hagain
        obtain ⟨rfl, rfl⟩ := hagain
        exact .retried hfire
    · cases hstep
  | settled =>
    simp only [step] at hstep
    split at hstep
    · next hfire =>
      cases hstep
      exact .goto hfire fun _ hmem => by cases hmem
    · next hfire =>
      cases hstep
      exact .goto hfire fun _ hmem => by cases hmem
    · next hfire =>
      cases hstep
      exact .goto hfire fun _ hmem => by cases hmem
    · cases hstep
  | fire | other | taskTerminal | setEnabled | editDefinition => cases he

/-- The receipt of the fire is the one in the row. -/
structure Holds (s : BudgetRun ν) : Prop where
  receipt : ∀ stage ∈ s.fire, ∀ receipt ∈ stage.receipt, ∃ c ∈ s.schedule.currentExecution, c.id = receipt.id

/-- What a step writes, while the receipt of the fire is the one in the row. -/
inductive FireStep (s s' : BudgetRun ν) : BudgetEvent ν → Prop where
  | reserves {trigger decision scheduledFor now} (gate : s.fire = none) (fire : s'.fire.isSome)
      (schedule : s'.schedule = s.schedule.reserveExecution s.receipts trigger decision scheduledFor now) :
      FireStep s s' (.fire trigger decision scheduledFor now)
  | accepts {e : BudgetEvent ν} (gate : s.fire.isSome) (c : ScheduleExecutionReceipt) (entry : ScheduleExecutionLedgerEntry ν)
      (receipt : s.schedule.currentExecution = some c) (own : OwnWrite c entry s.schedule s'.schedule)
      (taskId : String) (task : s.acceptedTask e = some taskId) (row : entry.taskId = some taskId) : FireStep s s' e
  | records {e : BudgetEvent ν} (gate : s.fire.isSome) (c : ScheduleExecutionReceipt) (entry : ScheduleExecutionLedgerEntry ν)
      (receipt : s.schedule.currentExecution = some c) (own : OwnWrite c entry s.schedule s'.schedule)
      (outcome : e.recorded = some entry.outcome) : FireStep s s' e
  | closes {terminal threshold now} (fire : s'.fire = s.fire)
      (schedule : s'.schedule = s.schedule.recordTaskTerminalOutcome terminal threshold now) : FireStep s s' (.taskTerminal terminal threshold now)
  | frees {e : BudgetEvent ν} (gate : s.fire = none → s'.fire = none) (write : FreeWrite s.schedule s'.schedule) : FireStep s s' e

theorem Holds.frees (h : Holds s) {schedule : Schedule ν} (hwrite : FreeWrite s.schedule schedule) : Holds { s with schedule } := by
  have hreceipt : schedule.currentExecution = s.schedule.currentExecution := by
    cases hwrite with
    | keeps hreceipt | appends _ _ _ hreceipt => exact hreceipt
  exact ⟨by rw [hreceipt]; exact h.receipt⟩

theorem Holds.goto (h : Holds s) (hfire : s.fire = some stage)
    (hstage : ∀ stage' ∈ fire, ∀ receipt ∈ stage'.receipt, stage.receipt = some receipt) : Holds { s with fire } :=
  ⟨fun stage' hmem receipt hreceipt => h.receipt stage hfire receipt (hstage stage' hmem receipt hreceipt)⟩

/-- The receipt is written for, and the fire goes on with it or is over. -/
theorem Holds.owns {c : ScheduleExecutionReceipt} {entry : ScheduleExecutionLedgerEntry ν} {schedule : Schedule ν}
    (hown : OwnWrite c entry s.schedule schedule) {counted : List ℕ}
    (hstage : ∀ stage ∈ fire, ∀ receipt ∈ stage.receipt, c.id = receipt.id) : Holds { s with schedule, fire, counted } := by
  obtain ⟨taskId, status, -, hc'⟩ := hown.receipt
  exact ⟨fun stage hmem receipt hreceipt => ⟨_, hc', hstage stage hmem receipt hreceipt⟩⟩

theorem Holds.closes (h : Holds s) (terminal : TaskTerminal ν) (threshold now : ℕ) :
    Holds { s with schedule := s.schedule.recordTaskTerminalOutcome terminal threshold now } := by
  have hclosed : ∀ {schedule : Schedule ν}, schedule.currentExecution =
      s.schedule.currentExecution.map (fun receipt => { receipt with status := .terminal }) → Holds { s with schedule } := by
    intro schedule hreceipt
    refine ⟨fun stage hstage receipt hmem => ?_⟩
    obtain ⟨c, hc, hid⟩ := h.receipt stage hstage receipt hmem
    exact ⟨{ c with status := .terminal }, by rw [hreceipt, hc]; rfl, hid⟩
  rcases terminalWrite (s := s.schedule) terminal threshold now with ⟨-, hsame⟩ | ⟨-, -, hreceipt, -⟩ | ⟨-, -, hreceipt, -⟩
  · rwa [hsame]
  · exact ⟨by rw [hreceipt]; exact h.receipt⟩
  · exact hclosed hreceipt

theorem holds_record {c : ScheduleExecutionReceipt} {schedule? : Option (Schedule ν)} {counted : List ℕ}
    (hfire : s.fire = some stage) (hc : s.schedule.currentExecution = some c)
    (hown : ∀ schedule ∈ schedule?, ∃ entry, OwnWrite c entry s.schedule schedule ∧ e.recorded = some entry.outcome) :
    Holds (s.record schedule? counted) ∧ FireStep s (s.record schedule? counted) e := by
  unfold BudgetRun.record
  split
  · exact ⟨⟨fun stage hstage => by cases hstage⟩, .frees (fun _ => rfl) (.keeps rfl rfl)⟩
  · next schedule =>
    obtain ⟨entry, hown, houtcome⟩ := hown schedule rfl
    refine ⟨.owns hown fun stage hstage receipt hreceipt => ?_, .records (by simp [hfire]) c entry hc hown houtcome⟩
    cases hstage
    cases hreceipt

theorem holds_accept {c receipt : ScheduleExecutionReceipt} (hfire : s.fire = some stage)
    (hc : s.schedule.currentExecution = some c) (hid : c.id = receipt.id) {taskId : String} (htask : s.acceptedTask e = some taskId)
    (queued dependencyParked : Bool) (reasonCode : Option ScheduleExecutionReasonCode) (retried : Bool) (now : ℕ) :
    Holds (s.accept receipt taskId queued dependencyParked reasonCode retried now) ∧
      FireStep s (s.accept receipt taskId queued dependencyParked reasonCode retried now) e := by
  obtain ⟨entry, hown, hrow⟩ := ownWrite_markExecutionAccepted hc hid taskId queued dependencyParked reasonCode now
  refine ⟨.owns hown fun stage hstage receipt' hreceipt => ?_, .accepts (by simp [hfire]) c entry hc hown taskId htask hrow⟩
  cases hstage
  cases hreceipt
  exact hid

theorem Holds.waits (h : Holds s) (hfire : s.fire = some stage)
    (hstage : ∀ stage' ∈ fire, ∀ receipt ∈ stage'.receipt, stage.receipt = some receipt) :
    Holds { s with fire } ∧ FireStep s { s with fire } e :=
  ⟨h.goto hfire hstage, .frees (fun hnone => by simp [hfire] at hnone) (.keeps rfl rfl)⟩

theorem Holds.admitFire (h : Holds s) (trigger : ScheduleExecutionTrigger) (decision : ScheduleExecutionDecision) (scheduledFor : Option ℕ) (now : ℕ) :
    Holds (s.admitFire trigger decision scheduledFor now) ∧
      FireStep s (s.admitFire trigger decision scheduledFor now) (.fire trigger decision scheduledFor now) := by
  unfold BudgetRun.admitFire
  split
  · next stage hfire =>
    have hwrite : FreeWrite s.schedule (s.schedule.recordOverlapSkipped s.receipts trigger decision scheduledFor now) :=
      .recordOverlapSkipped _ _ _ _ _
    have hother := h.frees hwrite
    exact ⟨⟨hother.receipt⟩, .frees (fun hnone => by simp [hfire] at hnone) hwrite⟩
  · next hfire =>
    refine ⟨⟨fun stage hstage receipt hreceipt => ?_⟩, .reserves hfire rfl rfl⟩
    cases hstage
    cases hreceipt
    exact ⟨_, rfl, rfl⟩

theorem holds_move (h : Holds s) (hmove : FireMove s e s') : Holds s' ∧ FireStep s s' e := by
  have hreceipt : ∀ {stage receipt}, s.fire = some stage → stage.receipt = some receipt →
      ∃ c, s.schedule.currentExecution = some c ∧ c.id = receipt.id :=
    fun hfire hstage => h.receipt _ hfire _ hstage
  cases hmove with
  | goto hfire hnext => exact h.waits hfire fun stage' hmem receipt' hreceipt' => (hnext stage' hmem).receipt.symm.trans hreceipt'
  | @outcome stage receipt result reasonCode blockingTaskId threshold now hfire hstage =>
    have hstage : stage.receipt = some receipt := by rcases hstage with rfl | rfl <;> rfl
    obtain ⟨c, hc, hid⟩ := hreceipt hfire hstage
    refine holds_record hfire hc fun schedule hschedule => ?_
    obtain ⟨entry, hown, rfl⟩ := ownWrite_markExecutionOutcome hc hid hschedule
    exact ⟨entry, hown, rfl⟩
  | probeCompleted hfire =>
    obtain ⟨c, hc, hid⟩ := hreceipt hfire rfl
    refine holds_record hfire hc fun schedule hschedule => ?_
    obtain ⟨entry, hown, houtcome⟩ := ownWrite_markProbeCompleted hc hid hschedule
    exact ⟨entry, hown, by rw [houtcome]; rfl⟩
  | launched hfire =>
    obtain ⟨c, hc, hid⟩ := hreceipt hfire rfl
    exact holds_accept hfire hc hid rfl _ _ _ _ _
  | retried hfire =>
    obtain ⟨c, hc, hid⟩ := hreceipt hfire rfl
    exact holds_accept hfire hc hid (by simp [acceptedTask, hfire]) _ _ _ _ _

theorem holds_step (h : Holds s) (hstep : s.step e = some s') : Holds s' ∧ FireStep s s' e := by
  cases e with
  | fire trigger decision scheduledFor now =>
    cases hstep
    exact h.admitFire trigger decision scheduledFor now
  | reserved | outcome | probeCompleted | launched | accepted | settled => exact holds_move h (fireMove rfl hstep)
  | other write threshold now =>
    simp only [step, ite_none_right_eq_some, map_eq_some_iff] at hstep
    obtain ⟨hfree, schedule, hwrite, rfl⟩ := hstep
    have hwrite : FreeWrite s.schedule schedule := .of_apply hfree hwrite
    exact ⟨h.frees hwrite, .frees (fun hnone => hnone) hwrite⟩
  | taskTerminal terminal threshold now =>
    cases hstep
    exact ⟨h.closes terminal threshold now, .closes rfl rfl⟩
  | setEnabled enabled operatorHold now =>
    obtain ⟨schedule, hset, rfl⟩ := map_eq_some_iff.1 hstep
    have hwrite : FreeWrite s.schedule schedule := .setEnabled hset
    exact ⟨h.frees hwrite, .frees (fun hnone => hnone) hwrite⟩
  | editDefinition definition =>
    simp only [step, map_eq_some_iff] at hstep
    obtain ⟨schedule, hedit, rfl⟩ := hstep
    have hwrite : FreeWrite s.schedule schedule := .editDefinition hedit
    exact ⟨h.frees hwrite, .frees (fun hnone => hnone) hwrite⟩

end BudgetRun

end Kookr.Schedules
