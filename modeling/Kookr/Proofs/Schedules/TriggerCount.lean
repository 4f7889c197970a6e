import Mathlib.Data.List.Basic
import Kookr.Sanity.Schedules.FireSteps

/-! The budget of triggers is exact in every run in which no fire that has spent a trigger spends a
second one of those left. The write of an accepted task is tried again when it fails, and the row in
memory has spent a trigger each time. -/

namespace Kookr.Schedules

open Kookr.Lib Option

variable {ν : Type}

namespace Schedule

variable {s s' s'' : Schedule ν} {n k k' : ℕ} {receipt : ScheduleExecutionReceipt} {now : ℕ}

/-- Of `n` triggers `k` are spent, or more than there are. -/
structure Spent (n k : ℕ) (s : Schedule ν) : Prop where
  maxTriggers : s.maxTriggers = some n
  remainingTriggers : s.remainingTriggers = some (n - k)
  stopReason : s.stopReason = some .triggerLimitReached → n ≤ k

/-- The receipt and what fired it. -/
def receiptKey (s : Schedule ν) : Option (ℕ × ScheduleExecutionTrigger) := s.currentExecution.map fun receipt => (receipt.id, receipt.trigger)

/-- A write that spends nothing and leaves the receipt. -/
structure Spares (s s' : Schedule ν) : Prop where
  maxTriggers : s'.maxTriggers = s.maxTriggers
  remainingTriggers : s'.remainingTriggers = s.remainingTriggers
  stopReason : s'.stopReason = some .triggerLimitReached → s.stopReason = some .triggerLimitReached ∨ s.isTriggerLimitExhausted = true
  receipt : s'.receiptKey = s.receiptKey

theorem Spares.refl (s : Schedule ν) : Spares s s := ⟨rfl, rfl, .inl, rfl⟩

theorem Spares.spent (h : Spares s s') (hspent : Spent n k s) : Spent n k s' where
  maxTriggers := h.maxTriggers.trans hspent.maxTriggers
  remainingTriggers := h.remainingTriggers.trans hspent.remainingTriggers
  stopReason hstop := by
    rcases h.stopReason hstop with hwas | hleft
    · exact hspent.stopReason hwas
    · have hzero : n - k = 0 := by simpa [isTriggerLimitExhausted, hspent.maxTriggers, hspent.remainingTriggers] using hleft
      exact Nat.le_of_sub_eq_zero hzero

theorem Spares.recordTaskTerminalOutcome (e : TaskTerminal ν) (threshold now : ℕ) :
    Spares s (s.recordTaskTerminalOutcome e threshold now) := by
  have hkey : (s.currentExecution.map fun receipt => { receipt with status := .terminal }).map (fun receipt => (receipt.id, receipt.trigger)) =
      s.receiptKey := by
    rw [map_map]
    rfl
  unfold Schedule.recordTaskTerminalOutcome
  split
  · exact Spares.refl s
  · split
    · exact Spares.refl s
    split
    · exact Spares.refl s
    split
    · exact ⟨rfl, rfl, .inl, rfl⟩
    · dsimp only
      split
      · exact ⟨rfl, rfl, nofun, hkey⟩
      · exact ⟨rfl, rfl, .inl, hkey⟩

theorem Spares.setEnabled {enabled : Bool} {operatorHold : Option Bool} (h : s.setEnabled enabled operatorHold now = some s') :
    Spares s s' := by
  cases enabled with
  | false =>
    obtain ⟨hold, source, heldAt, hfalse⟩ := setEnabled_false (s := s) operatorHold now
    obtain rfl := some.inj (hfalse.symm.trans h)
    exact ⟨rfl, rfl, .inl, rfl⟩
  | true =>
    rw [setEnabled_true, ite_none_left_eq_some, some.injEq] at h
    obtain ⟨-, rfl⟩ := h
    refine ⟨rfl, rfl, fun hstop => ?_, rfl⟩
    split_ifs at hstop
    exact .inl hstop

theorem Spares.editDefinition {definition : ScheduleDefinition} (h : s.updateDefinition ⟨some definition, none⟩ now = some s') :
    Spares s s' := by
  cases h
  exact ⟨rfl, rfl, .inl, rfl⟩

theorem Spares.other {write : FireWrite} {threshold now : ℕ} (hfree : write.needsNoReceipt = true)
    (h : write.apply threshold now s = some s') : Spares s s' := by
  cases write with
  | markCronLimitExhausted =>
    cases h
    unfold Schedule.markCronLimitExhausted
    split_ifs with hleft hmarked
    · exact Spares.refl s
    · exact Spares.refl s
    · exact ⟨rfl, rfl, fun _ => .inr (eq_true_of_ne_false hleft), rfl⟩
  | recordOverlapSkipped | recordCatchUpSkipped | recordCatchUpDeferred | recordCatchUpLeaseDenied | suppressCatchUp =>
    cases h
    exact ⟨rfl, rfl, .inl, rfl⟩
  | reserveExecution | markExecutionAccepted | markExecutionOutcome | markProbeCompleted => cases hfree

theorem Spent.pause (h : Spent n k s) (paused : Bool) (now : ℕ) : Spent n k (if paused then s.autoPaused now else s) := by
  split_ifs
  · exact ⟨h.maxTriggers, h.remainingTriggers, nofun⟩
  · exact h

theorem consumeCronTrigger_spares {trigger : ScheduleExecutionTrigger} {shouldConsume : Bool}
    (h : shouldConsume = false ∨ trigger ≠ .cron) : s.consumeCronTrigger trigger shouldConsume now = s := by
  unfold consumeCronTrigger
  split
  · rfl
  · exact if_pos h

theorem Spent.consume (h : Spent n k s) (hk : n - k' = n - k - 1) (now : ℕ) : Spent n k' (s.consumeCronTrigger .cron true now) := by
  have hskips : ¬(true = false ∨ ScheduleExecutionTrigger.cron ≠ .cron) := by simp
  simp only [consumeCronTrigger, h.maxTriggers, h.remainingTriggers, getD_some, if_neg hskips]
  split_ifs with hlast
  · exact ⟨rfl, congrArg some hk.symm, fun _ => Nat.le_of_sub_eq_zero (hk.trans hlast)⟩
  · exact ⟨rfl, congrArg some hk.symm, nofun⟩

/-- The count of a fire goes up with its trigger, or there is nothing left to spend. -/
def SpendsTo (n k k' : ℕ) (trigger : ScheduleExecutionTrigger) : Prop := if trigger = .cron then n - k' = n - k - 1 else k' = k

theorem Spent.consumeAs (h : Spent n k s) {trigger : ScheduleExecutionTrigger} (hk : SpendsTo n k k' trigger) (now : ℕ) :
    Spent n k' (s.consumeCronTrigger trigger true now) := by
  cases trigger with
  | cron => exact h.consume hk now
  | manual =>
    obtain rfl : k' = k := hk
    rwa [consumeCronTrigger_spares (.inr (by simp))]

theorem requireReceipt_of_key (hkey : s.receiptKey = some (receipt.id, receipt.trigger)) :
    ∃ c, s.requireReceipt receipt.id = some c ∧ c.id = receipt.id ∧ c.trigger = receipt.trigger := by
  obtain ⟨c, hc, hpair⟩ := map_eq_some_iff.1 hkey
  obtain ⟨hid, htrigger⟩ := Prod.mk.inj hpair
  exact ⟨c, by simp [requireReceipt, hc, hid], hid, htrigger⟩

theorem spent_markExecutionAccepted (h : Spent n k s)
    (hkey : s.receiptKey = some (receipt.id, receipt.trigger)) (hk : SpendsTo n k k' receipt.trigger) (taskId : String)
    (queued dependencyParked : Bool) (reasonCode : Option ScheduleExecutionReasonCode) (now : ℕ) :
    Spent n k' (s.markExecutionAccepted receipt taskId queued dependencyParked reasonCode now) ∧
      (s.markExecutionAccepted receipt taskId queued dependencyParked reasonCode now).receiptKey = some (receipt.id, receipt.trigger) := by
  obtain ⟨c, hc, hid, htrigger⟩ := requireReceipt_of_key hkey
  have haccepted : s.acceptedReceipt receipt now = c := by rw [acceptedReceipt, hc, getD_some]
  rw [← htrigger] at hk
  have hspent : Spent n k' (s.consumeCronTrigger c.trigger true now) := h.consumeAs hk now
  unfold markExecutionAccepted
  rw [haccepted]
  refine ⟨⟨hspent.maxTriggers, hspent.remainingTriggers, hspent.stopReason⟩, ?_⟩
  simp [receiptKey, hid, htrigger]

theorem spent_markExecutionOutcome {outcome : ScheduleExecutionOutcome}
    {reasonCode : ScheduleExecutionReasonCode} {blockingTaskId : Option String} {threshold now : ℕ} (h : Spent n k s)
    (hkey : s.receiptKey = some (receipt.id, receipt.trigger))
    (hk : if outcome = .dispatchFailed then SpendsTo n k k' receipt.trigger else k' = k)
    (hmark : s.markExecutionOutcome receipt.id outcome reasonCode blockingTaskId threshold now = some s') : Spent n k' s' := by
  obtain ⟨c, hc, hid, htrigger⟩ := requireReceipt_of_key hkey
  have hspent : Spent n k' (s.consumeCronTrigger c.trigger (outcome = .dispatchFailed) now) := by
    split_ifs at hk with hfailed
    · rw [← htrigger] at hk
      simpa [hfailed] using h.consumeAs hk now
    · subst hk
      rwa [consumeCronTrigger_spares (.inl (by simp [hfailed]))]
  simp only [markExecutionOutcome, hc, map_some, some.injEq] at hmark
  subst hmark
  refine Spent.pause ?_ _ now
  exact ⟨hspent.maxTriggers, hspent.remainingTriggers, hspent.stopReason⟩

theorem spent_markProbeCompleted {reasonCode : ScheduleExecutionReasonCode} (h : Spent n k s)
    (hkey : s.receiptKey = some (receipt.id, receipt.trigger)) (hk : SpendsTo n k k' receipt.trigger)
    (hmark : s.markProbeCompleted receipt.id reasonCode now = some s') : Spent n k' s' := by
  obtain ⟨c, hc, hid, htrigger⟩ := requireReceipt_of_key hkey
  rw [← htrigger] at hk
  have hspent : Spent n k' (s.consumeCronTrigger c.trigger true now) := h.consumeAs hk now
  simp only [markProbeCompleted, hc, map_some, some.injEq] at hmark
  subst hmark
  exact ⟨hspent.maxTriggers, hspent.remainingTriggers, hspent.stopReason⟩

end Schedule

namespace BudgetRun

open Schedule

variable {s s' : BudgetRun ν} {e : BudgetEvent ν} {n : ℕ} {receipt : ScheduleExecutionReceipt}

/-- The budget is what the fires counted leave of it. -/
structure BudgetExact (n : ℕ) (s : BudgetRun ν) : Prop where
  maxTriggers : s.schedule.maxTriggers = some n
  remainingTriggers : s.schedule.remainingTriggers = some (n - s.counted.length)
  exhausted : s.schedule.enabled = false → s.schedule.stopReason = some .triggerLimitReached → n ≤ s.counted.length

/-- A fire that has spent its trigger writes no second spending while triggers are left: its accepted
task is written at once, and it does not fail after its task is bound. -/
def SpendsOnce (s : BudgetRun ν) (e : BudgetEvent ν) : Prop :=
  match e, s.fire with
  | .accepted written _, some (.accepting receipt _ _ _ _ retried) =>
    written = true ∨ retried = true ∨ receipt.trigger ≠ .cron ∨ s.schedule.remainingTriggers = some 0
  | .outcome outcome _ _ _ _, some (.bound receipt) =>
    outcome ≠ .dispatchFailed ∨ receipt.trigger ≠ .cron ∨ s.schedule.remainingTriggers = some 0
  | _, _ => True

instance SpendsOnce.decidable (s : BudgetRun ν) (e : BudgetEvent ν) : Decidable (s.SpendsOnce e) := by
  unfold SpendsOnce
  split <;> infer_instance

/-- Whether the fire is counted by now. -/
def StageOk (counted : List ℕ) : BudgetStage → Prop
  | .reserving receipt | .preparing receipt => receipt.id ∉ counted
  | .accepting receipt .. | .bound receipt => receipt.trigger = .cron → receipt.id ∈ counted
  | .recording => True

structure Inv (n : ℕ) (s : BudgetRun ν) : Prop where
  spent : Spent n s.counted.length s.schedule
  fresh : ∀ id ∈ s.counted, id < s.receipts
  stage : ∀ stage ∈ s.fire, StageOk s.counted stage ∧
    ∀ receipt ∈ stage.receipt, receipt.id < s.receipts ∧ s.schedule.receiptKey = some (receipt.id, receipt.trigger)

theorem Inv.spares (h : Inv n s) {schedule : Schedule ν} (hspares : Spares s.schedule schedule) : Inv n { s with schedule } where
  spent := hspares.spent h.spent
  fresh := h.fresh
  stage stage hstage := ⟨(h.stage stage hstage).1, fun receipt hreceipt =>
    ⟨((h.stage stage hstage).2 receipt hreceipt).1, hspares.receipt.trans ((h.stage stage hstage).2 receipt hreceipt).2⟩⟩

theorem Inv.goto (h : Inv n s) {stage : BudgetStage} (hfire : s.fire = some stage) {fire : Option BudgetStage}
    (hstage : ∀ stage' ∈ fire, stage'.receipt = stage.receipt ∧ (StageOk s.counted stage → StageOk s.counted stage')) :
    Inv n { s with fire } where
  spent := h.spent
  fresh := h.fresh
  stage stage' hmem := by
    obtain ⟨hreceipt, hok⟩ := hstage stage' hmem
    obtain ⟨hstageOk, hkey⟩ := h.stage stage hfire
    rw [hreceipt]
    exact ⟨hok hstageOk, hkey⟩

theorem spendsTo_count (hnew : receipt.id ∉ s.counted) :
    SpendsTo n s.counted.length (s.count receipt).length receipt.trigger := by
  unfold SpendsTo count
  split_ifs with hcron
  · rw [List.insert_of_not_mem hnew, List.length_cons]
    omega
  · rfl

/-- A fire counted before spends nothing more where nothing is left. -/
theorem spendsTo_recount (hspent : Spent n s.counted.length s.schedule)
    (hold : receipt.trigger = .cron → receipt.id ∈ s.counted) (hnone : receipt.trigger ≠ .cron ∨ s.schedule.remainingTriggers = some 0) :
    SpendsTo n s.counted.length (s.count receipt).length receipt.trigger := by
  unfold SpendsTo count
  split_ifs with hcron
  · rw [List.insert_of_mem (hold hcron)]
    rcases hnone with hmanual | hzero
    · exact absurd hcron hmanual
    · have hleft : n - s.counted.length = 0 := some.inj (hspent.remainingTriggers.symm.trans hzero)
      omega
  · rfl

theorem mem_count {id : ℕ} (h : id ∈ s.count receipt) : id = receipt.id ∨ id ∈ s.counted := by
  unfold count at h
  split_ifs at h
  · exact List.mem_insert_iff.1 h
  · exact .inr h

theorem Inv.accept (h : Inv n s) (hid : receipt.id < s.receipts)
    (hkey : s.schedule.receiptKey = some (receipt.id, receipt.trigger))
    (hspends : SpendsTo n s.counted.length (s.count receipt).length receipt.trigger) (taskId : String) (queued dependencyParked : Bool)
    (reasonCode : Option ScheduleExecutionReasonCode) (retried : Bool) (now : ℕ) :
    Inv n (s.accept receipt taskId queued dependencyParked reasonCode retried now) := by
  obtain ⟨hspent, hkey'⟩ := spent_markExecutionAccepted h.spent hkey hspends taskId queued dependencyParked reasonCode now
  refine ⟨hspent, fun id hmem => ?_, fun stage hstage => ?_⟩
  · rcases mem_count hmem with rfl | hmem
    · exact hid
    · exact h.fresh id hmem
  · cases hstage
    refine ⟨fun hcron => ?_, fun receipt' hreceipt => ?_⟩
    · have hcount : s.count receipt = s.counted.insert receipt.id := if_pos hcron
      dsimp only [BudgetRun.accept]
      rw [hcount]
      exact List.mem_insert_self
    · cases hreceipt
      exact ⟨hid, hkey'⟩

theorem Inv.record (h : Inv n s) {schedule? : Option (Schedule ν)} {counted : List ℕ}
    (hspent : ∀ schedule ∈ schedule?, Spent n counted.length schedule) (hfresh : ∀ id ∈ counted, id < s.receipts) :
    Inv n (s.record schedule? counted) := by
  unfold BudgetRun.record
  split
  · exact ⟨h.spent, h.fresh, fun stage hstage => by cases hstage⟩
  · next schedule =>
    refine ⟨hspent schedule rfl, hfresh, fun stage hstage => ?_⟩
    cases hstage
    exact ⟨trivial, fun _ h => nomatch h⟩

theorem Inv.markOutcome (h : Inv n s) {outcome : ScheduleExecutionOutcome} (hid : receipt.id < s.receipts)
    (hkey : s.schedule.receiptKey = some (receipt.id, receipt.trigger))
    (hspends : outcome = .dispatchFailed → SpendsTo n s.counted.length (s.count receipt).length receipt.trigger)
    (reasonCode : ScheduleExecutionReasonCode) (blockingTaskId : Option String) (threshold now : ℕ) :
    Inv n (s.markOutcome receipt outcome reasonCode blockingTaskId threshold now) := by
  refine h.record (fun schedule hschedule => spent_markExecutionOutcome h.spent hkey ?_ hschedule) fun id hmem => ?_
  · split_ifs with hfailed
    · exact hspends hfailed
    · rfl
  · split_ifs at hmem
    · rcases mem_count hmem with rfl | hmem
      · exact hid
      · exact h.fresh id hmem
    · exact h.fresh id hmem

theorem Inv.admitFire (h : Inv n s) (trigger : ScheduleExecutionTrigger) (decision : ScheduleExecutionDecision) (scheduledFor : Option ℕ) (now : ℕ) :
    Inv n (s.admitFire trigger decision scheduledFor now) := by
  unfold BudgetRun.admitFire
  split
  · have hspares : Spares s.schedule (s.schedule.recordOverlapSkipped s.receipts trigger decision scheduledFor now) :=
      ⟨rfl, rfl, .inl, rfl⟩
    have hother : Inv n { s with schedule := s.schedule.recordOverlapSkipped s.receipts trigger decision scheduledFor now } := h.spares hspares
    refine ⟨hother.spent, fun id hmem => Nat.lt_succ_of_lt (h.fresh id hmem), fun stage hstage => ⟨(hother.stage stage hstage).1, ?_⟩⟩
    intro receipt hreceipt
    obtain ⟨hid, hkey⟩ := (hother.stage stage hstage).2 receipt hreceipt
    exact ⟨Nat.lt_succ_of_lt hid, hkey⟩
  · refine ⟨⟨h.spent.maxTriggers, h.spent.remainingTriggers, h.spent.stopReason⟩, fun id hmem => Nat.lt_succ_of_lt (h.fresh id hmem), ?_⟩
    intro stage hstage
    cases hstage
    refine ⟨fun hmem => Nat.lt_irrefl _ (h.fresh _ hmem), fun receipt hreceipt => ?_⟩
    cases hreceipt
    exact ⟨Nat.lt_succ_self _, rfl⟩

theorem stageOk_follows {counted : List ℕ} {stage stage' : BudgetStage} (h : Follows stage stage') (hok : StageOk counted stage) :
    StageOk counted stage' := by
  unfold Follows at h
  split at h
  · exact h ▸ hok
  · exact h ▸ hok
  · cases h

theorem inv_move (h : Inv n s) (hok : s.SpendsOnce e) (hmove : FireMove s e s') : Inv n s' := by
  cases hmove with
  | goto hfire hnext => exact h.goto hfire fun stage' hmem => ⟨(hnext stage' hmem).receipt, stageOk_follows (hnext stage' hmem)⟩
  | @outcome stage receipt result reasonCode blockingTaskId threshold now hfire hstage =>
    rcases hstage with rfl | rfl
    · obtain ⟨hnew, hkey⟩ := h.stage _ hfire
      obtain ⟨hid, hkey⟩ := hkey receipt rfl
      exact h.markOutcome hid hkey (fun _ => spendsTo_count hnew) reasonCode blockingTaskId threshold now
    · obtain ⟨hold, hkey⟩ := h.stage _ hfire
      obtain ⟨hid, hkey⟩ := hkey receipt rfl
      simp only [SpendsOnce, hfire] at hok
      refine h.markOutcome hid hkey (fun hfailed => ?_) reasonCode blockingTaskId threshold now
      exact spendsTo_recount h.spent hold (hok.resolve_left (not_not_intro hfailed))
  | @probeCompleted receipt reasonCode now hfire =>
    obtain ⟨hnew, hkey⟩ := h.stage _ hfire
    obtain ⟨hid, hkey⟩ := hkey receipt rfl
    refine h.record (fun schedule hschedule => spent_markProbeCompleted h.spent hkey (spendsTo_count hnew) hschedule) fun id hmem => ?_
    rcases mem_count hmem with rfl | hmem
    · exact hid
    · exact h.fresh id hmem
  | @launched receipt taskId queued dependencyParked reasonCode now hfire =>
    obtain ⟨hnew, hkey⟩ := h.stage _ hfire
    obtain ⟨hid, hkey⟩ := hkey receipt rfl
    exact h.accept hid hkey (spendsTo_count hnew) taskId queued dependencyParked reasonCode false now
  | @retried receipt taskId queued dependencyParked reasonCode now hfire =>
    obtain ⟨hold, hkey⟩ := h.stage _ hfire
    obtain ⟨hid, hkey⟩ := hkey receipt rfl
    simp only [SpendsOnce, hfire] at hok
    have hnone := (hok.resolve_left (by simp)).resolve_left (by simp)
    exact h.accept hid hkey (spendsTo_recount h.spent hold hnone) taskId queued dependencyParked reasonCode true now

theorem inv_step (h : Inv n s) (hok : s.SpendsOnce e) (hstep : s.step e = some s') : Inv n s' := by
  cases e with
  | fire trigger decision scheduledFor now =>
    cases hstep
    exact h.admitFire trigger decision scheduledFor now
  | reserved | outcome | probeCompleted | launched | accepted | settled => exact inv_move h hok (fireMove rfl hstep)
  | other write threshold now =>
    simp only [step, ite_none_right_eq_some, map_eq_some_iff] at hstep
    obtain ⟨hfree, schedule, hwrite, rfl⟩ := hstep
    exact h.spares (.other hfree hwrite)
  | taskTerminal terminal threshold now =>
    cases hstep
    exact h.spares (.recordTaskTerminalOutcome terminal threshold now)
  | setEnabled enabled operatorHold now =>
    obtain ⟨schedule, hset, rfl⟩ := map_eq_some_iff.1 hstep
    exact h.spares (.setEnabled hset)
  | editDefinition definition =>
    simp only [step, map_eq_some_iff] at hstep
    obtain ⟨schedule, hedit, rfl⟩ := hstep
    exact h.spares (.editDefinition hedit)

theorem inv_start (id : String) (definition : ScheduleDefinition) (enabled : Bool) (n now : ℕ) :
    Inv n (start id definition enabled (some n) now : BudgetRun ν) where
  spent := ⟨rfl, rfl, nofun⟩
  fresh _ h := by cases h
  stage _ h := by cases h

theorem trigger_budget_exact (id : String) (definition : ScheduleDefinition) (enabled : Bool) (n now : ℕ) (events : List (BudgetEvent ν))
    (s : BudgetRun ν) (hrun : exec step (start id definition enabled (some n) now) events = some s)
    (hok : StepsMeet step SpendsOnce (start id definition enabled (some n) now) events) : BudgetExact n s := by
  have h : Inv n s := exec_invariant (fun _ _ _ => inv_step) (inv_start id definition enabled n now) hok hrun
  exact ⟨h.spent.maxTriggers, h.spent.remainingTriggers, fun _ => h.spent.stopReason⟩

/-- A cron fire whose accepted task is written at the second try, and a manual one. -/
def retriedRun : List (BudgetEvent ℕ) :=
  [.fire .manual .manualRun none 1, .reserved true, .launched "m" false false none 2, .accepted false 3, .accepted true 4, .settled,
    .fire .cron .cronDue (some 5) 5, .reserved true, .launched "t" false false none 6, .fire .manual .manualRun none 6, .accepted false 7,
    .accepted true 8, .settled]

/-- The first cron fire has spent the only trigger. -/
theorem trigger_budget_exact_retriedRun : ∃ s : BudgetRun ℕ,
    exec step (start "s" ⟨"* * * * *", false, false⟩ true (some 1) 0) retriedRun = some s ∧
      StepsMeet step SpendsOnce (start "s" ⟨"* * * * *", false, false⟩ true (some 1) 0 : BudgetRun ℕ) retriedRun ∧ BudgetExact 1 s := by
  obtain ⟨s, hrun⟩ : ∃ s : BudgetRun ℕ, exec step (start "s" ⟨"* * * * *", false, false⟩ true (some 1) 0) retriedRun = some s := ⟨_, rfl⟩
  have hok : StepsMeet step SpendsOnce (start "s" ⟨"* * * * *", false, false⟩ true (some 1) 0 : BudgetRun ℕ) retriedRun := by
    decide +kernel
  exact ⟨s, hrun, hok, trigger_budget_exact _ _ _ 1 0 _ s hrun hok⟩

/-- One fire spends two triggers of five. -/
theorem retry_spends_twice : ¬∀ (n : ℕ) (events : List (BudgetEvent ℕ)) (s : BudgetRun ℕ),
    exec step (start "s" ⟨"* * * * *", false, false⟩ true (some n) 0) events = some s → BudgetExact n s := by
  intro h
  obtain ⟨s, hrun⟩ : ∃ s : BudgetRun ℕ, exec step (start "s" ⟨"* * * * *", false, false⟩ true (some 5) 0) retriedRun = some s := ⟨_, rfl⟩
  have hleft : (exec step (start "s" ⟨"* * * * *", false, false⟩ true (some 5) 0 : BudgetRun ℕ) retriedRun).all (fun s =>
      s.counted.length = 1 ∧ s.schedule.remainingTriggers = some 3) = true := by
    decide +kernel
  rw [hrun, all_some, decide_eq_true_eq] at hleft
  have hexact := (h 5 retriedRun s hrun).remainingTriggers
  rw [hleft.1, hleft.2] at hexact
  cases hexact

end BudgetRun

end Kookr.Schedules
