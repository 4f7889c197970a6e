import Kookr.Sanity.Schedules.FireSteps
import Kookr.Spec.Schedules.CronRunner

/-! The last slot of a schedule never goes back and no slot is launched twice, in every run in which a
loop fires a schedule only while its last slot is the one of the list the loop has. A fire reads its row
anew, but takes its slot from the list. -/

namespace Kookr.Schedules

open Kookr.Lib Option OrderedMap Nat

variable {ν : Type}

namespace Schedule

variable {s s' : Schedule ν}

def SameSlot (s s' : Schedule ν) : Prop := s'.lastScheduledFor = s.lastScheduledFor

theorem SameSlot.refl (s : Schedule ν) : SameSlot s s := rfl

def stamp (s : Schedule ν) : String × Option ℕ := (s.id, s.lastScheduledFor)

@[simp] theorem stamp_consumeCronTrigger (trigger : ScheduleExecutionTrigger) (shouldConsume : Bool) (now : ℕ) :
    (s.consumeCronTrigger trigger shouldConsume now).stamp = s.stamp := by
  unfold consumeCronTrigger
  split
  · rfl
  · dsimp only
    split_ifs <;> rfl

theorem stamp_markExecutionAccepted (reserved : ScheduleExecutionReceipt) (taskId : String) (queued dependencyParked : Bool)
    (reasonCode : Option ScheduleExecutionReasonCode) (now : ℕ) :
    (s.markExecutionAccepted reserved taskId queued dependencyParked reasonCode now).stamp = s.stamp :=
  stamp_consumeCronTrigger (s := s) (s.acceptedReceipt reserved now).trigger true now

theorem stamp_markExecutionOutcome {receiptId : ℕ} {outcome : ScheduleExecutionOutcome} {reasonCode : ScheduleExecutionReasonCode}
    {blockingTaskId : Option String} {threshold now : ℕ}
    (h : s.markExecutionOutcome receiptId outcome reasonCode blockingTaskId threshold now = some s') : s'.stamp = s.stamp := by
  obtain ⟨receipt, -, rfl⟩ := map_eq_some_iff.1 h
  dsimp only
  split_ifs
  all_goals exact stamp_consumeCronTrigger (s := s) receipt.trigger (outcome = .dispatchFailed) now

theorem stamp_markProbeCompleted {receiptId : ℕ} {reasonCode : ScheduleExecutionReasonCode} {now : ℕ}
    (h : s.markProbeCompleted receiptId reasonCode now = some s') : s'.stamp = s.stamp := by
  obtain ⟨receipt, -, rfl⟩ := map_eq_some_iff.1 h
  exact stamp_consumeCronTrigger (s := s) receipt.trigger true now

theorem stamp_recordTaskTerminalOutcome (e : TaskTerminal ν) (threshold now : ℕ) :
    (s.recordTaskTerminalOutcome e threshold now).stamp = s.stamp := by
  unfold Schedule.recordTaskTerminalOutcome
  split
  · rfl
  · split
    · rfl
    split
    · rfl
    split
    · rfl
    · dsimp only
      split_ifs <;> rfl

theorem stamp_setEnabled {enabled : Bool} {operatorHold : Option Bool} {now : ℕ} (h : s.setEnabled enabled operatorHold now = some s') :
    s'.stamp = s.stamp := by
  cases enabled with
  | false =>
    obtain ⟨hold, source, heldAt, hfalse⟩ := setEnabled_false (s := s) operatorHold now
    obtain rfl := some.inj (hfalse.symm.trans h)
    rfl
  | true =>
    rw [setEnabled_true, ite_none_left_eq_some, some.injEq] at h
    obtain ⟨-, rfl⟩ := h
    rfl

theorem stamp_markCronLimitExhausted (now : ℕ) : (s.markCronLimitExhausted now).stamp = s.stamp := by
  unfold Schedule.markCronLimitExhausted
  split_ifs <;> rfl

end Schedule

namespace BudgetRun

open Schedule

variable {s s' : BudgetRun ν} {e : BudgetEvent ν}

/-- What a fire that goes on leaves: the last slot, and the receipt of what it does next. -/
structure GoesOn (s s' : BudgetRun ν) : Prop where
  stamp : s'.schedule.stamp = s.schedule.stamp
  receipt : ∀ stage' ∈ s'.fire, ∀ receipt ∈ stage'.receipt, ∃ stage ∈ s.fire, receipt ∈ stage.receipt

theorem goesOn_record {schedule? : Option (Schedule ν)} {counted : List ℕ} (hstamp : ∀ schedule ∈ schedule?, schedule.stamp = s.schedule.stamp) :
    GoesOn s (s.record schedule? counted) := by
  unfold record
  split
  · exact ⟨rfl, fun stage' hstage' => by cases hstage'⟩
  · next schedule =>
    refine ⟨hstamp schedule rfl, fun stage' hstage' receipt hreceipt => ?_⟩
    cases hstage'
    cases hreceipt

theorem goesOn_accept {stage : BudgetStage} {receipt : ScheduleExecutionReceipt} (hfire : s.fire = some stage) (hreceipt : stage.receipt = some receipt)
    (taskId : String) (queued dependencyParked : Bool) (reasonCode : Option ScheduleExecutionReasonCode) (retried : Bool) (now : ℕ) :
    GoesOn s (s.accept receipt taskId queued dependencyParked reasonCode retried now) := by
  refine ⟨stamp_markExecutionAccepted _ _ _ _ _ _, fun stage' hmem receipt' hreceipt' => ⟨stage, hfire, ?_⟩⟩
  cases hmem
  cases hreceipt'
  exact hreceipt

theorem goesOn_step (he : e.ofFire = true) (hstep : s.step e = some s') : GoesOn s s' := by
  cases fireMove he hstep with
  | goto hfire hnext => exact ⟨rfl, fun stage' hmem receipt hreceipt => ⟨_, hfire, (hnext stage' hmem).receipt.symm.trans hreceipt⟩⟩
  | outcome => exact goesOn_record fun schedule => stamp_markExecutionOutcome
  | probeCompleted => exact goesOn_record fun schedule => stamp_markProbeCompleted
  | launched hfire | retried hfire => exact goesOn_accept hfire rfl _ _ _ _ _ _

end BudgetRun

namespace ScheduleRows

variable {s s' : ScheduleRows ν}

abbrev SameSlots (s s' : ScheduleRows ν) : Prop := Each (fun _ => Schedule.SameSlot) s s'

theorem sameSlots_replace {r r' : Schedule ν} (hr : s.get r.id = some r) (hstamp : r'.stamp = r.stamp) : SameSlots s (s.replace r') := by
  obtain ⟨hid, hslot⟩ := Prod.mk.inj hstamp
  exact (Each.refl (fun _ => Schedule.SameSlot.refl) s).replace (hid ▸ hr) hslot

theorem sameSlots_update {id : String} {f : Schedule ν → Option (Schedule ν)} (hf : ∀ r r', f r = some r' → r'.stamp = r.stamp) :
    SameSlots s (s.update id f) :=
  Each.update (fun _ => Schedule.SameSlot.refl) fun r r' _ hr => Prod.mk.inj (hf r r' hr)

theorem sameSlots_recordTaskTerminalOutcome (e : Schedule.TaskTerminal ν) (threshold now : ℕ) :
    SameSlots s (s.recordTaskTerminalOutcome e threshold now) := by
  unfold recordTaskTerminalOutcome
  split
  · exact Each.refl (fun _ => Schedule.SameSlot.refl) s
  · next r hr => exact sameSlots_replace (mem_listAll.1 (List.mem_of_find?_eq_some hr)) (Schedule.stamp_recordTaskTerminalOutcome e threshold now)

theorem sameSlots_setEnabled (id : String) (enabled : Bool) (operatorHold : Option Bool) (now : ℕ) :
    SameSlots s (s.setEnabled id enabled operatorHold now) :=
  sameSlots_update fun _ _ => Schedule.stamp_setEnabled

theorem sameSlots_markCronLimitExhausted (id : String) (threshold now : ℕ) :
    SameSlots s (s.fireWrite id .markCronLimitExhausted threshold now) :=
  sameSlots_update fun r r' h => by
    cases h
    exact Schedule.stamp_markCronLimitExhausted now

end ScheduleRows

/-- The slot that a catch-up deals with. -/
def LoopAction.dueAt : LoopAction → Option ℕ
  | fire t | leaseDenied t | stale t => some t
  | _ => none

def LoopAction.isFire : LoopAction → Bool
  | fire _ => true
  | _ => false

namespace CronRunner

open Schedule ScheduleRows

variable {s s' s'' : CronRunner ν} {e : CronEvent ν} {nextRun : String → ℕ → Option ℕ} {maxFiresPerTick : ℕ} {id : String}
  {trigger : ScheduleExecutionTrigger} {schedule : Schedule ν} {scheduledFor : Option ℕ}

def slot (s : CronRunner ν) (id : String) : Option ℕ := (s.rows.get id).bind Schedule.lastScheduledFor

def SlotsKept (s s' : CronRunner ν) : Prop := ∀ id, ∀ t ∈ s.slot id, ∃ t' ∈ s'.slot id, t ≤ t'

/-- The schedule that a loop fires, as the loop has listed it. -/
def dispatches (s : CronRunner ν) (nextRun : String → ℕ → Option ℕ) (maxFiresPerTick : ℕ) : CronEvent ν → Option (Schedule ν)
  | .tickNext =>
    match s.turn, s.tick with
    | some .tick, some pass =>
      pass.rest.head?.filter fun schedule => (s.tickAction nextRun maxFiresPerTick pass schedule).isFire
    | _, _ => none
  | .catchUpNext leaseDenied =>
    match s.turn, s.catchUp with
    | some .catchUp, .walking now rest _ =>
      rest.head?.filter fun schedule => !s.fires.has schedule.id && (catchUpAction nextRun now leaseDenied schedule).isFire
    | _, _ => none
  | _ => none

/-- A schedule that is fired still has the last slot that it had in the list. -/
def FreshDispatch (nextRun : String → ℕ → Option ℕ) (maxFiresPerTick : ℕ) (s : CronRunner ν) (e : CronEvent ν) : Prop :=
  ∀ schedule ∈ s.dispatches nextRun maxFiresPerTick e, s.slot schedule.id = schedule.lastScheduledFor

instance FreshDispatch.decidable (nextRun : String → ℕ → Option ℕ) (maxFiresPerTick : ℕ) (s : CronRunner ν) (e : CronEvent ν) :
    Decidable (FreshDispatch nextRun maxFiresPerTick s e) := by
  unfold FreshDispatch
  infer_instance

theorem slot_eq_of_each (h : SameSlots s.rows s'.rows) (id : String) : s'.slot id = s.slot id := by
  unfold slot
  cases hget : s.rows.get id with
  | none =>
    have hid := h id
    rw [hget] at hid
    generalize s'.rows.get id = row' at hid ⊢
    cases hid
    rfl
  | some r =>
    obtain ⟨r', hr', hslot⟩ := h.of_some hget
    rw [hr', bind_some]
    exact hslot

theorem SlotsKept.refl (s : CronRunner ν) : SlotsKept s s := fun _ t ht => ⟨t, ht, le_refl t⟩

theorem SlotsKept.trans (h : SlotsKept s s') (h' : SlotsKept s' s'') : SlotsKept s s'' := fun id t ht => by
  obtain ⟨t', ht', hle⟩ := h id t ht
  obtain ⟨t'', ht'', hle'⟩ := h' id t' ht'
  exact ⟨t'', ht'', le_trans hle hle'⟩

theorem SlotsKept.of_eq (h : ∀ id, s'.slot id = s.slot id) : SlotsKept s s' := fun id t ht => ⟨t, h id ▸ ht, le_refl t⟩

/-- What is launched was reserved in its turn. -/
structure Launched (s : CronRunner ν) : Prop where
  nodup : s.launches.Nodup
  slots : ∀ p ∈ s.launches, ∃ t ∈ s.slot p.1, p.2 ≤ t
  fires : ∀ id fire, s.fires.get id = some fire → ∀ receipt ∈ fire.stage.receipt, receipt.trigger = .cron →
    ∀ scheduledFor ∈ receipt.scheduledFor, (∃ t ∈ s.slot id, scheduledFor ≤ t) ∧ (fire.called = false → (id, scheduledFor) ∉ s.launches)

/-- No fire begins, and none has another receipt. -/
def FiresKept (s s' : CronRunner ν) : Prop :=
  ∀ id fire', s'.fires.get id = some fire' → ∃ fire, s.fires.get id = some fire ∧ fire'.called = fire.called ∧
    ∀ receipt ∈ fire'.stage.receipt, receipt ∈ fire.stage.receipt

theorem FiresKept.of_eq (h : s'.fires = s.fires) : FiresKept s s' := fun _ fire hfire => ⟨fire, h ▸ hfire, rfl, fun _ hreceipt => hreceipt⟩

theorem Launched.keeps (h : Launched s) (hslots : SlotsKept s s') (hfires : FiresKept s s') (hlaunches : s'.launches = s.launches) :
    Launched s' where
  nodup := hlaunches ▸ h.nodup
  slots p hp := by
    obtain ⟨t, ht, hle⟩ := h.slots p (hlaunches ▸ hp)
    obtain ⟨t', ht', hle'⟩ := hslots p.1 t ht
    exact ⟨t', ht', le_trans hle hle'⟩
  fires id fire' hfire' receipt hreceipt htrigger scheduledFor hslot := by
    obtain ⟨fire, hfire, hcalled, hsame⟩ := hfires id fire' hfire'
    obtain ⟨⟨t, ht, hle⟩, hnew⟩ := h.fires id fire hfire receipt (hsame receipt hreceipt) htrigger scheduledFor hslot
    obtain ⟨t', ht', hle'⟩ := hslots id t ht
    exact ⟨⟨t', ht', le_trans hle hle'⟩, by rwa [hcalled, hlaunches]⟩

theorem slot_of_get {row : Schedule ν} (h : s.rows.get id = some row) : s.slot id = row.lastScheduledFor := by
  rw [slot, h, bind_some]

theorem slot_replace {row : Schedule ν} (hid : row.id = id) (hrows : s'.rows = s.rows.replace row) (id' : String) :
    s'.slot id' = if id = id' then row.lastScheduledFor else s.slot id' := by
  unfold slot
  rw [hrows, get_replace, hid]
  split_ifs <;> rfl

/-- A fire writes no slot, or it takes the gate. -/
inductive Fires (s : CronRunner ν) (id : String) (trigger : ScheduleExecutionTrigger) (scheduledFor : Option ℕ) : CronRunner ν → Prop where
  | quiet {rows : ScheduleRows ν} {receipts : ℕ} (same : SameSlots s.rows rows) : Fires s id trigger scheduledFor { s with rows, receipts }
  | admits {row : Schedule ν} {receipt : ScheduleExecutionReceipt} {receipts : ℕ} (gate : s.fires.get id = none)
      (reserved : receipt.trigger = trigger ∧ receipt.scheduledFor = scheduledFor) (rowId : row.id = id)
      (slot : row.lastScheduledFor = if trigger = .cron then scheduledFor.or (s.slot id) else s.slot id) :
      Fires s id trigger scheduledFor { s with
        rows := s.rows.replace row
        receipts
        fires := s.fires.set id ⟨s.receipts, .reserving receipt, false⟩ }

theorem fires_fire (s : CronRunner ν) (schedule : Schedule ν) (trigger : ScheduleExecutionTrigger) (decision : ScheduleExecutionDecision)
    (scheduledFor : Option ℕ) : Fires s schedule.id trigger scheduledFor (s.fire schedule trigger decision scheduledFor) := by
  have hsame : Fires s schedule.id trigger scheduledFor s := .quiet (Each.refl (fun _ => SameSlot.refl) s.rows)
  unfold fire
  split_ifs with harchived hleft
  · exact hsame
  · exact .quiet (sameSlots_markCronLimitExhausted schedule.id 0 s.clock)
  split
  · exact hsame
  · next row hget =>
    have hid : row.id = schedule.id := s.rows.keyed schedule.id row hget
    unfold budgetRun
    cases hgate : s.fires.get row.id with
    | none =>
      rw [hid] at hgate ⊢
      refine .admits hgate ⟨rfl, rfl⟩ hid ?_
      rw [slot_of_get hget]
      rfl
    | some fire =>
      have hoverlap : SameSlots s.rows (s.rows.replace (row.recordOverlapSkipped s.receipts trigger decision scheduledFor s.clock)) :=
        sameSlots_replace (r := row) (by rwa [hid]) rfl
      exact .quiet hoverlap

/-- The slots go on, and a new one is not after the clock. -/
structure Moves (s s' : CronRunner ν) : Prop where
  kept : SlotsKept s s'
  fresh : ∀ id, ∀ t ∈ s'.slot id, t ∈ s.slot id ∨ t ≤ s'.clock
  clock : s.clock ≤ s'.clock

theorem Moves.of_eq (h : ∀ id, s'.slot id = s.slot id) (hclock : s.clock ≤ s'.clock) : Moves s s' :=
  ⟨.of_eq h, fun id _ ht => .inl (h id ▸ ht), hclock⟩

theorem Moves.of_slot {t : ℕ} (hslot : s'.slot id = some t) (hother : ∀ id', id ≠ id' → s'.slot id' = s.slot id')
    (hold : ∀ u ∈ s.slot id, u ≤ t) (ht : t ≤ s'.clock) (hclock : s.clock ≤ s'.clock) : Moves s s' := by
  refine ⟨fun id' u hu => ?_, fun id' u hu => ?_, hclock⟩
  · by_cases hid : id = id'
    · subst hid
      exact ⟨t, hslot, hold u hu⟩
    · exact ⟨u, hother id' hid ▸ hu, le_refl u⟩
  · by_cases hid : id = id'
    · subst hid
      obtain rfl : t = u := some.inj (hslot.symm.trans hu)
      exact .inr ht
    · exact .inl (hother id' hid ▸ hu)

theorem Fires.moves (hfire : Fires s id trigger scheduledFor s')
    (hnew : trigger = .cron → s.fires.get id = none → ∃ t, scheduledFor = some t ∧ t ≤ s.clock ∧ ∀ u ∈ s.slot id, u < t) : Moves s s' := by
  cases hfire with
  | quiet hsame => exact .of_eq (slot_eq_of_each hsame) (le_refl _)
  | admits hgate _ hid hslot =>
    by_cases hcron : trigger = .cron
    · obtain ⟨t, rfl, ht, hlt⟩ := hnew hcron hgate
      rw [if_pos hcron] at hslot
      refine .of_slot ?_ (fun id' hne => (slot_replace hid rfl id').trans (if_neg hne)) (fun u hu => le_of_lt (hlt u hu)) ht (le_refl _)
      exact (slot_replace hid rfl id).trans ((if_pos rfl).trans hslot)
    · refine .of_eq (fun id' => (slot_replace hid rfl id').trans ?_) (le_refl _)
      split_ifs with heq
      · rw [hslot, if_neg hcron, heq]
      · rfl

theorem Fires.launched (hfire : Fires s id trigger scheduledFor s') (h : Launched s) (hmoves : Moves s s')
    (hnew : trigger = .cron → s.fires.get id = none → ∃ t, scheduledFor = some t ∧ t ≤ s.clock ∧ ∀ u ∈ s.slot id, u < t) : Launched s' := by
  cases hfire with
  | quiet => exact h.keeps hmoves.kept (.of_eq rfl) rfl
  | admits hgate hreserved hid hslot =>
    refine ⟨h.nodup, fun p hp => ?_, fun id' fire hfire receipt hreceipt htrigger t ht => ?_⟩
    · obtain ⟨t, ht, hle⟩ := h.slots p hp
      obtain ⟨t', ht', hle'⟩ := hmoves.kept p.1 t ht
      exact ⟨t', ht', le_trans hle hle'⟩
    · rcases get_set_some hfire with ⟨rfl, rfl⟩ | ⟨-, hfire⟩
      · cases hreceipt
        have hcron : trigger = .cron := hreserved.1 ▸ htrigger
        obtain ⟨t', rfl, -, hlt⟩ := hnew hcron hgate
        obtain rfl : t' = t := some.inj (hreserved.2.symm.trans ht)
        rw [if_pos hcron] at hslot
        refine ⟨⟨t', (slot_replace hid rfl id).trans ((if_pos rfl).trans hslot), le_refl t'⟩, fun _ hmem => ?_⟩
        obtain ⟨u, hu, hle⟩ := h.slots _ hmem
        exact absurd (hlt u hu) (not_lt.2 hle)
      · obtain ⟨⟨u, hu, hle⟩, hnot⟩ := h.fires id' fire hfire receipt hreceipt htrigger t ht
        obtain ⟨u', hu', hle'⟩ := hmoves.kept id' u hu
        exact ⟨⟨u', hu', le_trans hle hle'⟩, hnot⟩

theorem Fires.same (h : Fires s id trigger scheduledFor s') : s'.clock = s.clock ∧ s'.tick = s.tick ∧ s'.catchUp = s.catchUp := by
  cases h <;> exact ⟨rfl, rfl, rfl⟩

/-- What a fire that goes on leaves as it is. -/
theorem goOn_keeps {e : BudgetEvent ν} (hstep : s.goOn id e = some s') :
    (∀ id', s'.slot id' = s.slot id') ∧ FiresKept s s' ∧ s'.launches = s.launches ∧ s'.clock = s.clock ∧ s'.tick = s.tick ∧
      s'.catchUp = s.catchUp := by
  unfold CronRunner.goOn at hstep
  split at hstep
  · cases hstep
  · next e row fire hrow hfire _ =>
    rw [ite_none_right_eq_some, map_eq_some_iff] at hstep
    obtain ⟨hof, next, hnext, rfl⟩ := hstep
    have hid : row.id = id := s.rows.keyed id row hrow
    have hgoes := BudgetRun.goesOn_step hof hnext
    refine ⟨slot_eq_of_each (sameSlots_replace (hid.symm ▸ hrow) hgoes.stamp), fun id' fire' hfire' => ?_, rfl, rfl, rfl, rfl⟩
    cases hgate : next.fire with
    | none =>
      rw [hgate] at hfire'
      obtain ⟨-, hfire'⟩ := get_delete_some hfire'
      exact ⟨fire', hfire', rfl, fun _ hreceipt => hreceipt⟩
    | some stage =>
      rw [hgate] at hfire'
      rcases get_set_some hfire' with ⟨rfl, rfl⟩ | ⟨-, hfire'⟩
      · refine ⟨fire, hfire, rfl, fun receipt hreceipt => ?_⟩
        obtain ⟨stage', hstage', hsame⟩ := hgoes.receipt stage hgate receipt hreceipt
        rw [budgetRun, hid, hfire] at hstage'
        cases hstage'
        exact hsame
      · exact ⟨fire', hfire', rfl, fun _ hreceipt => hreceipt⟩
  · cases hstep

/-- What is left of the list of a catch-up: a last slot that is another one has been taken meanwhile. -/
structure WalkOk (s : CronRunner ν) (now : ℕ) (rest : List (Schedule ν)) : Prop where
  now : now ≤ s.clock
  slots : ∀ schedule ∈ rest, ∀ t ∈ s.slot schedule.id, t ≤ s.clock ∨ schedule.lastScheduledFor = some t

structure LoopsOk (s : CronRunner ν) : Prop where
  tick : ∀ pass, s.tick = some pass → pass.now ≤ s.clock
  walk : ∀ now rest waiting, s.catchUp = .walking now rest waiting → WalkOk s now rest

/-- A loop begins now, or goes on with what it has. -/
structure LoopsGo (s s' : CronRunner ν) : Prop where
  tick : ∀ pass', s'.tick = some pass' → pass'.now = s'.clock ∨ ∃ pass, s.tick = some pass ∧ pass'.now = pass.now
  walk : ∀ now rest' waiting', s'.catchUp = .walking now rest' waiting' →
    (now = s'.clock ∧ ∀ schedule ∈ rest', s'.slot schedule.id = schedule.lastScheduledFor) ∨
      ∃ rest waiting, s.catchUp = .walking now rest waiting ∧ rest' ⊆ rest

theorem LoopsGo.of_eq (htick : s'.tick = s.tick) (hcatchUp : s'.catchUp = s.catchUp) : LoopsGo s s' where
  tick pass' h := .inr ⟨pass', htick ▸ h, rfl⟩
  walk _ rest' waiting' h := .inr ⟨rest', waiting', hcatchUp ▸ h, List.Subset.refl rest'⟩

theorem LoopsGo.tick_next {pass pass' : TickPass ν} (htick : s.tick = some pass) (htick' : s'.tick = some pass') (hnow : pass'.now = pass.now)
    (hcatchUp : s'.catchUp = s.catchUp) : LoopsGo s s' where
  tick _ h := .inr ⟨pass, htick, some.inj (htick'.symm.trans h) ▸ hnow⟩
  walk _ rest' waiting' h := .inr ⟨rest', waiting', hcatchUp ▸ h, List.Subset.refl rest'⟩

theorem LoopsGo.catchUp_next {now : ℕ} {rest : List (Schedule ν)} {waiting waiting' : Option ℕ}
    (hwalk : s.catchUp = .walking now (schedule :: rest) waiting) (hwalk' : s'.catchUp = .walking now rest waiting')
    (htick : s'.tick = s.tick) : LoopsGo s s' where
  tick pass' h := .inr ⟨pass', htick ▸ h, rfl⟩
  walk now' rest' waiting'' h := by
    obtain ⟨rfl, rfl, -⟩ := CatchUpPass.walking.inj (hwalk'.symm.trans h)
    exact .inr ⟨schedule :: rest, waiting, hwalk, List.subset_cons_self schedule rest⟩

theorem LoopsOk.go (h : LoopsOk s) (hmoves : Moves s s') (hgo : LoopsGo s s') : LoopsOk s' where
  tick pass' hpass' := by
    rcases hgo.tick pass' hpass' with hnow | ⟨pass, hpass, hnow⟩
    · exact le_of_eq hnow
    · exact hnow ▸ le_trans (h.tick pass hpass) hmoves.clock
  walk now rest' waiting' hwalk' := by
    rcases hgo.walk now rest' waiting' hwalk' with ⟨hnow, hslots⟩ | ⟨rest, waiting, hwalk, hsub⟩
    · exact ⟨le_of_eq hnow, fun schedule hmem t ht => .inr ((hslots schedule hmem).symm.trans ht)⟩
    · have hok := h.walk now rest waiting hwalk
      refine ⟨le_trans hok.now hmoves.clock, fun schedule hmem t ht => ?_⟩
      rcases hmoves.fresh schedule.id t ht with hold | hle
      · exact (hok.slots schedule (hsub hmem) t hold).imp (fun hle => le_trans hle hmoves.clock) id
      · exact .inl hle

section

variable (hnext : ∀ cron t u, nextRun cron t = some u → t < u)
include hnext

/-- The cron library returns a time after the one it is asked for. -/
theorem computeNextRunFor_lt {t : ℕ}
    (h : schedule.computeNextRunFor nextRun = some t) : ∀ u ∈ schedule.lastScheduledFor, u < t := by
  intro u hu
  have hlt := hnext _ _ _ h
  rwa [mem_def.1 hu] at hlt

omit hnext in
theorem tickAction_fire {pass : TickPass ν} {t : ℕ}
    (h : s.tickAction nextRun maxFiresPerTick pass schedule = .fire t) : schedule.computeNextRunFor nextRun = some t ∧ t ≤ pass.now := by
  unfold tickAction at h
  cases ht' : schedule.computeNextRunFor nextRun with
  | none =>
    simp only [ht'] at h
    split_ifs at h
  | some t' =>
    simp only [ht'] at h
    split_ifs at h with _ hlt
    obtain rfl := LoopAction.fire.inj h
    exact ⟨rfl, not_lt.1 hlt⟩

omit hnext in
theorem catchUpAction_dueAt {now t : ℕ} {leaseDenied : Bool} {action : LoopAction}
    (h : catchUpAction nextRun now leaseDenied schedule = action) (ht : action.dueAt = some t) :
    schedule.computeNextRunFor nextRun = some t ∧ t ≤ now := by
  subst h
  unfold catchUpAction at ht
  cases hdue : schedule.computeNextRunFor nextRun with
  | none =>
    simp only [hdue] at ht
    split_ifs at ht <;> cases ht
  | some t' =>
    simp only [hdue] at ht
    split_ifs at ht with _ _ hmissed _ hstale
    all_goals cases ht
    all_goals exact ⟨rfl, by omega⟩

theorem slot_lt_of_fresh {t : ℕ}
    (h : schedule.computeNextRunFor nextRun = some t) (hfresh : s.slot schedule.id = schedule.lastScheduledFor) :
    ∀ u ∈ s.slot schedule.id, u < t :=
  hfresh ▸ computeNextRunFor_lt hnext h

structure Goes (s s' : CronRunner ν) : Prop where
  moves : Moves s s'
  launched : Launched s'
  loops : LoopsGo s s'

omit hnext in
theorem Goes.of_same (h : Launched s) (hslots : ∀ id, s'.slot id = s.slot id) (hclock : s.clock ≤ s'.clock) (hfires : FiresKept s s')
    (hlaunches : s'.launches = s.launches) (hloops : LoopsGo s s') : Goes s s' :=
  ⟨.of_eq hslots hclock, h.keeps (.of_eq hslots) hfires hlaunches, hloops⟩

omit hnext in
theorem Goes.fire (hfire : Fires s id trigger scheduledFor s') (h : Launched s)
    (hnew : trigger = .cron → s.fires.get id = none → ∃ t, scheduledFor = some t ∧ t ≤ s.clock ∧ ∀ u ∈ s.slot id, u < t) : Goes s s' :=
  have hmoves : Moves s s' := hfire.moves hnew
  have hsame : s'.clock = s.clock ∧ s'.tick = s.tick ∧ s'.catchUp = s.catchUp := hfire.same
  ⟨hmoves, hfire.launched h hmoves hnew, .of_eq hsame.2.1 hsame.2.2⟩

omit hnext in
theorem Goes.next (h : Goes s s') (hrows : s''.rows = s'.rows) (hclock : s''.clock = s'.clock) (hfires : s''.fires = s'.fires)
    (hlaunches : s''.launches = s'.launches) (hloops : LoopsGo s s'') : Goes s s'' := by
  have hslots : ∀ id, s''.slot id = s'.slot id := fun id => by rw [slot, hrows, slot]
  refine ⟨⟨h.moves.kept.trans (.of_eq hslots), fun id t ht => ?_, hclock ▸ h.moves.clock⟩, h.launched.keeps (.of_eq hslots) (.of_eq hfires) hlaunches,
    hloops⟩
  rw [hclock]
  exact h.moves.fresh id t (hslots id ▸ ht)

omit hnext in
/-- The slot of a fire is launched when its launcher is called, and not a second time. -/
theorem goes_callLauncher (h : Launched s) (hstep : s.callLauncher id = some s') : Goes s s' := by
  unfold CronRunner.callLauncher at hstep
  split at hstep
  · next receiptId receipt hfire =>
    cases hstep
    refine ⟨.of_eq (fun _ => rfl) (le_refl _), ?_, .of_eq rfl rfl⟩
    have hown := h.fires id _ hfire receipt rfl
    have hothers : ∀ launches : List (String × ℕ), (∀ id' t, id ≠ id' → (id', t) ∉ s.launches → (id', t) ∉ launches) →
        ∀ id' fire, (s.fires.set id ⟨receiptId, .preparing receipt, true⟩).get id' = some fire → ∀ receipt' ∈ fire.stage.receipt,
          receipt'.trigger = .cron → ∀ t ∈ receipt'.scheduledFor, (∃ u ∈ s.slot id', t ≤ u) ∧ (fire.called = false → (id', t) ∉ launches) := by
      intro launches hlaunches id' fire' hfire' receipt' hreceipt' htrigger t ht
      rcases get_set_some hfire' with ⟨rfl, rfl⟩ | ⟨heq, hfire'⟩
      · cases hreceipt'
        exact ⟨(hown htrigger t ht).1, nofun⟩
      · obtain ⟨hslot, hnot⟩ := h.fires id' fire' hfire' receipt' hreceipt' htrigger t ht
        exact ⟨hslot, fun hcalled => hlaunches id' t heq (hnot hcalled)⟩
    split
    · next scheduledFor htrigger hscheduledFor =>
      obtain ⟨hslot, hnot⟩ := hown htrigger scheduledFor hscheduledFor
      refine ⟨List.nodup_cons.2 ⟨hnot rfl, h.nodup⟩, fun p hp => ?_, hothers _ fun id' t hne hmem hcons => ?_⟩
      · rcases List.mem_cons.1 hp with rfl | hp
        · exact hslot
        · exact h.slots p hp
      · rcases List.mem_cons.1 hcons with heq | hmem'
        · exact hne (congrArg Prod.fst heq).symm
        · exact hmem hmem'
    · exact ⟨h.nodup, h.slots, hothers _ fun _ _ _ hmem => hmem⟩
  · cases hstep

theorem goes_tickNext (h : Launched s) (hloops : LoopsOk s)
    (hfresh : FreshDispatch nextRun maxFiresPerTick s .tickNext) (hstep : s.tickNext nextRun maxFiresPerTick = some s') : Goes s s' := by
  unfold CronRunner.tickNext at hstep
  split at hstep
  · next pass hturn htick =>
    split at hstep
    · cases hstep
      exact .of_same h (fun _ => rfl) (le_refl _) (.of_eq rfl) rfl (.tick_next htick rfl rfl rfl)
    · next schedule rest hrest =>
      split at hstep
      · cases hstep
        exact .of_same h (slot_eq_of_each (sameSlots_markCronLimitExhausted schedule.id 0 s.clock)) (le_refl _) (.of_eq rfl) rfl
          (.tick_next htick rfl rfl rfl)
      · cases hstep
        exact .of_same h (fun _ => rfl) (le_refl _) (.of_eq rfl) rfl (.tick_next htick rfl rfl rfl)
      · next scheduledNextRun haction =>
        cases hstep
        have hfire : Fires s schedule.id .cron (some scheduledNextRun) (s.fire schedule .cron .cronDue (some scheduledNextRun)) :=
          fires_fire s schedule .cron .cronDue (some scheduledNextRun)
        obtain ⟨hdue, hle⟩ := tickAction_fire haction
        have hlisted : s.slot schedule.id = schedule.lastScheduledFor := by
          refine hfresh schedule ?_
          simp [dispatches, hturn, htick, hrest, haction, LoopAction.isFire]
        have hnew : ∃ t, some scheduledNextRun = some t ∧ t ≤ s.clock ∧ ∀ u ∈ s.slot schedule.id, u < t :=
          ⟨scheduledNextRun, rfl, le_trans hle (hloops.tick pass htick), slot_lt_of_fresh hnext hdue hlisted⟩
        exact (Goes.fire hfire h fun _ _ => hnew).next rfl rfl rfl rfl (.tick_next htick rfl rfl hfire.same.2.2)
      · cases hstep
        exact .of_same h (fun _ => rfl) (le_refl _) (.of_eq rfl) rfl (.tick_next htick rfl rfl rfl)
  · cases hstep

omit hnext in
/-- A slot that is not fired is passed over: the last one is then the time of the clock. -/
theorem goes_recordCatchUp (h : Launched s) {write : FireWrite}
    (hwrite : ∀ r r' : Schedule ν, write.apply 0 s.clock r = some r' → r'.id = r.id ∧ r'.lastScheduledFor = some s.clock)
    (hold : ∀ u ∈ s.slot id, u ≤ s.clock) (hrows : s'.rows = s.rows.fireWrite id write 0 s.clock) (hclock : s'.clock = s.clock)
    (hfires : s'.fires = s.fires) (hlaunches : s'.launches = s.launches) (hloops : LoopsGo s s') : Goes s s' := by
  rcases update_cases id (write.apply 0 s.clock) s.rows with ⟨hsame, -⟩ | ⟨r, r', hr, hr', hreplace⟩
  · refine .of_same h (fun id' => ?_) (le_of_eq hclock.symm) (.of_eq hfires) hlaunches hloops
    rw [slot, hrows, fireWrite, hsame, slot]
  · obtain ⟨hid', hslot⟩ := hwrite r r' hr'
    have hid : r'.id = id := hid'.trans (s.rows.keyed id r hr)
    have hs' : s'.rows = s.rows.replace r' := hrows.trans hreplace
    have hmoves : Moves s s' :=
      .of_slot ((slot_replace hid hs' id).trans ((if_pos rfl).trans hslot)) (fun id' hne => (slot_replace hid hs' id').trans (if_neg hne)) hold
        (le_of_eq hclock.symm) (le_of_eq hclock.symm)
    exact ⟨hmoves, h.keeps hmoves.kept (.of_eq hfires) hlaunches, hloops⟩

theorem goes_catchUpNext (h : Launched s) (hloops : LoopsOk s) {leaseDenied : Bool}
    (hfresh : FreshDispatch nextRun maxFiresPerTick s (.catchUpNext leaseDenied)) (hstep : s.catchUpNext nextRun leaseDenied = some s') :
    Goes s s' := by
  unfold CronRunner.catchUpNext at hstep
  split at hstep
  · cases hstep
    exact .of_same h (fun _ => rfl) (le_refl _) (.of_eq rfl) rfl ⟨fun pass hpass => .inr ⟨pass, hpass, rfl⟩, nofun⟩
  · next now schedule rest waiting hturn hwalk =>
    have hok : WalkOk s now (schedule :: rest) := hloops.walk now _ waiting hwalk
    -- what has been taken meanwhile is not after the clock
    have hold : ∀ t, schedule.computeNextRunFor nextRun = some t ∧ t ≤ now → ∀ u ∈ s.slot schedule.id, u ≤ s.clock := by
      intro t ht u hu
      rcases hok.slots schedule List.mem_cons_self u hu with hle | hlisted
      · exact hle
      · exact le_trans (le_of_lt (computeNextRunFor_lt hnext ht.1 u hlisted)) (le_trans ht.2 hok.now)
    split at hstep
    · cases hstep
      exact .of_same h (slot_eq_of_each (sameSlots_markCronLimitExhausted schedule.id 0 s.clock)) (le_refl _) (.of_eq rfl) rfl
        (.catchUp_next hwalk rfl rfl)
    · next scheduledNext haction =>
      cases hstep
      refine goes_recordCatchUp h (fun r r' hr => ?_) (hold _ (catchUpAction_dueAt haction rfl)) rfl rfl rfl rfl
        (.catchUp_next hwalk rfl rfl)
      cases hr
      exact ⟨rfl, rfl⟩
    · next scheduledNext haction =>
      cases hstep
      refine goes_recordCatchUp h (fun r r' hr => ?_) (hold _ (catchUpAction_dueAt haction rfl)) rfl rfl rfl rfl
        (.catchUp_next hwalk rfl rfl)
      cases hr
      exact ⟨rfl, rfl⟩
    · next scheduledNext haction =>
      cases hstep
      have hfire : Fires s schedule.id .cron (some scheduledNext) (s.fire schedule .cron .catchUp (some scheduledNext)) :=
        fires_fire s schedule .cron .catchUp (some scheduledNext)
      obtain ⟨hdue, hle⟩ := catchUpAction_dueAt haction rfl
      have hnew : s.fires.get schedule.id = none → ∃ t, some scheduledNext = some t ∧ t ≤ s.clock ∧ ∀ u ∈ s.slot schedule.id, u < t := by
        intro hgate
        have hlisted : s.slot schedule.id = schedule.lastScheduledFor := by
          refine hfresh schedule ?_
          simp [dispatches, hturn, hwalk, haction, LoopAction.isFire, has, hgate]
        exact ⟨scheduledNext, rfl, le_trans hle hok.now, slot_lt_of_fresh hnext hdue hlisted⟩
      exact (Goes.fire hfire h fun _ => hnew).next rfl rfl rfl rfl (.catchUp_next hwalk rfl hfire.same.2.1)
    · cases hstep
      exact .of_same h (fun _ => rfl) (le_refl _) (.of_eq rfl) rfl (.catchUp_next hwalk rfl rfl)
  · cases hstep

theorem goes_step (h : Launched s) (hloops : LoopsOk s)
    (hfresh : FreshDispatch nextRun maxFiresPerTick s e) (hstep : step nextRun maxFiresPerTick s e = some s') : Goes s s' := by
  cases e with
  | clock now =>
    rw [step, ite_none_right_eq_some, some.injEq] at hstep
    obtain ⟨hle, rfl⟩ := hstep
    exact .of_same h (fun _ => rfl) hle (.of_eq rfl) rfl (.of_eq rfl rfl)
  | tickNext => exact goes_tickNext hnext h hloops hfresh hstep
  | catchUpNext leaseDenied => exact goes_catchUpNext hnext h hloops hfresh hstep
  | startTick =>
    simp only [step, CronRunner.startTick, ite_none_left_eq_some, some.injEq] at hstep
    obtain ⟨-, -, rfl⟩ := hstep
    refine .of_same h (fun _ => rfl) (le_refl _) (.of_eq rfl) rfl ⟨fun pass' hpass' => ?_, (LoopsGo.of_eq rfl rfl : LoopsGo s s).walk⟩
    cases hpass'
    exact .inl rfl
  | resumeTick =>
    simp only [step, CronRunner.resumeTick, ite_none_left_eq_some] at hstep
    obtain ⟨-, hstep⟩ := hstep
    split at hstep
    · rw [ite_none_left_eq_some, some.injEq] at hstep
      obtain ⟨-, rfl⟩ := hstep
      exact .of_same h (fun _ => rfl) (le_refl _) (.of_eq rfl) rfl (.of_eq rfl rfl)
    · cases hstep
  | endTick =>
    simp only [step, CronRunner.endTick, ite_none_left_eq_some] at hstep
    obtain ⟨-, hstep⟩ := hstep
    split at hstep
    · rw [ite_none_right_eq_some, some.injEq] at hstep
      obtain ⟨-, rfl⟩ := hstep
      exact .of_same h (fun _ => rfl) (le_refl _) (.of_eq rfl) rfl ⟨nofun, (LoopsGo.of_eq rfl rfl : LoopsGo s s).walk⟩
    · cases hstep
  | startCatchUp =>
    simp only [step, CronRunner.startCatchUp, ite_none_left_eq_some] at hstep
    obtain ⟨-, hstep⟩ := hstep
    split at hstep
    · cases hstep
      refine .of_same h (fun _ => rfl) (le_refl _) (.of_eq rfl) rfl ⟨(LoopsGo.of_eq rfl rfl : LoopsGo s s).tick, fun now rest' _ hwalk => ?_⟩
      obtain ⟨rfl, rfl, -⟩ := CatchUpPass.walking.inj hwalk
      exact .inl ⟨rfl, fun schedule hmem => slot_of_get (mem_list.1 hmem).1⟩
    · cases hstep
  | resumeCatchUp =>
    simp only [step, CronRunner.resumeCatchUp, ite_none_left_eq_some] at hstep
    obtain ⟨-, hstep⟩ := hstep
    split at hstep
    · rw [ite_none_left_eq_some, some.injEq] at hstep
      obtain ⟨-, rfl⟩ := hstep
      exact .of_same h (fun _ => rfl) (le_refl _) (.of_eq rfl) rfl (.of_eq rfl rfl)
    · cases hstep
  | runNow id =>
    simp only [step, CronRunner.runNow, ite_none_left_eq_some, some.injEq] at hstep
    obtain ⟨-, rfl⟩ := hstep
    split
    · exact .of_same h (fun _ => rfl) (le_refl _) (.of_eq rfl) rfl (.of_eq rfl rfl)
    · next schedule _ => exact .fire (fires_fire s schedule .manual .manualRun none) h nofun
  | callLauncher id =>
    simp only [step, ite_none_left_eq_some] at hstep
    exact goes_callLauncher h hstep.2
  | fire id e =>
    simp only [step, ite_none_left_eq_some] at hstep
    obtain ⟨hslots, hfires, hlaunches, hclock, htick, hcatchUp⟩ := goOn_keeps hstep.2
    exact .of_same h hslots (le_of_eq hclock.symm) hfires hlaunches (.of_eq htick hcatchUp)
  | taskTerminal e threshold =>
    simp only [step, ite_none_left_eq_some, some.injEq] at hstep
    obtain ⟨-, rfl⟩ := hstep
    exact .of_same h (slot_eq_of_each (sameSlots_recordTaskTerminalOutcome e threshold s.clock)) (le_refl _) (.of_eq rfl) rfl (.of_eq rfl rfl)
  | setEnabled id enabled operatorHold =>
    simp only [step, ite_none_left_eq_some, some.injEq] at hstep
    obtain ⟨-, rfl⟩ := hstep
    exact .of_same h (slot_eq_of_each (sameSlots_setEnabled id enabled operatorHold s.clock)) (le_refl _) (.of_eq rfl) rfl (.of_eq rfl rfl)

/-- What every step keeps: nothing is launched twice, and the last slots go on from those of a state. -/
structure Inv (s₀ s : CronRunner ν) : Prop where
  launched : Launched s
  loops : LoopsOk s
  kept : SlotsKept s₀ s

theorem inv_exec {s₀ : CronRunner ν} {events : List (CronEvent ν)} (h : Inv s₀ s)
    (hok : StepsMeet (step nextRun maxFiresPerTick) (FreshDispatch nextRun maxFiresPerTick) s events)
    (hrun : exec (step nextRun maxFiresPerTick) s events = some s') : Inv s₀ s' := by
  refine exec_invariant (fun s e s' hinv hfresh hstep => ?_) h hok hrun
  have hgoes : Goes s s' := goes_step hnext hinv.launched hinv.loops hfresh hstep
  exact ⟨hgoes.launched, hinv.loops.go hgoes.moves hgoes.loops, hinv.kept.trans hgoes.moves.kept⟩

end

theorem inv_start (rows : ScheduleRows ν) (clock : ℕ) : Inv (start rows clock) (start rows clock) where
  launched := ⟨List.nodup_nil, fun p hp => (by cases hp), fun id fire hfire => by cases hfire⟩
  loops := ⟨fun pass hpass => (by cases hpass), fun _ _ _ hwalk => by cases hwalk⟩
  kept := .refl _

/-- A last slot never goes back, and no slot of a schedule is launched twice, in every run in which every
schedule that a loop fires still has the last slot of the list. -/
theorem cron_slots_once (hnext : ∀ cron t u, nextRun cron t = some u → t < u) {rows : ScheduleRows ν} {clock : ℕ} {events events' : List (CronEvent ν)}
    (hok : StepsMeet (step nextRun maxFiresPerTick) (FreshDispatch nextRun maxFiresPerTick) (start rows clock) (events ++ events'))
    (hrun : exec (step nextRun maxFiresPerTick) (start rows clock) events = some s)
    (hrest : exec (step nextRun maxFiresPerTick) s events' = some s') : SlotsKept s s' ∧ s'.launches.Nodup := by
  obtain ⟨hbefore, hafter⟩ := hok.append hrun
  have hinv : Inv (start rows clock) s := inv_exec hnext (inv_start rows clock) hbefore hrun
  have hinv' : Inv s s' := inv_exec hnext ⟨hinv.launched, hinv.loops, .refl s⟩ hafter hrest
  exact ⟨hinv'.kept, hinv'.launched.nodup⟩

/-- A time every ten units. -/
def everyTen (_ : String) (t : ℕ) : Option ℕ := some (t + 10 - t % 10)

theorem everyTen_lt (cron : String) (t u : ℕ) (h : everyTen cron t = some u) : t < u := by
  cases h
  omega

def missedRows : ScheduleRows ℕ :=
  (ScheduleRows.empty.replace (.created "a" ⟨"*/10 * * * *", false, false⟩ true none 0)).replace (.created "b" ⟨"*/10 * * * *", false, false⟩ true none 0)

/-- A fire of the schedule from its reservation to its end, and the end of its task. -/
def wholeFire (id taskId : String) (now : ℕ) : List (CronEvent ℕ) :=
  [.fire id (.reserved true), .callLauncher id, .fire id (.launched taskId false false none now), .fire id (.accepted true now), .fire id .settled,
    .taskTerminal ⟨taskId, true, none, false, ⟨none, none, none⟩⟩ 0]

/-- A tick that fires the second schedule while the catch-up waits for the first one, which may be fired. -/
def overtaken : List (CronEvent ℕ) := [.startCatchUp, .catchUpNext false, .startTick, .tickNext, .tickNext, .tickNext] ++ wholeFire "b" "t" 15

theorem cron_slots_once_overtaken : ∃ s s', exec (step everyTen 5) (start missedRows 15) overtaken = some s ∧
    exec (step everyTen 5) s (wholeFire "a" "u" 15) = some s' ∧ SlotsKept s s' ∧ s'.launches.Nodup := by
  have hruns : (exec (step everyTen 5) (start missedRows 15) overtaken).any (fun s => (exec (step everyTen 5) s (wholeFire "a" "u" 15)).isSome) = true := by
    decide +kernel
  rw [any_eq_true] at hruns
  obtain ⟨s, hrun, hrest⟩ := hruns
  obtain ⟨s', hrest⟩ := isSome_iff_exists.1 hrest
  have hok : StepsMeet (step everyTen 5) (FreshDispatch everyTen 5) (start missedRows 15) (overtaken ++ wholeFire "a" "u" 15) := by
    decide +kernel
  exact ⟨s, s', hrun, hrest, cron_slots_once everyTen_lt hok hrun hrest⟩

/-- A catch-up that waits for a fire goes on with the list that it has: what the ticks have fired meanwhile
is fired again at an earlier slot. -/
theorem cron_slot_replayed : (¬∀ (nextRun : String → ℕ → Option ℕ), (∀ cron t u, nextRun cron t = some u → t < u) →
      ∀ (maxFiresPerTick : ℕ) (rows : ScheduleRows ℕ) (clock : ℕ) (events events' : List (CronEvent ℕ)) (s s' : CronRunner ℕ),
        exec (step nextRun maxFiresPerTick) (start rows clock) events = some s → exec (step nextRun maxFiresPerTick) s events' = some s' →
          SlotsKept s s') ∧ ¬∀ (nextRun : String → ℕ → Option ℕ), (∀ cron t u, nextRun cron t = some u → t < u) →
      ∀ (maxFiresPerTick : ℕ) (rows : ScheduleRows ℕ) (clock : ℕ) (events : List (CronEvent ℕ)) (s : CronRunner ℕ),
        exec (step nextRun maxFiresPerTick) (start rows clock) events = some s → s.launches.Nodup := by
  have hlater : (exec (step everyTen 5) (start missedRows 15)
      (overtaken ++ [.endTick, .clock 25, .startTick, .tickNext, .tickNext, .tickNext] ++ wholeFire "b" "v" 25 ++ wholeFire "a" "u" 25)).any
      (fun s => s.slot "b" = some 20 && (exec (step everyTen 5) s
        ([.resumeCatchUp, .catchUpNext false] ++ [.fire "b" (.reserved true), .callLauncher "b"])).any
        fun s' => s'.slot "b" = some 10 && decide (¬s'.launches.Nodup)) = true := by
    decide +kernel
  rw [any_eq_true] at hlater
  obtain ⟨s, hs, hlater⟩ := hlater
  rw [Bool.and_eq_true, decide_eq_true_eq, any_eq_true] at hlater
  obtain ⟨hslot, s', hs', hlater⟩ := hlater
  rw [Bool.and_eq_true, decide_eq_true_eq, decide_eq_true_eq] at hlater
  obtain ⟨hslot', htwice⟩ := hlater
  constructor
  · intro h
    obtain ⟨t', ht', hle⟩ := h everyTen everyTen_lt 5 missedRows 15 _ _ s s' hs hs' "b" 20 hslot
    obtain rfl : 10 = t' := some.inj (hslot'.symm.trans ht')
    omega
  · intro h
    exact htwice (h everyTen everyTen_lt 5 missedRows 15 _ s' (exec_append_eq_some.2 ⟨s, hs, hs'⟩))

end CronRunner

end Kookr.Schedules
