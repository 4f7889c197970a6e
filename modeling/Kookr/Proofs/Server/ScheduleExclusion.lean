import Mathlib.Tactic.SplitIfs
import Kookr.Spec.Server.ScheduleRunner

/-! A schedule has one outstanding run. The latest task is the only one that may still block, in every
run in which a catch-up that does not fire comes when the latest task blocks no more, and no accepted
task is lost by the file twice in a row. A catch-up that does not fire forgets the latest task. -/

namespace Kookr.Server

open Kookr.Lib Kookr.Launch ScheduleRunner Option List Nat

namespace Schedule

variable {schedule : Schedule} {outstanding : List String}

def receiptTaskId (schedule : Schedule) : Option String := schedule.currentExecution.bind ScheduleExecutionReceipt.taskId

/-- Every outstanding task is the one that blocks. -/
def Covers (outstanding : List String) (schedule : Schedule) : Prop := ∀ t ∈ outstanding, schedule.blockingTaskId = some t

theorem covers_of_same {schedule' : Schedule} (h : Covers outstanding schedule) (hsame : schedule'.blockingTaskId = schedule.blockingTaskId) :
    Covers outstanding schedule' := fun t ht => hsame.trans (h t ht)

theorem blockingTaskId_recordTaskTerminalOutcome (taskId : String) (completed : Bool) :
    (schedule.recordTaskTerminalOutcome taskId completed).blockingTaskId = schedule.blockingTaskId := by
  unfold recordTaskTerminalOutcome
  split
  · rfl
  · next latest hlatest =>
    split_ifs <;> simp [blockingTaskId, hlatest]

theorem receiptTaskId_recordTaskTerminalOutcome (taskId : String) (completed : Bool) :
    (schedule.recordTaskTerminalOutcome taskId completed).receiptTaskId = schedule.receiptTaskId := by
  unfold recordTaskTerminalOutcome
  split
  · rfl
  · split_ifs <;> simp [receiptTaskId, bind_map]

theorem blockingTaskId_reconcileReceipt : schedule.reconcileReceipt.blockingTaskId = schedule.blockingTaskId := by
  unfold reconcileReceipt
  split
  · rfl
  · dsimp only
    split_ifs
    · cases hlatest : schedule.latestExecution <;> simp [blockingTaskId, hlatest]
    · rfl

theorem blockingTaskId_reconcileLatest (getTask : String → Option TaskStatus) :
    (schedule.reconcileLatest getTask).blockingTaskId = schedule.blockingTaskId := by
  unfold reconcileLatest
  split
  · rfl
  · next latest hlatest =>
    split_ifs
    · split
      · rfl
      · split <;> simp [blockingTaskId, hlatest]
    · rfl

theorem blockingTaskId_reconcileOnStartup (getTask : String → Option TaskStatus) :
    (schedule.reconcileOnStartup getTask).blockingTaskId = schedule.blockingTaskId :=
  (blockingTaskId_reconcileLatest getTask).trans blockingTaskId_reconcileReceipt

end Schedule

/-- The write of an accepted task that the fire waits for, and whether it is the second. -/
def FireStage.awaited : FireStage → Option (Bool × ℕ)
  | .accepting _ _ _ _ retried ticket => some (retried, ticket)
  | _ => none

/-- A catch-up that does not fire. -/
def CatchUpAction.forgets : CatchUpAction → Bool
  | .leaseDenied | .deferred | .stale => true
  | _ => false

namespace ScheduleRunner

open Schedule

variable {s s' : ScheduleRunner} {e : ScheduleEvent} {stage stage' : FireStage} {fire? : Option FireStage} {schedule : Schedule}
  {receiptId : ℕ} {answer : FireAnswer} {taskId : String}

/-- The tasks launched and accepted that still block. -/
def outstanding (s : ScheduleRunner) : List String := s.accepted.filter s.isTaskBlockingSchedule

/-- The launcher is called only when no accepted task blocks. -/
def Exclusive (s : ScheduleRunner) : Prop :=
  ∀ i s', s.step (.resume i .launch) = some s' → ∀ t ∈ s.accepted, s.isTaskBlockingSchedule t = false

/-- A catch-up forgets no task that blocks, and a second write of an accepted task does not fail. -/
def Keeps (s : ScheduleRunner) : ScheduleEvent → Prop
  | .catchUp action => action.forgets = true → (s.schedule.blockingTaskId.any s.isTaskBlockingSchedule) = false
  | .endWrite .failed => ∀ stage ∈ s.fires, stage.awaited ≠ some (true, s.written + 1)
  | _ => True

instance Keeps.decidable (s : ScheduleRunner) (e : ScheduleEvent) : Decidable (s.Keeps e) := by
  unfold Keeps
  split <;> infer_instance

/-- What holds of the admitted fire: before its launch no task is outstanding, and after it only its own. -/
def FireOk (outstanding : List String) (receiptTaskId : Option String) : FireStage → Prop
  | .reserving blockingTaskId _ _ => (∀ t ∈ outstanding, blockingTaskId = some t) ∧ receiptTaskId = none
  | .preparing _ _ | .launching _ => outstanding = []
  | .accepting taskId _ _ _ _ _ => (∀ t ∈ outstanding, t = taskId) ∧ receiptTaskId = some taskId
  | .recording _ => True

/-- At most one fire is admitted, the latest task covers the outstanding ones, and the file does too
but for an accepted task whose write is still to come. -/
structure Inv (s : ScheduleRunner) (fire? : Option FireStage) : Prop where
  fires : s.fires = fire?.toList
  gate : s.inFlightFires = fire?.isSome
  stage : ∀ stage ∈ fire?, FireOk s.outstanding s.schedule.receiptTaskId stage
  schedule : Covers s.outstanding s.schedule
  file : Covers s.outstanding s.file ∨ ∃ retried ticket, fire?.bind FireStage.awaited = some (retried, ticket) ∧
    (s.written < ticket ∨ ticket ∈ s.rejected ∧ retried = false)
  writing : ∀ data ∈ s.writing, Covers s.outstanding data ∨ ∃ retried ticket, fire?.bind FireStage.awaited = some (retried, ticket) ∧
    s.written + 1 < ticket
  queue : s.written ≤ s.persists ∧ (s.writing.isSome = true → s.written < s.persists)

/-- The file and what is written to it cover the outstanding tasks. -/
def Durable (s : ScheduleRunner) : Prop := Covers s.outstanding s.file ∧ ∀ data ∈ s.writing, Covers s.outstanding data

theorem Inv.durable (h : Inv s fire?) (hover : ∀ retried ticket, fire?.bind FireStage.awaited = some (retried, ticket) →
      ¬s.written < ticket ∧ ¬(ticket ∈ s.rejected ∧ retried = false)) : Durable s := by
  constructor
  · rcases h.file with hfile | ⟨retried, ticket, hawaited, hwaits⟩
    · exact hfile
    · exact absurd hwaits (not_or.2 (hover retried ticket hawaited))
  · intro data hdata
    rcases h.writing data hdata with hwriting | ⟨retried, ticket, hawaited, hwaits⟩
    · exact hwriting
    · exact absurd (lt_of_succ_lt hwaits) (hover retried ticket hawaited).1

theorem Inv.durable_of_none (h : Inv s fire?) (hnone : fire?.bind FireStage.awaited = none) : Durable s :=
  h.durable fun retried ticket hawaited => by simp [hnone] at hawaited

theorem Inv.replace (h : Inv s fire?) (hcovers : Covers s.outstanding schedule)
    (hstage : ∀ stage ∈ fire?, FireOk s.outstanding schedule.receiptTaskId stage) : Inv (s.replace schedule) fire? :=
  ⟨h.fires, h.gate, hstage, hcovers, h.file, h.writing, le_succ_of_le h.queue.1, fun hwriting => lt_succ_of_lt (h.queue.2 hwriting)⟩

theorem Inv.replace_of_same (h : Inv s fire?) (hblocking : schedule.blockingTaskId = s.schedule.blockingTaskId)
    (hreceipt : schedule.receiptTaskId = s.schedule.receiptTaskId) : Inv (s.replace schedule) fire? :=
  h.replace (covers_of_same h.schedule hblocking) fun stage hstage => hreceipt ▸ h.stage stage hstage

theorem Inv.settle (h : Inv s (some stage)) (hdurable : Durable s) : Inv (s.settle 0) none where
  fires := by simp [ScheduleRunner.settle, h.fires]
  gate := rfl
  stage := nofun
  schedule := h.schedule
  file := .inl hdurable.1
  writing data hdata := .inl (hdurable.2 data hdata)
  queue := h.queue

theorem Inv.goto (h : Inv s (some stage)) (hdurable : Durable s) (hstage : FireOk s.outstanding s.schedule.receiptTaskId stage') :
    Inv (s.goto 0 stage') (some stage') where
  fires := by simp [ScheduleRunner.goto, h.fires]
  gate := h.gate
  stage := by
    rintro _ ⟨⟩
    exact hstage
  schedule := h.schedule
  file := .inl hdurable.1
  writing data hdata := .inl (hdurable.2 data hdata)
  queue := h.queue

theorem Inv.record (h : Inv s (some stage)) (hdurable : Durable s) {schedule? : Option Schedule}
    (hcovers : ∀ schedule ∈ schedule?, Covers s.outstanding schedule) : ∃ fire?, Inv (s.record 0 schedule?) fire? := by
  cases schedule? with
  | none => exact ⟨none, h.settle hdurable⟩
  | some schedule =>
    have hrecording : Inv (s.goto 0 (.recording (s.persists + 1))) (some (.recording (s.persists + 1))) := h.goto hdurable trivial
    exact ⟨_, hrecording.replace (hcovers schedule rfl) fun stage hstage => by obtain rfl := some.inj hstage; trivial⟩

theorem mem_outstanding_accept {i : ℕ} {queued parked : Bool} {retried : Bool} {t : String}
    (h : t ∈ (s.accept i taskId queued parked receiptId retried).outstanding) : t = taskId ∨ t ∈ s.outstanding := by
  obtain ⟨hmem, hblocking⟩ := mem_filter.1 h
  rcases mem_cons.1 hmem with rfl | haccepted
  · exact .inl rfl
  · exact .inr (mem_filter.2 ⟨haccepted, hblocking⟩)

theorem Inv.accept (h : Inv s (some stage)) (honly : ∀ t ∈ s.outstanding, t = taskId) (queued parked : Bool)
    (receiptId : ℕ) (retried : Bool) : ∃ fire?, Inv (s.accept 0 taskId queued parked receiptId retried) fire? := by
  have honly' (t : String) (ht : t ∈ (s.accept 0 taskId queued parked receiptId retried).outstanding) : t = taskId := by
    rcases mem_outstanding_accept ht with rfl | hold
    · rfl
    · exact honly t hold
  refine ⟨some (.accepting taskId queued parked receiptId retried (s.persists + 1)), ?_, h.gate, ?_, ?_, ?_, ?_, ?_, ?_⟩
  · simp [ScheduleRunner.accept, ScheduleRunner.goto, ScheduleRunner.replace, h.fires]
  · rintro _ ⟨⟩
    exact ⟨honly', rfl⟩
  · intro t ht
    rw [honly' t ht]
    rfl
  · exact .inr ⟨retried, s.persists + 1, rfl, .inl (lt_succ_of_le h.queue.1)⟩
  · intro data hdata
    have hwriting : s.writing = some data := hdata
    exact .inr ⟨retried, s.persists + 1, rfl, succ_lt_succ (h.queue.2 (by rw [hwriting]; rfl))⟩
  · exact le_succ_of_le h.queue.1
  · exact fun hwriting => lt_succ_of_lt (h.queue.2 hwriting)

theorem Inv.fire (h : Inv s fire?) : ∃ fire?, Inv s.fire fire? := by
  unfold ScheduleRunner.fire
  cases hfire : fire? with
  | some stage =>
    subst hfire
    have hflight : s.inFlightFires = true := h.gate
    rw [if_pos hflight]
    exact ⟨_, h.replace_of_same rfl rfl⟩
  | none =>
    subst hfire
    rw [if_neg (by simp [h.gate])]
    have hdurable : Durable s := h.durable_of_none rfl
    refine ⟨some (.reserving s.schedule.blockingTaskId s.receipts (s.persists + 1)), ?_, rfl, ?_, h.schedule, .inl hdurable.1,
      fun data hdata => .inl (hdurable.2 data hdata), le_succ_of_le h.queue.1, fun hwriting => lt_succ_of_lt (h.queue.2 hwriting)⟩
    · simp [h.fires]
    · rintro _ ⟨⟩
      exact ⟨h.schedule, rfl⟩

theorem covers_of_nil (schedule : Schedule) (h : s.outstanding = []) : Covers s.outstanding schedule := by
  simp [Covers, h]

/-- A skip keeps the blocking task, for the receipt names no other. -/
theorem blockingTaskId_markExecutionOutcome {outcome : ScheduleExecutionOutcome} {blockingTaskId : Option String}
    {schedule' : Schedule} (h : schedule.markExecutionOutcome receiptId outcome blockingTaskId = some schedule') :
    schedule'.blockingTaskId = schedule.receiptTaskId.or blockingTaskId := by
  obtain ⟨receipt, hreceipt, rfl⟩ := map_eq_some_iff.1 h
  rw [receiptTaskId, (filter_eq_some_iff.1 hreceipt).1]
  rfl

theorem Inv.recordFireFailure (h : Inv s (some stage)) (hdurable : Durable s) {outcome : ScheduleExecutionOutcome}
    (hcovers : ∀ t ∈ s.outstanding, s.schedule.receiptTaskId = some t) (hrecord : s.recordFireFailure 0 receiptId outcome = some s') :
    ∃ fire?, Inv s' fire? := by
  unfold ScheduleRunner.recordFireFailure at hrecord
  rw [ite_none_right_eq_some, some.injEq] at hrecord
  obtain ⟨-, rfl⟩ := hrecord
  refine h.record hdurable fun schedule hschedule t ht => ?_
  rw [blockingTaskId_markExecutionOutcome hschedule, hcovers t ht, some_or]

theorem Inv.afterReserve {blockingTaskId : Option String} {receiptId ticket : ℕ}
    (h : Inv s (some (.reserving blockingTaskId receiptId ticket)))
    (hstep : s.afterReserve 0 blockingTaskId receiptId ticket answer = some s') : ∃ fire?, Inv s' fire? := by
  have hdurable : Durable s := h.durable_of_none rfl
  obtain ⟨hblocking, hreceipt⟩ := h.stage _ rfl
  unfold ScheduleRunner.afterReserve at hstep
  split_ifs at hstep with hwritten hrejected hblocks
  · split at hstep
    · cases hstep
      exact ⟨none, h.settle hdurable⟩
    · cases hstep
  · split at hstep
    · rw [ite_none_right_eq_some, some.injEq] at hstep
      obtain ⟨-, rfl⟩ := hstep
      refine h.record hdurable fun schedule hschedule t ht => ?_
      rw [blockingTaskId_markExecutionOutcome hschedule, hreceipt, none_or, hblocking t ht]
    · cases hstep
  · -- the blocking task is the only one that could be outstanding, and it is not
    have hnil : s.outstanding = [] := by
      refine eq_nil_iff_forall_not_mem.2 fun t ht => hblocks ?_
      rw [hblocking t ht]
      exact (mem_filter.1 ht).2
    split at hstep
    · rw [ite_none_right_eq_some, some.injEq] at hstep
      obtain ⟨-, rfl⟩ := hstep
      exact h.record hdurable fun schedule _ => covers_of_nil schedule hnil
    · cases hstep
      exact ⟨_, h.goto hdurable hnil⟩
    · cases hstep

theorem Inv.prepare {wait : FireAwait} (h : Inv s (some (.preparing wait receiptId)))
    (hstep : s.prepare 0 wait receiptId answer = some s') : ∃ fire?, Inv s' fire? := by
  have hdurable : Durable s := h.durable_of_none rfl
  have hnil : s.outstanding = [] := h.stage _ rfl
  cases answer with
  | skip outcome =>
    rw [prepare, ite_none_right_eq_some, some.injEq] at hstep
    obtain ⟨-, rfl⟩ := hstep
    exact h.record hdurable fun schedule _ => covers_of_nil schedule hnil
  | goOn next =>
    rw [prepare, ite_none_right_eq_some, some.injEq] at hstep
    obtain ⟨-, rfl⟩ := hstep
    exact ⟨_, h.goto hdurable hnil⟩
  | probeQuiet =>
    rw [prepare, ite_none_right_eq_some, some.injEq] at hstep
    obtain ⟨-, rfl⟩ := hstep
    exact h.record hdurable fun schedule _ => covers_of_nil schedule hnil
  | launch =>
    rw [prepare, ite_none_right_eq_some, some.injEq] at hstep
    obtain ⟨-, rfl⟩ := hstep
    exact ⟨_, h.goto hdurable hnil⟩
  | throws =>
    cases hstep
    exact ⟨none, h.settle hdurable⟩
  | launched taskId queued parked | settled => cases hstep

theorem Inv.afterAccept {queued parked : Bool} {retried : Bool} {ticket : ℕ}
    (h : Inv s (some (.accepting taskId queued parked receiptId retried ticket)))
    (hstep : s.afterAccept 0 taskId queued parked receiptId retried ticket answer = some s') : ∃ fire?, Inv s' fire? := by
  obtain ⟨honly, hreceipt⟩ := h.stage _ rfl
  unfold ScheduleRunner.afterAccept at hstep
  split_ifs at hstep with hwritten hretry
  · split at hstep
    · cases hstep
      exact h.accept honly queued parked receiptId true
    · cases hstep
  · have hdurable : Durable s := h.durable fun _ _ hawaited => by
      obtain ⟨rfl, rfl⟩ := Prod.mk.inj (some.inj hawaited)
      exact ⟨hwritten, hretry⟩
    split at hstep
    · cases hstep
      exact ⟨none, h.settle hdurable⟩
    · exact h.recordFireFailure hdurable (fun t ht => by rw [hreceipt, honly t ht]) hstep
    · cases hstep

theorem Inv.only (h : Inv s fire?) {i : ℕ} (hstage : s.fires[i]? = some stage) : i = 0 ∧ fire? = some stage := by
  rw [h.fires] at hstage
  cases fire? with
  | none => simp at hstage
  | some stage' =>
    rw [toList_some, getElem?_singleton, ite_none_right_eq_some] at hstage
    exact hstage

theorem inv_resume (h : Inv s fire?) {i : ℕ} (hstep : s.resume i answer = some s') : ∃ fire?, Inv s' fire? := by
  obtain ⟨stage, hstage, hstep⟩ := bind_eq_some_iff.1 hstep
  obtain ⟨rfl, rfl⟩ := h.only hstage
  split at hstep
  · exact h.afterReserve hstep
  · exact h.prepare hstep
  · cases hstep
    have hnil : s.outstanding = [] := h.stage _ rfl
    exact h.accept (by simp [hnil]) _ _ _ _
  · have hnil : s.outstanding = [] := h.stage _ rfl
    exact h.recordFireFailure (h.durable_of_none rfl) (by simp [hnil]) hstep
  · exact h.afterAccept hstep
  · split_ifs at hstep
    cases hstep
    exact ⟨none, h.settle (h.durable_of_none rfl)⟩
  · cases hstep

theorem FireOk.mono {outstanding outstanding' : List String} {receiptTaskId : Option String} (h : FireOk outstanding receiptTaskId stage)
    (hless : ∀ t ∈ outstanding', t ∈ outstanding) : FireOk outstanding' receiptTaskId stage := by
  have hnil (hnil : outstanding = []) : outstanding' = [] :=
    eq_nil_iff_forall_not_mem.2 fun t ht => by simpa [hnil] using hless t ht
  cases stage with
  | reserving blockingTaskId receiptId ticket => exact ⟨fun t ht => h.1 t (hless t ht), h.2⟩
  | preparing wait receiptId | launching receiptId => exact hnil h
  | accepting taskId queued parked receiptId retried ticket => exact ⟨fun t ht => h.1 t (hless t ht), h.2⟩
  | recording ticket => trivial

theorem outstanding_stopsBlocking {taskId t : String} (h : t ∈ outstanding { s with stopped := taskId :: s.stopped }) : t ∈ s.outstanding := by
  obtain ⟨hmem, hblocking⟩ := mem_filter.1 h
  refine mem_filter.2 ⟨hmem, ?_⟩
  have hnot : t ∉ taskId :: s.stopped := of_decide_eq_true hblocking
  exact decide_eq_true fun hstopped => hnot (mem_cons_of_mem _ hstopped)

theorem Inv.stopsBlocking (h : Inv s fire?) (taskId : String) : Inv { s with stopped := taskId :: s.stopped } fire? := by
  have hless {schedule : Schedule} (hcovers : Covers s.outstanding schedule) :
      Covers (outstanding { s with stopped := taskId :: s.stopped }) schedule := fun t ht => hcovers t (outstanding_stopsBlocking ht)
  exact ⟨h.fires, h.gate, fun stage hstage => (h.stage stage hstage).mono fun t => outstanding_stopsBlocking, hless h.schedule,
    h.file.imp_left hless, fun data hdata => (h.writing data hdata).imp_left hless, h.queue⟩

theorem Inv.catchUp (h : Inv s fire?) {action : CatchUpAction} (hok : s.Keeps (.catchUp action)) : ∃ fire?, Inv (s.doCatchUp action) fire? := by
  -- what forgets the latest task comes when no task is outstanding
  have hforgets (outcome : ScheduleExecutionOutcome) (hforget : action.forgets = true) :
      ∃ fire?, Inv (s.replace (s.schedule.recordCatchUp outcome)) fire? := by
    have hnil : s.outstanding = [] := by
      refine eq_nil_iff_forall_not_mem.2 fun t ht => ?_
      have hblocks := hok hforget
      rw [h.schedule t ht, any_some, (mem_filter.1 ht).2] at hblocks
      cases hblocks
    exact ⟨fire?, h.replace (covers_of_nil _ hnil) h.stage⟩
  cases action with
  | none => exact ⟨fire?, h⟩
  | fire => exact h.fire
  | leaseDenied | deferred | stale => exact hforgets _ rfl
  | suppress => exact ⟨fire?, h.replace_of_same rfl rfl⟩

theorem Inv.startWrite (h : Inv s fire?) (hnext : s.written < s.persists) : Inv { s with writing := some s.schedule } fire? where
  fires := h.fires
  gate := h.gate
  stage := h.stage
  schedule := h.schedule
  file := h.file
  writing := by
    rintro _ ⟨⟩
    exact .inl h.schedule
  queue := ⟨h.queue.1, fun _ => hnext⟩

theorem Inv.endWrite (h : Inv s fire?) {result : WriteResult} (hok : s.Keeps (.endWrite result)) (hstep : s.endWrite result = some s') :
    Inv s' fire? := by
  obtain ⟨data, hdata, rfl⟩ := map_eq_some_iff.1 hstep
  have hqueue : s.written < s.persists := h.queue.2 (by rw [hdata]; rfl)
  refine ⟨h.fires, h.gate, h.stage, h.schedule, ?_, (fun _ hidle => nomatch hidle), hqueue, fun hidle => nomatch hidle⟩
  cases result with
  | written | rollupFailed =>
    exact (h.writing data hdata).imp_right fun ⟨retried, ticket, hawaited, hwaits⟩ => ⟨retried, ticket, hawaited, .inl hwaits⟩
  | failed =>
    rcases h.file with hfile | ⟨retried, ticket, hawaited, hwaits | ⟨hrejected, hfirst⟩⟩
    · exact .inl hfile
    · -- the write that fails is of the first attempt, or comes before the one that is waited for
      refine .inr ⟨retried, ticket, hawaited, ?_⟩
      rcases lt_or_eq_of_le (succ_le_of_lt hwaits) with hlater | rfl
      · exact .inl hlater
      · obtain ⟨stage, hstage, hstageAwaited⟩ := bind_eq_some_iff.1 hawaited
        have hmem : stage ∈ s.fires := by rw [h.fires, hstage]; exact mem_singleton_self _
        refine .inr ⟨mem_cons_self, ?_⟩
        cases retried with
        | false => rfl
        | true => exact absurd hstageAwaited (hok stage hmem)
    · exact .inr ⟨retried, ticket, hawaited, .inr ⟨mem_cons_of_mem _ hrejected, hfirst⟩⟩

theorem inv_step (h : Inv s fire?) (hok : s.Keeps e) (hstep : s.step e = some s') : ∃ fire?, Inv s' fire? := by
  cases e with
  | fire =>
    cases hstep
    exact h.fire
  | resume i answer => exact inv_resume h hstep
  | catchUp action =>
    obtain ⟨mode, -, hstep⟩ := bind_eq_some_iff.1 hstep
    rw [ite_none_right_eq_some, some.injEq] at hstep
    obtain ⟨-, rfl⟩ := hstep
    obtain ⟨fire?, hdone⟩ := h.catchUp hok
    exact ⟨fire?, hdone.fires, hdone.gate, hdone.stage, hdone.schedule, hdone.file, hdone.writing, hdone.queue⟩
  | taskTerminal taskId completed =>
    cases hstep
    exact ⟨fire?, h.replace_of_same (blockingTaskId_recordTaskTerminalOutcome taskId completed)
      (receiptTaskId_recordTaskTerminalOutcome taskId completed)⟩
  | edit =>
    cases hstep
    exact ⟨fire?, h.replace_of_same rfl rfl⟩
  | stopsBlocking taskId =>
    cases hstep
    exact ⟨fire?, h.stopsBlocking taskId⟩
  | startWrite =>
    rw [step, ite_none_right_eq_some, some.injEq] at hstep
    obtain ⟨⟨-, hnext⟩, rfl⟩ := hstep
    exact ⟨fire?, h.startWrite hnext⟩
  | endWrite result => exact ⟨fire?, h.endWrite hok hstep⟩
  | restart mode getTask =>
    rw [step, ite_none_right_eq_some, some.injEq] at hstep
    obtain ⟨hidle, rfl⟩ := hstep
    have hnone : fire? = none := by
      rw [h.fires] at hidle
      cases fire? with
      | none => rfl
      | some stage => cases hidle
    subst hnone
    have hfile := (h.durable_of_none rfl).1
    exact ⟨none, rfl, rfl, (fun _ h => nomatch h), covers_of_same hfile (blockingTaskId_reconcileOnStartup getTask), .inl hfile,
      (fun _ h => nomatch h), zero_le _, fun h => nomatch h⟩

theorem inv_start (mode : CatchUpMode) : Inv (start mode) none where
  fires := rfl
  gate := rfl
  stage := fun _ h => nomatch h
  schedule := covers_of_nil _ rfl
  file := .inl (covers_of_nil _ rfl)
  writing := fun _ h => nomatch h
  queue := ⟨le_refl _, fun h => nomatch h⟩

theorem resume_launch {i : ℕ} (h : s.resume i .launch = some s') : ∃ wait receiptId, s.fires[i]? = some (.preparing wait receiptId) := by
  obtain ⟨stage, hstage, hstep⟩ := bind_eq_some_iff.1 h
  cases stage with
  | reserving blockingTaskId receiptId ticket =>
    unfold afterReserve at hstep
    dsimp only at hstep
    split_ifs at hstep
  | preparing wait receiptId => exact ⟨wait, receiptId, hstage⟩
  | launching receiptId => cases hstep
  | accepting taskId queued parked receiptId retried ticket =>
    unfold afterAccept at hstep
    dsimp only at hstep
    split_ifs at hstep
  | recording ticket => cases hstep

theorem Inv.exclusive (h : Inv s fire?) : Exclusive s := by
  intro i s' hstep t ht
  obtain ⟨wait, receiptId, hstage⟩ := resume_launch hstep
  obtain ⟨-, rfl⟩ := h.only hstage
  have hnil : s.outstanding = [] := h.stage _ rfl
  have hnot : t ∉ s.outstanding := by simp [hnil]
  exact Bool.eq_false_iff.2 fun hblocking => hnot (mem_filter.2 ⟨ht, hblocking⟩)

theorem launch_exclusive (mode : CatchUpMode) (events : List ScheduleEvent) (s : ScheduleRunner)
    (hrun : exec step (start mode) events = some s) (hok : StepsMeet step Keeps (start mode) events) : Exclusive s := by
  have hkept (s : ScheduleRunner) (e : ScheduleEvent) (s' : ScheduleRunner) (h : ∃ fire?, Inv s fire?) (hok : s.Keeps e)
      (hstep : s.step e = some s') : ∃ fire?, Inv s' fire? := h.elim fun _ h => inv_step h hok hstep
  obtain ⟨fire?, h⟩ := exec_invariant hkept ⟨none, inv_start mode⟩ hok hrun
  exact h.exclusive

/-- A fire up to its launch, with a probe that escalates. -/
def fireToLaunch : List ScheduleEvent :=
  [.fire, .startWrite, .endWrite .written, .resume 0 (.goOn .automationProject), .resume 0 (.goOn .probe),
    .resume 0 (.goOn .playbookDrift), .resume 0 (.goOn .grokAuth), .resume 0 (.goOn .resolveLaunch)]

/-- A task is launched while another fire is refused, and the first write of it fails. After a restart
in manual mode the slot that was missed is recorded, and the next tick fires. -/
def restartRun (before : List ScheduleEvent) : List ScheduleEvent :=
  fireToLaunch ++ [.resume 0 .launch, .fire, .resume 0 (.launched "first" false false), .startWrite, .endWrite .written, .startWrite,
    .endWrite .failed, .resume 0 .settled, .startWrite, .endWrite .written, .resume 0 .settled] ++ before ++
    [.restart .manual fun _ => some .inProgress, .catchUp .deferred, .startWrite, .endWrite .written] ++ fireToLaunch

/-- The first task is over before the restart. -/
theorem launch_exclusive_restartRun : ∃ s s', exec step (start .auto) (restartRun [.stopsBlocking "first"]) = some s ∧
    StepsMeet step Keeps (start .auto) (restartRun [.stopsBlocking "first"]) ∧ s.step (.resume 0 .launch) = some s' ∧ Exclusive s := by
  have hok : StepsMeet step Keeps (start .auto) (restartRun [.stopsBlocking "first"]) := by decide +kernel
  have hlaunch : ((exec step (start .auto) (restartRun [.stopsBlocking "first"])).bind fun s => s.step (.resume 0 .launch)).isSome = true := by
    decide +kernel
  obtain ⟨s', hs'⟩ := isSome_iff_exists.1 hlaunch
  obtain ⟨s, hrun, hstep⟩ := bind_eq_some_iff.1 hs'
  exact ⟨s, s', hrun, hok, hstep, launch_exclusive .auto _ s hrun hok⟩

/-- The first task still runs when the second is launched. -/
theorem deferred_launches_second : ¬∀ mode events s, exec step (start mode) events = some s → Exclusive s := by
  intro h
  have hlaunch : ((exec step (start .auto) (restartRun [])).filter fun s =>
      "first" ∈ s.accepted ∧ s.isTaskBlockingSchedule "first" = true ∧ (s.step (.resume 0 .launch)).isSome).isSome = true := by
    decide +kernel
  obtain ⟨s, hs⟩ := isSome_iff_exists.1 hlaunch
  obtain ⟨hrun, hs⟩ := filter_eq_some_iff.1 hs
  obtain ⟨haccepted, hblocking, hstep⟩ := of_decide_eq_true hs
  obtain ⟨s', hstep⟩ := isSome_iff_exists.1 hstep
  have hfree := h .auto (restartRun []) s hrun 0 s' hstep "first" haccepted
  rw [hblocking] at hfree
  cases hfree

end ScheduleRunner

end Kookr.Server
