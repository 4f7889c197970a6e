import Kookr.Lib.Exec
import Kookr.Spec.Core.TaskLifecycle

/-! What the record of a task says of its end, in every run of the store. The signal and the detail
of a termination are written only where the cause gives them, so those of an earlier termination are
left over otherwise. -/

namespace Kookr.Core

open Kookr.Lib Kookr.Launch LifecycleTask TerminationCause Option OrderedMap

variable {task task' : LifecycleTask} {now : Timestamp} {call : TaskCall} {context : TerminalTransitionContext} {s s' : TaskLifecycle}
  {e : TaskStep} {id : String}

/-- The receipt is of this transition. What became of the work may have been found out since. -/
structure TaskTerminalReceipt.Describes (receipt : TaskTerminalReceipt) (move : TerminalMove) : Prop where
  status : receipt.status = move.status
  priorState : receipt.priorState = move.priorState
  movedAt : receipt.at = String.ofList (IsoDate.toISOString move.movedAt)
  reason : receipt.reason = move.context.reason.getD (defaultsForStatus move.status).1
  source : receipt.source = move.context.source.getD .unknown
  detail : receipt.detail = move.context.detail

/-- The record after what happened last to the task: its latest terminal transition, and the cause of
its latest termination. -/
structure LifecycleTask.Coherent (task : LifecycleTask) (ended : Option TerminalMove) (cause : Option (Option TerminationCause)) :
    Prop where
  finished : task.finishedAt.isSome = task.status.isTerminalStatus
  receipt : task.status.isTerminalStatus = true → ∃ move receipt, ended = some move ∧ move.status = task.status ∧
    task.terminalReceipt = some receipt ∧ receipt.Describes move
  reason : task.terminationReason = cause.map fun cause => (cause.map reason).getD .unknown
  signal : task.terminationSignal = cause.bind fun cause => filledText (cause.bind signal)
  detail : task.terminationDetail = cause.bind fun cause => filledText (cause.bind detail)

namespace TaskLifecycle

/-- Every record is coherent, and a task with a probe is neither deleted nor reopened by any call. -/
structure Coherent (s : TaskLifecycle) : Prop where
  records : ∀ id task, s.tasks.get id = some task → task.Coherent (s.lastEnded id) (s.lastCause id)
  probing : ∀ e s' id task, s.step e = some s' → s.tasks.get id = some task → task.launchAdmission = some .probing →
    ∃ task', s'.tasks.get id = some task' ∧ (task.status ≠ .open → task'.status ≠ .open)

/-- A termination gives a signal, and a detail, where the task holds one of an earlier termination. -/
def CauseReplaces (s : TaskLifecycle) (e : TaskStep) : Prop :=
  match e.call, s.tasks.get e.taskId with
  | .terminateTask cause _, some task =>
    (task.terminationSignal.isSome = true → (filledText (cause.bind signal)).isSome = true) ∧
      (task.terminationDetail.isSome = true → (filledText (cause.bind detail)).isSome = true)
  | _, _ => True

instance CauseReplaces.decidable (s : TaskLifecycle) (e : TaskStep) : Decidable (s.CauseReplaces e) := by
  unfold CauseReplaces
  split <;> infer_instance

end TaskLifecycle

namespace LifecycleTask

variable {ended : Option TerminalMove} {cause : Option (Option TerminationCause)} {to' : TaskStatus}

/-- A transition goes through, to a terminal status or to another. -/
theorem transition_cases (h : task.transition now to' context = some task') :
    to' ∈ VALID_TRANSITIONS task.status ∧
      (to'.isTerminalStatus = true ∧ task' = { task with
          status := to'
          updatedAt := now
          finishedAt := task.finishedAt.or (some now)
          terminalReceipt := some (buildTerminalReceipt to' task.status (String.ofList (IsoDate.toISOString now))
            (task.receiptContext to' context))
          launchAdmission := if task.launchAdmission = some .probing then some .probing else none } ∨
        to'.isTerminalStatus = false ∧ task' = { task with status := to', updatedAt := now, finishedAt := none }) := by
  unfold transition at h
  split at h
  · cases h
  · next hvalid =>
    rw [not_not] at hvalid
    split at h
    · next hterminal => exact ⟨hvalid, .inl ⟨hterminal, (some.inj h).symm⟩⟩
    · next hterminal => exact ⟨hvalid, .inr ⟨by simpa using hterminal, (some.inj h).symm⟩⟩

theorem describes_buildTerminalReceipt (status priorState : TaskStatus) (context : TerminalTransitionContext) :
    (buildTerminalReceipt status priorState (String.ofList (IsoDate.toISOString now)) context).Describes
      ⟨status, priorState, now, context⟩ := ⟨rfl, rfl, rfl, rfl, rfl, rfl⟩

section

variable (h : task.Coherent ended cause)
include h

theorem coherent_active (hactive : to'.isTerminalStatus = false)
    (htransition : task.transition now to' context = some task') : task'.Coherent ended cause := by
  obtain ⟨-, ⟨hterminal, -⟩ | ⟨-, rfl⟩⟩ := transition_cases htransition
  · rw [hactive] at hterminal
    cases hterminal
  · exact ⟨by simp [hactive], fun hterminal => by simp [hactive] at hterminal, h.reason, h.signal, h.detail⟩

theorem coherent_ended (hterminal : to'.isTerminalStatus = true) (htransition : task.transition now to' context = some task') :
    task'.Coherent (some ⟨to', task.status, now, task.receiptContext to' context⟩) cause := by
  obtain ⟨-, ⟨-, rfl⟩ | ⟨hactive, -⟩⟩ := transition_cases htransition
  · refine ⟨?_, fun _ => ⟨_, _, rfl, rfl, rfl, describes_buildTerminalReceipt _ _ _⟩, h.reason, h.signal, h.detail⟩
    cases task.finishedAt <;> simp [hterminal]
  · rw [hterminal] at hactive
    cases hactive

theorem coherent_terminateTask {given : Option TerminationCause}
    (hsignal : task.terminationSignal.isSome = true → (filledText (given.bind signal)).isSome = true)
    (hdetail : task.terminationDetail.isSome = true → (filledText (given.bind detail)).isSome = true)
    (hterminate : task.terminateTask now given context = some task') :
    task'.Coherent (some ⟨.terminated, task.status, now, context.withDefaults (causeContext given)⟩) (some given) := by
  obtain ⟨ended', hended, rfl⟩ := map_eq_some_iff.1 hterminate
  have hreplaces {field text : Option String} (h : field.isSome = true → text.isSome = true) : text.or field = text := by
    cases field <;> cases text <;> simp_all
  obtain ⟨-, ⟨-, heq⟩ | ⟨hactive, -⟩⟩ := transition_cases hended
  · have hended' := coherent_ended h rfl hended
    refine ⟨hended'.finished, hended'.receipt, rfl, ?_, ?_⟩
    · rw [heq]
      exact hreplaces hsignal
    · rw [heq]
      exact hreplaces hdetail
  · cases hactive

theorem coherent_of_same (hstatus : task'.status.isTerminalStatus = task.status.isTerminalStatus)
    (hsame : task.status.isTerminalStatus = true → task'.status = task.status) (hfinished : task'.finishedAt = task.finishedAt)
    (hreceipt : ∀ receipt, task.terminalReceipt = some receipt → ∃ receipt', task'.terminalReceipt = some receipt' ∧
      ∀ move, receipt.Describes move → receipt'.Describes move)
    (hreason : task'.terminationReason = task.terminationReason) (hsignal : task'.terminationSignal = task.terminationSignal)
    (hdetail : task'.terminationDetail = task.terminationDetail) : task'.Coherent ended cause := by
  refine ⟨by rw [hfinished, hstatus, h.finished], fun hterminal => ?_, hreason.trans h.reason, hsignal.trans h.signal, hdetail.trans h.detail⟩
  rw [hstatus] at hterminal
  obtain ⟨move, receipt, hmove, hmoveStatus, hold, hdescribes⟩ := h.receipt hterminal
  obtain ⟨receipt', hnew, hdescribes'⟩ := hreceipt receipt hold
  exact ⟨move, receipt', hmove, by rw [hmoveStatus, hsame hterminal], hnew, hdescribes' move hdescribes⟩

theorem coherent_apply (happly : task.apply now call = some task') (hok : ∀ given context, call = .terminateTask given context →
      (task.terminationSignal.isSome = true → (filledText (given.bind signal)).isSome = true) ∧
        (task.terminationDetail.isSome = true → (filledText (given.bind detail)).isSome = true)) :
    task'.Coherent ((lastOf TaskMove.move (task.movesOf now call)).or ended) ((lastOf TaskMove.cause (task.movesOf now call)).or cause) := by
  have hkept (receipt : TaskTerminalReceipt) (hreceipt : task.terminalReceipt = some receipt) : ∃ receipt',
      task.terminalReceipt = some receipt' ∧ ∀ move, receipt.Describes move → receipt'.Describes move :=
    ⟨receipt, hreceipt, fun _ => id⟩
  cases call with
  | createTask launchAdmission | deleteTask => cases happly
  | startTask | pendTask => exact coherent_active h rfl happly
  | completeTask context => exact coherent_ended h rfl happly
  | terminateTask given context => exact coherent_terminateTask h (hok given context rfl).1 (hok given context rfl).2 happly
  | cancelTask context => exact coherent_ended h rfl happly
  | reopenTask =>
    simp only [apply, reopenTask, ite_none_left_eq_some] at happly
    exact coherent_active h rfl happly.2
  | addSession session =>
    simp only [apply, addSession, ite_none_left_eq_some, some.injEq] at happly
    obtain ⟨hactive, -, -, rfl⟩ := happly
    -- an open or pending task starts, and one that is not terminal stays so
    refine coherent_of_same h ?_ (fun hterminal => absurd hterminal hactive) rfl hkept rfl rfl rfl
    split
    · rw [Bool.eq_false_iff.2 hactive]
      rfl
    · rfl
  | recordAbandonedLaunchSession session =>
    simp only [apply, recordAbandonedLaunchSession, ite_none_left_eq_some, some.injEq] at happly
    obtain ⟨-, rfl⟩ := happly
    exact coherent_of_same h rfl (fun _ => rfl) rfl hkept rfl rfl rfl
  | updateSession tmuxName lastStatus =>
    simp only [apply, updateSession, ite_none_right_eq_some, some.injEq] at happly
    obtain ⟨-, rfl⟩ := happly
    exact coherent_of_same h rfl (fun _ => rfl) rfl hkept rfl rfl rfl
  | setLaunchAdmission admission =>
    cases happly
    exact coherent_of_same h rfl (fun _ => rfl) rfl hkept rfl rfl rfl
  | recordRecoveryDisposition workDisposition recoveryCorrelationId =>
    obtain ⟨receipt, hreceipt, rfl⟩ := map_eq_some_iff.1 happly
    refine coherent_of_same h rfl (fun _ => rfl) rfl (fun old hold => ⟨_, rfl, fun move hmove => ?_⟩) rfl rfl rfl
    obtain rfl := some.inj (hreceipt.symm.trans hold)
    exact ⟨hmove.status, hmove.priorState, hmove.movedAt, hmove.reason, hmove.source, hmove.detail⟩
  | recordTerminalBookkeepingError message =>
    obtain ⟨receipt, hreceipt, happly⟩ := bind_eq_some_iff.1 happly
    rw [ite_none_left_eq_some, some.injEq] at happly
    obtain ⟨-, rfl⟩ := happly
    refine coherent_of_same h rfl (fun _ => rfl) rfl (fun old hold => ⟨_, rfl, fun move hmove => ?_⟩) rfl rfl rfl
    obtain rfl := some.inj (hreceipt.symm.trans hold)
    exact ⟨hmove.status, hmove.priorState, hmove.movedAt, hmove.reason, hmove.source, hmove.detail⟩
  | setOther =>
    cases happly
    exact coherent_of_same h rfl (fun _ => rfl) rfl hkept rfl rfl rfl

end

end LifecycleTask

namespace TaskLifecycle

/-- Every record is coherent, and what happened to its task begins with the creation. -/
structure Records (s : TaskLifecycle) : Prop where
  coherent : ∀ id task, s.tasks.get id = some task → task.Coherent (s.lastEnded id) (s.lastCause id)
  known : ∀ id task, s.tasks.get id = some task → ∃ entry ∈ s.moves, entry.1 = id

theorem lastEnded_append (tasks : OrderedMap String LifecycleTask) (other id : String) (moves : List TaskMove) :
    lastEnded ⟨tasks, s.moves ++ moves.map fun move => (other, move)⟩ id =
      if other = id then (lastOf TaskMove.move moves).or (s.lastEnded id) else s.lastEnded id :=
  lastOf_append_key TaskMove.move s.moves moves other id

theorem lastCause_append (tasks : OrderedMap String LifecycleTask) (other id : String) (moves : List TaskMove) :
    lastCause ⟨tasks, s.moves ++ moves.map fun move => (other, move)⟩ id =
      if other = id then (lastOf TaskMove.cause moves).or (s.lastCause id) else s.lastCause id :=
  lastOf_append_key TaskMove.cause s.moves moves other id

/-- What a step is, of a task that is new, of one that goes, or of one that is changed. -/
inductive Stepped (s : TaskLifecycle) (e : TaskStep) : TaskLifecycle → Prop where
  | created (launchAdmission : Option LaunchAdmission) (hnew : ∀ entry ∈ s.moves, entry.1 ≠ e.taskId) :
      Stepped s e ⟨s.tasks.set e.taskId (.create e.now launchAdmission), s.moves ++ [TaskMove.created].map fun move => (e.taskId, move)⟩
  | deleted (task : LifecycleTask) (htask : s.tasks.get e.taskId = some task) (hadmission : task.launchAdmission ≠ some .probing) :
      Stepped s e ⟨s.tasks.delete e.taskId, s.moves⟩
  | changed (task task' : LifecycleTask) (htask : s.tasks.get e.taskId = some task) (happly : task.apply e.now e.call = some task') :
      Stepped s e ⟨s.tasks.set e.taskId task', s.moves ++ (task.movesOf e.now e.call).map fun move => (e.taskId, move)⟩

theorem step_stepped (h : s.step e = some s') : Stepped s e s' := by
  obtain ⟨id, now, call⟩ := e
  cases call with
  | createTask launchAdmission =>
    simp only [step, createTask, ite_none_left_eq_some, some.injEq] at h
    obtain ⟨hnew, rfl⟩ := h
    exact .created launchAdmission fun entry hentry heq => hnew (List.any_eq_true.2 ⟨entry, hentry, decide_eq_true heq⟩)
  | deleteTask =>
    simp only [step, deleteTask, bind_eq_some_iff, ite_none_left_eq_some, some.injEq] at h
    obtain ⟨task, htask, hadmission, rfl⟩ := h
    exact .deleted task htask hadmission
  | _ =>
    simp only [step, bind_eq_some_iff, map_eq_some_iff] at h
    obtain ⟨task, htask, task', happly, rfl⟩ := h
    exact .changed task task' htask happly

theorem coherent_create (now : Timestamp) (launchAdmission : Option LaunchAdmission) :
    (create now launchAdmission).Coherent none none := ⟨rfl, nofun, rfl, rfl, rfl⟩

theorem known_step (h : Records s) (hstep : s.step e = some s') (hget : s'.tasks.get id = some task) : ∃ entry ∈ s'.moves, entry.1 = id := by
  cases step_stepped hstep with
  | created launchAdmission hnew =>
    rw [get_set] at hget
    split at hget
    · next heq => exact ⟨(e.taskId, .created), by simp, heq⟩
    · obtain ⟨entry, hentry, heq⟩ := h.known id task hget
      exact ⟨entry, List.mem_append_left _ hentry, heq⟩
  | deleted old hold hadmission =>
    exact h.known id task (get_delete_some hget).2
  | changed old new hold happly =>
    have hknown : ∃ entry ∈ s.moves, entry.1 = id := by
      rw [get_set] at hget
      split at hget
      · next heq => exact heq ▸ h.known e.taskId old hold
      · exact h.known id task hget
    obtain ⟨entry, hentry, heq⟩ := hknown
    exact ⟨entry, List.mem_append_left _ hentry, heq⟩

theorem coherent_step (h : Records s) (hok : s.CauseReplaces e) (hstep : s.step e = some s') (hget : s'.tasks.get id = some task) :
    task.Coherent (s'.lastEnded id) (s'.lastCause id) := by
  cases step_stepped hstep with
  | created launchAdmission hnew =>
    rw [lastEnded_append, lastCause_append]
    rw [get_set] at hget
    split at hget
    · next heq =>
      subst heq
      cases hget
      have hended : s.lastEnded e.taskId = none := lastOf_eq_none fun entry hentry => if_neg (hnew entry hentry)
      have hcause : s.lastCause e.taskId = none := lastOf_eq_none fun entry hentry => if_neg (hnew entry hentry)
      rw [if_pos rfl, if_pos rfl, hended, hcause]
      exact coherent_create _ _
    · next hne =>
      rw [if_neg hne, if_neg hne]
      exact h.coherent id task hget
  | deleted old hold hadmission =>
    rw [get_delete] at hget
    split at hget
    · cases hget
    · exact h.coherent id task hget
  | changed old new hold happly =>
    rw [lastEnded_append, lastCause_append]
    rw [get_set] at hget
    split at hget
    · next heq =>
      subst heq
      cases hget
      rw [if_pos rfl, if_pos rfl]
      refine coherent_apply (h.coherent _ old hold) happly fun given context hcall => ?_
      simpa only [CauseReplaces, hcall, hold] using hok
    · next hne =>
      rw [if_neg hne, if_neg hne]
      exact h.coherent id task hget

theorem records_step (h : Records s) (hok : s.CauseReplaces e) (hstep : s.step e = some s') : Records s' :=
  ⟨fun _ _ => coherent_step h hok hstep, fun _ _ => known_step h hstep⟩

theorem transition_status {to' : TaskStatus} (h : task.transition now to' context = some task') : task'.status = to' := by
  obtain ⟨-, ⟨-, rfl⟩ | ⟨-, rfl⟩⟩ := transition_cases h <;> rfl

/-- Only to reopen a task makes it open, and not while it has a probe. -/
theorem apply_probing (hadmission : task.launchAdmission = some .probing) (hstatus : task.status ≠ .open)
    (happly : task.apply now call = some task') : task'.status ≠ .open := by
  cases call with
  | createTask launchAdmission | deleteTask => cases happly
  | startTask | pendTask | completeTask context => simp [transition_status happly]
  | terminateTask given context =>
    obtain ⟨ended, hended, rfl⟩ := map_eq_some_iff.1 happly
    simp [transition_status hended]
  | cancelTask context => simp [transition_status happly]
  | reopenTask => simp [apply, reopenTask, hadmission] at happly
  | addSession session =>
    simp only [apply, addSession, ite_none_left_eq_some, some.injEq] at happly
    obtain ⟨-, -, -, rfl⟩ := happly
    dsimp only
    split
    · decide
    · exact hstatus
  | recordAbandonedLaunchSession session =>
    simp only [apply, recordAbandonedLaunchSession, ite_none_left_eq_some, some.injEq] at happly
    obtain ⟨-, rfl⟩ := happly
    exact hstatus
  | updateSession tmuxName lastStatus =>
    simp only [apply, updateSession, ite_none_right_eq_some, some.injEq] at happly
    obtain ⟨-, rfl⟩ := happly
    exact hstatus
  | setLaunchAdmission admission =>
    cases happly
    exact hstatus
  | recordRecoveryDisposition workDisposition recoveryCorrelationId =>
    obtain ⟨receipt, -, rfl⟩ := map_eq_some_iff.1 happly
    exact hstatus
  | recordTerminalBookkeepingError message =>
    obtain ⟨receipt, -, happly⟩ := bind_eq_some_iff.1 happly
    rw [ite_none_left_eq_some, some.injEq] at happly
    obtain ⟨-, rfl⟩ := happly
    exact hstatus
  | setOther =>
    cases happly
    exact hstatus

theorem probing_step (h : Records s) (hstep : s.step e = some s') (hget : s.tasks.get id = some task)
    (hadmission : task.launchAdmission = some .probing) :
    ∃ task', s'.tasks.get id = some task' ∧ (task.status ≠ .open → task'.status ≠ .open) := by
  cases step_stepped hstep with
  | created launchAdmission hnew =>
    obtain ⟨entry, hentry, heq⟩ := h.known id task hget
    refine ⟨task, ?_, fun hstatus => hstatus⟩
    have hne : e.taskId ≠ id := fun hid => hnew entry hentry (heq.trans hid.symm)
    rw [get_set, if_neg hne]
    exact hget
  | deleted old hold hother =>
    refine ⟨task, ?_, fun hstatus => hstatus⟩
    rw [get_delete, if_neg ?_]
    · exact hget
    · rintro rfl
      obtain rfl := some.inj (hold.symm.trans hget)
      exact hother hadmission
  | changed old new hold happly =>
    rw [get_set]
    split
    · next heq =>
      subst heq
      obtain rfl := some.inj (hold.symm.trans hget)
      exact ⟨new, rfl, fun hstatus => apply_probing hadmission hstatus happly⟩
    · exact ⟨task, hget, fun hstatus => hstatus⟩

theorem records_empty : Records empty := by
  constructor <;> intro id task hget <;> cases hget

theorem records_coherent (events : List TaskStep) (s : TaskLifecycle) (hrun : exec step empty events = some s)
    (hok : StepsMeet step CauseReplaces empty events) : Coherent s := by
  have hrecords : Records s := exec_invariant (fun _ _ _ h hok hstep => records_step h hok hstep) records_empty hok hrun
  exact ⟨hrecords.coherent, fun _ _ _ _ hstep hget hadmission => probing_step hrecords hstep hget hadmission⟩

/-- The task is killed, reopened, relaunched and ended by hand. -/
def killedThenEnded (signal : Option String) : List TaskStep :=
  [.createTask none, .startTask, .terminateTask (some ⟨.oom, some "SIGKILL", none⟩) .empty, .reopenTask, .startTask,
    .terminateTask (some ⟨.manual, signal, none⟩) .empty].map fun call => ⟨"t", .epoch, call⟩

theorem records_coherent_killed : ∃ s, exec step empty (killedThenEnded (some "SIGTERM")) = some s ∧
    StepsMeet step CauseReplaces empty (killedThenEnded (some "SIGTERM")) ∧ Coherent s := by
  obtain ⟨s, hrun⟩ : ∃ s, exec step empty (killedThenEnded (some "SIGTERM")) = some s := ⟨_, rfl⟩
  have hok : StepsMeet step CauseReplaces empty (killedThenEnded (some "SIGTERM")) := by decide +kernel
  exact ⟨s, hrun, hok, records_coherent _ s hrun hok⟩

/-- The task ended by hand still says that it was killed. -/
theorem signal_left_over : ¬∀ events s, exec step empty events = some s → Coherent s := by
  intro h
  obtain ⟨s, hrun⟩ : ∃ s, exec step empty (killedThenEnded none) = some s := ⟨_, rfl⟩
  have hsignal : (exec step empty (killedThenEnded none)).all (fun s => (s.tasks.get "t").any fun task =>
      task.terminationSignal = some "SIGKILL" ∧
        ((s.lastCause "t").bind fun cause => filledText (cause.bind signal)) = none) = true := by
    decide +kernel
  rw [hrun, all_some, any_eq_true] at hsignal
  obtain ⟨task, hget, hsignal⟩ := hsignal
  obtain ⟨hleft, hnone⟩ := of_decide_eq_true hsignal
  have hcoherent := ((h _ s hrun).records "t" task hget).signal
  rw [hleft, hnone] at hcoherent
  cases hcoherent

end TaskLifecycle

end Kookr.Core
