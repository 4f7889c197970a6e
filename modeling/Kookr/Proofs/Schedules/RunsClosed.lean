import Kookr.Sanity.Schedules.FireSteps

/-! No row is mid-flight of which the task has ended, in every run in which a task that ends with a row
is the latest one and no task is accepted that has ended. A row that is appended leaves no more rows than
are kept and tasks are live. Closing a row prunes nothing, so that the ledger may keep a row more than
that afterwards. -/

namespace Kookr.Schedules

open Kookr.Lib ScheduleExecutionReceipt List

variable {ν : Type}

/-- A row that is mid-flight was so before, with its id and its task. -/
def PendingFrom (ledger ledger' : List (ScheduleExecutionLedgerEntry ν)) : Prop :=
  ∀ row' ∈ ledger', row'.outcome.isPending = true → ∃ row ∈ ledger, row.outcome.isPending = true ∧ row.id = row'.id ∧ row.taskId = row'.taskId

theorem PendingFrom.refl (ledger : List (ScheduleExecutionLedgerEntry ν)) : PendingFrom ledger ledger :=
  fun row hrow hpending => ⟨row, hrow, hpending, rfl, rfl⟩

theorem pendingFrom_upsert {ledger : List (ScheduleExecutionLedgerEntry ν)} {entry : ScheduleExecutionLedgerEntry ν}
    (hnodup : (ledgerIds ledger).Nodup) (hsettled : entry.outcome.isPending = false) : PendingFrom ledger (upsertLedgerEntry ledger entry) := by
  intro row hrow hpending
  rcases mem_upsertLedgerEntry hnodup hrow with ⟨hmem, -⟩ | ⟨rfl, -⟩ | ⟨old, -, -, rfl⟩
  · exact ⟨row, hmem, hpending, rfl, rfl⟩
  · rw [hsettled] at hpending
    cases hpending
  · have hpending : entry.outcome.isPending = true := hpending
    rw [hsettled] at hpending
    cases hpending

theorem pendingFrom_close {close : ScheduleExecutionLedgerEntry ν → Prop} [DecidablePred close] {patch : LedgerPatch ν}
    (hpatch : patch.outcome.isPending = false) (ledger : List (ScheduleExecutionLedgerEntry ν)) :
    ∀ row' ∈ ledger.map (fun row => if close row then patch.apply row else row), row'.outcome.isPending = true → row' ∈ ledger ∧ ¬close row' := by
  intro row' hrow' hpending
  obtain ⟨row, hrow, rfl⟩ := mem_map.1 hrow'
  split_ifs at hpending ⊢ with hclose
  · have hpending : patch.outcome.isPending = true := hpending
    rw [hpatch] at hpending
    cases hpending
  · exact ⟨hrow, hclose⟩

theorem outcome_isPending (e : Schedule.TaskTerminal ν) : e.outcome.isPending = false := by
  unfold Schedule.TaskTerminal.outcome
  split_ifs <;> rfl

theorem isSkipPointer_of_isPending {outcome : ScheduleExecutionOutcome} (h : outcome.isPending = true) : outcome.isSkipPointer = false := by
  cases outcome with
  | running | queued | queuedCapacity | parkedDependency => rfl
  | _ => cases h

namespace BudgetRun

variable {s s' : BudgetRun ν} {e : BudgetEvent ν}

/-- The task that the fire is writing its row for. -/
def acceptingTask (s : BudgetRun ν) : Option String :=
  match s.fire with
  | some (.accepting _ taskId ..) => some taskId
  | _ => none

theorem acceptingTask_record (s : BudgetRun ν) (schedule? : Option (Schedule ν)) (counted : List ℕ) :
    (s.record schedule? counted).acceptingTask = none := by
  unfold record
  split <;> rfl

theorem acceptingTask_move (hmove : FireMove s e s') {taskId : String} (htask : s'.acceptingTask = some taskId) :
    s.acceptedTask e = some taskId := by
  cases hmove with
  | @goto _ stage fire hfire hnext =>
    cases hnew : fire with
    | none => simp [acceptingTask, hnew] at htask
    | some stage' =>
      have hfollows := hnext stage' hnew
      subst hnew
      cases stage' with
      | accepting => cases stage <;> cases hfollows
      | _ => cases htask
  | outcome | probeCompleted => cases (acceptingTask_record _ _ _).symm.trans htask
  | launched => exact htask
  | retried hfire =>
    simp only [acceptedTask, hfire]
    exact htask

theorem acceptingTask_step (hstep : s.step e = some s') {taskId : String} (htask : s'.acceptingTask = some taskId) :
    s.acceptingTask = some taskId ∨ s.acceptedTask e = some taskId := by
  cases e with
  | fire trigger decision scheduledFor now =>
    cases hstep
    unfold BudgetRun.admitFire at htask
    split at htask
    · exact .inl htask
    · cases htask
  | reserved | outcome | probeCompleted | launched | accepted | settled => exact .inr (acceptingTask_move (fireMove rfl hstep) htask)
  | other write threshold now =>
    simp only [step, Option.ite_none_right_eq_some, Option.map_eq_some_iff] at hstep
    obtain ⟨-, schedule, -, rfl⟩ := hstep
    exact .inl htask
  | taskTerminal terminal threshold now =>
    cases hstep
    exact .inl htask
  | setEnabled enabled operatorHold now =>
    obtain ⟨schedule, -, rfl⟩ := Option.map_eq_some_iff.1 hstep
    exact .inl htask
  | editDefinition definition =>
    obtain ⟨schedule, -, rfl⟩ := hstep
    exact .inl htask

end BudgetRun

namespace LaunchRun

open Schedule BudgetRun

variable {s s' : LaunchRun ν} {e : LaunchEvent ν} {entry : ScheduleExecutionLedgerEntry ν} {taskId : String}

abbrev ledger (s : LaunchRun ν) : List (ScheduleExecutionLedgerEntry ν) := s.run.schedule.executionLedger

/-- No row is mid-flight of which the task has ended. -/
def RunsClosed (s : LaunchRun ν) : Prop :=
  ∀ row ∈ s.ledger, row.outcome.isPending = true → ∀ taskId ∈ row.taskId, taskId ∉ s.ended

instance RunsClosed.decidable (s : LaunchRun ν) : Decidable s.RunsClosed := by
  unfold RunsClosed
  infer_instance

/-- A step leaves the number of rows, or appends one and leaves no more than are kept and tasks are live. -/
def KeepsLength (s s' : LaunchRun ν) : Prop :=
  s'.ledger.length = s.ledger.length ∨ s'.ledger.length ≤ MAX_LEDGER_ENTRIES + s'.live.length

/-- A task with a row that is mid-flight is the latest one when it ends, and no task is accepted that has
ended. -/
def ClosesRuns (s : LaunchRun ν) : LaunchEvent ν → Prop
  | .run (.taskTerminal terminal _ _) =>
    (∃ row ∈ s.ledger, row.outcome.isPending = true ∧ row.taskId = some terminal.taskId) → s.run.schedule.Finds terminal.taskId
  | .run e => ∀ taskId ∈ s.run.acceptedTask e, taskId ∉ s.ended
  | .spawn _ => True

instance ClosesRuns.decidable (s : LaunchRun ν) (e : LaunchEvent ν) : Decidable (s.ClosesRuns e) := by
  unfold ClosesRuns
  split <;> infer_instance

structure Inv (s : LaunchRun ν) : Prop where
  holds : s.run.Holds
  nodup : (ledgerIds s.ledger).Nodup
  live : ∀ row ∈ s.ledger, row.outcome.isPending = true → ∃ taskId ∈ s.live, row.taskId = some taskId
  /-- A task has one row that is mid-flight. -/
  apart : ∀ row ∈ s.ledger, row.outcome.isPending = true → ∀ row' ∈ s.ledger, row'.outcome.isPending = true →
    row.taskId = row'.taskId → row.id = row'.id
  launching : ∀ taskId ∈ s.launching, taskId ∈ s.spawned ∧ ∀ row ∈ s.ledger, row.outcome.isPending = true → row.taskId = some taskId →
    ∀ c ∈ s.run.schedule.currentExecution, row.id = c.ledgerKey
  accepting : ∀ taskId ∈ s.run.acceptingTask, s.launching = some taskId

theorem mem_live : taskId ∈ s.live ↔ taskId ∈ s.spawned ∧ taskId ∉ s.ended := by simp [live]

/-- Every row that is mid-flight has a live task of its own. -/
theorem Inv.length_pending_le (h : Inv s) : (s.ledger.filter isPendingLedgerEntry).length ≤ s.live.length := by
  have htasks : ((s.ledger.filter isPendingLedgerEntry).map ScheduleExecutionLedgerEntry.taskId).Nodup := by
    refine List.Nodup.map_on (fun row hrow row' hrow' htask => ?_) (h.nodup.of_map.filter _)
    obtain ⟨hrow, hpending⟩ := mem_filter.1 hrow
    obtain ⟨hrow', hpending'⟩ := mem_filter.1 hrow'
    exact inj_on_of_nodup_map h.nodup hrow hrow' (h.apart row hrow hpending row' hrow' hpending' htask)
  have hsubset : (s.ledger.filter isPendingLedgerEntry).map ScheduleExecutionLedgerEntry.taskId ⊆ s.live.map some := by
    intro taskId? hmem
    obtain ⟨row, hrow, rfl⟩ := mem_map.1 hmem
    obtain ⟨hrow, hpending⟩ := mem_filter.1 hrow
    obtain ⟨taskId, hlive, htask⟩ := h.live row hrow hpending
    exact mem_map.2 ⟨taskId, hlive, htask.symm⟩
  have hlength := (subperm_of_subset htasks hsubset).length_le
  rwa [length_map, length_map] at hlength

theorem Inv.settles (h : Inv s) (hholds : s'.run.Holds) (hnodup : (ledgerIds s'.ledger).Nodup) (hrows : PendingFrom s.ledger s'.ledger)
    (hspawned : s'.spawned = s.spawned)
    (hended : ∀ row ∈ s'.ledger, row.outcome.isPending = true → ∀ taskId ∈ row.taskId, taskId ∈ s'.ended → taskId ∈ s.ended)
    (hlaunching : s'.launching = none ∨ s'.launching = s.launching ∧
      s'.run.schedule.currentExecution.map ledgerKey = s.run.schedule.currentExecution.map ledgerKey)
    (haccepting : ∀ taskId ∈ s'.run.acceptingTask, s'.launching = some taskId) : Inv s' where
  holds := hholds
  nodup := hnodup
  live row' hrow' hpending' := by
    obtain ⟨row, hrow, hpending, -, htask⟩ := hrows row' hrow' hpending'
    obtain ⟨taskId, hlive, hrowTask⟩ := h.live row hrow hpending
    obtain ⟨hmem, hnot⟩ := mem_live.1 hlive
    have htask' : row'.taskId = some taskId := htask.symm.trans hrowTask
    exact ⟨taskId, mem_live.2 ⟨hspawned ▸ hmem, fun hend => hnot (hended row' hrow' hpending' taskId htask' hend)⟩, htask'⟩
  apart row₁ h₁ hp₁ row₂ h₂ hp₂ htask := by
    obtain ⟨old₁, hold₁, hop₁, hid₁, ht₁⟩ := hrows row₁ h₁ hp₁
    obtain ⟨old₂, hold₂, hop₂, hid₂, ht₂⟩ := hrows row₂ h₂ hp₂
    rw [← hid₁, ← hid₂]
    exact h.apart old₁ hold₁ hop₁ old₂ hold₂ hop₂ (ht₁.trans (htask.trans ht₂.symm))
  launching taskId hmem := by
    rcases hlaunching with hnone | ⟨hsame, hkey⟩
    · rw [hnone] at hmem
      cases hmem
    · obtain ⟨hspawn, hown⟩ := h.launching taskId (hsame ▸ hmem)
      refine ⟨hspawned ▸ hspawn, fun row' hrow' hpending' htask' c hc => ?_⟩
      obtain ⟨row, hrow, hpending, hid, htask⟩ := hrows row' hrow' hpending'
      have hckey := congrArg (Option.map ledgerKey) (Option.mem_def.1 hc)
      rw [hkey] at hckey
      obtain ⟨c', hc', hkey'⟩ := Option.map_eq_some_iff.1 hckey
      rw [← hid, ← hkey']
      exact hown row hrow hpending (htask.trans htask') c' hc'
  accepting := haccepting

theorem Inv.accepts (h : Inv s) {c : ScheduleExecutionReceipt}
    (hc : s.run.schedule.currentExecution = some c) (hown : OwnWrite c entry s.run.schedule s'.run.schedule)
    (hlaunching : s.launching = some taskId) (hrow : entry.taskId = some taskId) (hlive : taskId ∉ s.ended) (hholds : s'.run.Holds)
    (hspawned : s'.spawned = s.spawned) (hended : s'.ended = s.ended) (hlaunching' : s'.launching = s.launching)
    (haccepting : ∀ taskId ∈ s'.run.acceptingTask, s'.launching = some taskId) : Inv s' := by
  obtain ⟨hspawn, hkey⟩ := h.launching taskId hlaunching
  have hrows : ∀ row' ∈ s'.ledger, row'.outcome.isPending = true →
      row'.id = c.ledgerKey ∧ row'.taskId = some taskId ∨ row'.taskId ≠ some taskId ∧ row' ∈ s.ledger := by
    intro row' hrow' hpending'
    have hrow' : row' ∈ upsertLedgerEntry s.ledger entry := hown.ledger ▸ hrow'
    rcases mem_upsertLedgerEntry h.nodup hrow' with ⟨hmem, -⟩ | ⟨rfl, -⟩ | ⟨old, -, -, rfl⟩
    · by_cases htask : row'.taskId = some taskId
      · exact .inl ⟨hkey row' hmem hpending' htask c hc, htask⟩
      · exact .inr ⟨htask, hmem⟩
    · exact .inl ⟨hown.id, hrow⟩
    · exact .inl ⟨hown.id, by simp [ScheduleExecutionLedgerEntry.merged, hrow]⟩
  obtain ⟨taskId?, status, -, hc'⟩ := hown.receipt
  refine ⟨hholds, ?_, fun row' hrow' hpending' => ?_, fun row₁ h₁ hp₁ row₂ h₂ hp₂ htask => ?_, fun taskId' hmem => ?_, haccepting⟩
  · have hnodup : (ledgerIds (upsertLedgerEntry s.ledger entry)).Nodup := nodup_upsertLedgerEntry h.nodup
    rwa [← hown.ledger] at hnodup
  · rcases hrows row' hrow' hpending' with ⟨-, htask⟩ | ⟨-, hmem⟩
    · exact ⟨taskId, mem_live.2 ⟨hspawned ▸ hspawn, hended ▸ hlive⟩, htask⟩
    · obtain ⟨taskId', hlive', htask⟩ := h.live row' hmem hpending'
      exact ⟨taskId', mem_live.2 (hspawned ▸ hended ▸ mem_live.1 hlive'), htask⟩
  · rcases hrows row₁ h₁ hp₁ with ⟨hid₁, ht₁⟩ | ⟨ht₁, hm₁⟩ <;> rcases hrows row₂ h₂ hp₂ with ⟨hid₂, ht₂⟩ | ⟨ht₂, hm₂⟩
    · exact hid₁.trans hid₂.symm
    · exact absurd (htask.symm.trans ht₁) ht₂
    · exact absurd (htask.trans ht₂) ht₁
    · exact h.apart row₁ hm₁ hp₁ row₂ hm₂ hp₂ htask
  · rw [hlaunching', hlaunching] at hmem
    cases hmem
    refine ⟨hspawned ▸ hspawn, fun row' hrow' hpending' htask c' hmem' => ?_⟩
    obtain rfl := Option.some.inj (hc'.symm.trans hmem')
    rcases hrows row' hrow' hpending' with ⟨hid, -⟩ | ⟨hne, -⟩
    · exact hid
    · exact absurd htask hne

theorem fire_of_acceptedTask {run run' : BudgetRun ν} {e : BudgetEvent ν} (hstep : run.step e = some run')
    (htask : run.acceptedTask e = some taskId) : run.fire ≠ none := by
  intro hnone
  unfold acceptedTask at htask
  split at htask
  · simp [BudgetRun.step, hnone] at hstep
  · next hfire => simp [hnone] at hfire
  · cases htask

theorem Inv.launching_of_acceptedTask (h : Inv s) {e : BudgetEvent ν} (hcan : s.canRun e = true)
    (htask : s.run.acceptedTask e = some taskId) : s.launching = some taskId := by
  unfold acceptedTask at htask
  split at htask
  · cases htask
    exact of_decide_eq_true hcan
  · next hfire =>
    rw [Option.ite_none_left_eq_some] at htask
    obtain ⟨-, htask⟩ := htask
    refine h.accepting taskId ?_
    unfold acceptingTask
    rw [hfire]
    exact htask
  · cases htask

theorem inv_quiet (h : Inv s) {e : BudgetEvent ν} {run : BudgetRun ν} (hcan : s.canRun e = true)
    (hok : ∀ taskId ∈ s.run.acceptedTask e, taskId ∉ s.ended) (hstep : s.run.step e = some run)
    (hended : (s.afterRun e run).ended = s.ended) : Inv (s.afterRun e run) := by
  obtain ⟨hholds, hwrites⟩ := holds_step h.holds hstep
  have haccepting : ∀ taskId ∈ run.acceptingTask, (s.afterRun e run).launching = some taskId := by
    intro taskId hmem
    rcases acceptingTask_step hstep hmem with hwas | hnow
    · have hfire : s.run.fire ≠ none := fun hnone => by simp [acceptingTask, hnone] at hwas
      exact (if_neg hfire).trans (h.accepting taskId hwas)
    · exact (if_neg (fire_of_acceptedTask hstep hnow)).trans (h.launching_of_acceptedTask hcan hnow)
  have hlaunching : (s.afterRun e run).launching = none ∨ (s.afterRun e run).launching = s.launching := by
    dsimp only [afterRun]
    split_ifs
    · exact .inl rfl
    · exact .inr rfl
  have hkeeps : run.schedule.currentExecution.map ledgerKey =
      s.run.schedule.currentExecution.map ledgerKey → (ledgerIds run.schedule.executionLedger).Nodup →
      PendingFrom s.ledger run.schedule.executionLedger → Inv (s.afterRun e run) := by
    intro hreceipt hnodup hrows
    refine h.settles hholds hnodup hrows rfl (fun _ _ _ _ _ hmem => hended ▸ hmem) ?_ haccepting
    exact hlaunching.imp_right fun hsame => ⟨hsame, hreceipt⟩
  cases hwrites with
  | reserves hgate hfire hschedule =>
    refine h.settles hholds ?_ ?_ rfl (fun _ _ _ _ _ hmem => hended ▸ hmem) (.inl (if_pos hgate)) haccepting
    · dsimp only [afterRun, ledger]
      rw [hschedule]
      exact h.nodup
    · dsimp only [afterRun, ledger]
      rw [hschedule]
      exact PendingFrom.refl _
  | accepts hgate c entry hc hown taskId htask hrow =>
    have hfire : s.run.fire ≠ none := fire_of_acceptedTask hstep htask
    exact h.accepts hc hown (h.launching_of_acceptedTask hcan htask) hrow (hok taskId htask) hholds rfl hended (if_neg hfire) haccepting
  | records hgate c entry hc hown houtcome =>
    have hsettled : entry.outcome.isPending = false := by
      cases e with
      | outcome result reasonCode blockingTaskId threshold now =>
        obtain rfl : result = entry.outcome := Option.some.inj houtcome
        simpa [canRun] using hcan
      | probeCompleted reasonCode now =>
        obtain houtcome : ScheduleExecutionOutcome.completed = entry.outcome := Option.some.inj houtcome
        rw [← houtcome]
        rfl
      | _ => cases houtcome
    obtain ⟨taskId, status, -, hc'⟩ := hown.receipt
    refine hkeeps (by rw [hc, hc']; rfl) ?_ ?_
    · rw [hown.ledger]
      exact nodup_upsertLedgerEntry h.nodup
    · rw [hown.ledger]
      exact pendingFrom_upsert h.nodup hsettled
  | closes => exact absurd hended (cons_ne_self _ _)
  | frees hgate hfree =>
    cases hfree with
    | keeps hreceipt hledger =>
      refine hkeeps (by rw [hreceipt]) ?_ ?_
      · rw [hledger]
        exact h.nodup
      · rw [hledger]
        exact PendingFrom.refl _
    | appends entry _ hsettled hreceipt hledger =>
      refine hkeeps (by rw [hreceipt]) ?_ ?_
      · rw [hledger]
        exact nodup_upsertLedgerEntry h.nodup
      · rw [hledger]
        exact pendingFrom_upsert h.nodup hsettled

theorem inv_terminal (h : Inv s) {terminal : TaskTerminal ν} {threshold now : ℕ}
    (hok : (∃ row ∈ s.ledger, row.outcome.isPending = true ∧ row.taskId = some terminal.taskId) → s.run.schedule.Finds terminal.taskId) :
    Inv (s.afterRun (.taskTerminal terminal threshold now)
      { s.run with schedule := s.run.schedule.recordTaskTerminalOutcome terminal threshold now }) := by
  have hclosed : ∀ schedule : Schedule ν, schedule = s.run.schedule.recordTaskTerminalOutcome terminal threshold now →
      ledgerIds schedule.executionLedger = ledgerIds s.ledger →
      schedule.currentExecution.map ledgerKey = s.run.schedule.currentExecution.map ledgerKey →
      (∀ row ∈ schedule.executionLedger, row.outcome.isPending = true → row ∈ s.ledger ∧ row.taskId ≠ some terminal.taskId) →
      Inv (s.afterRun (.taskTerminal terminal threshold now) { s.run with schedule }) := by
    rintro schedule rfl hids hreceipt hrows
    refine h.settles (h.holds.closes terminal threshold now) ?_ (fun row hrow hpending => ?_) rfl
      (fun row hrow hpending taskId htask hmem => ?_) ?_ fun taskId hmem => ?_
    · dsimp only [afterRun, ledger]
      rw [hids]
      exact h.nodup
    · exact ⟨row, (hrows row hrow hpending).1, hpending, rfl, rfl⟩
    · rcases mem_cons.1 hmem with rfl | hmem
      · exact absurd htask (hrows row hrow hpending).2
      · exact hmem
    · dsimp only [afterRun]
      split_ifs
      · exact .inl rfl
      · exact .inr ⟨rfl, hreceipt⟩
    · have hmem : taskId ∈ s.run.acceptingTask := hmem
      have hfire : s.run.fire ≠ none := fun hnone => by simp [acceptingTask, hnone] at hmem
      exact (if_neg hfire).trans (h.accepting taskId hmem)
  rcases terminalWrite (s := s.run.schedule) terminal threshold now with ⟨hlost, hsame⟩ | ⟨-, -, hreceipt, hledger⟩ | ⟨-, -, hreceipt, hledger⟩
  · refine hclosed _ rfl (by rw [hsame]) (by rw [hsame]) fun row hrow hpending => ?_
    rw [hsame] at hrow
    exact ⟨hrow, fun htask => hlost (hok ⟨row, hrow, hpending, htask⟩)⟩
  · refine hclosed _ rfl ?_ (by rw [hreceipt]) fun row hrow hpending => ?_
    · rw [hledger]
      exact ledgerIds_of_rows (rowKey_map_close _ _)
    · rw [hledger] at hrow
      obtain ⟨hmem, hnot⟩ := pendingFrom_close (outcome_isPending terminal) _ row hrow hpending
      exact ⟨hmem, fun htask => hnot ⟨htask, isSkipPointer_of_isPending hpending⟩⟩
  · refine hclosed _ rfl ?_ (by rw [hreceipt, Option.map_map]; rfl) fun row hrow hpending => ?_
    · rw [hledger]
      exact ledgerIds_of_rows (rowKey_map_close _ _)
    · rw [hledger] at hrow
      exact pendingFrom_close (outcome_isPending terminal) _ row hrow hpending

theorem inv_step (h : Inv s) (hok : s.ClosesRuns e) (hstep : s.step e = some s') : Inv s' := by
  cases e with
  | run e =>
    simp only [step, Option.ite_none_right_eq_some, Option.map_eq_some_iff] at hstep
    obtain ⟨hcan, run, hrun, rfl⟩ := hstep
    cases e with
    | taskTerminal terminal threshold now =>
      cases hrun
      exact inv_terminal h hok
    | _ => exact inv_quiet h hcan hok hrun rfl
  | spawn taskId =>
    simp only [step, spawn] at hstep
    split at hstep
    · next receipt hfire =>
      rw [Option.ite_none_right_eq_some, Option.some.injEq] at hstep
      obtain ⟨⟨-, hfresh⟩, rfl⟩ := hstep
      refine ⟨h.holds, h.nodup, fun row hrow hpending => ?_, h.apart, fun taskId' hmem => ?_, fun taskId' hmem => ?_⟩
      · obtain ⟨taskId', hlive, htask⟩ := h.live row hrow hpending
        obtain ⟨hspawned, hnot⟩ := mem_live.1 hlive
        exact ⟨taskId', mem_live.2 ⟨mem_cons_of_mem _ hspawned, hnot⟩, htask⟩
      · cases hmem
        refine ⟨mem_cons_self, fun row hrow hpending htask => ?_⟩
        obtain ⟨taskId', hlive, htask'⟩ := h.live row hrow hpending
        obtain rfl := Option.some.inj (htask.symm.trans htask')
        exact absurd (mem_live.1 hlive).1 hfresh
      · simp [acceptingTask, hfire] at hmem
    · cases hstep

theorem inv_start (id : String) (definition : ScheduleDefinition) (enabled : Bool) (maxTriggers : Option ℕ) (now : ℕ) :
    Inv (start id definition enabled maxTriggers now : LaunchRun ν) where
  holds := ⟨fun stage hstage => by cases hstage⟩
  nodup := nodup_nil
  live row hrow := by cases hrow
  apart row hrow := by cases hrow
  launching taskId hmem := by cases hmem
  accepting taskId hmem := by cases hmem

/-- A row that is appended is counted with those that are mid-flight before. -/
theorem Inv.length_upsert_le (h : Inv s) {ledger : List (ScheduleExecutionLedgerEntry ν)}
    (hledger : ledger = upsertLedgerEntry s.ledger entry) :
    ledger.length = s.ledger.length ∨ ledger.length ≤ MAX_LEDGER_ENTRIES + s.live.length := by
  rw [hledger]
  exact (length_upsertLedgerEntry s.ledger entry).imp_right fun hle => Nat.le_trans hle (Nat.add_le_add_left h.length_pending_le _)

theorem length_recordTaskTerminalOutcome (schedule : Schedule ν) (terminal : TaskTerminal ν) (threshold now : ℕ) :
    (schedule.recordTaskTerminalOutcome terminal threshold now).executionLedger.length = schedule.executionLedger.length := by
  rcases terminalWrite (s := schedule) terminal threshold now with ⟨-, hsame⟩ | ⟨-, -, -, hledger⟩ | ⟨-, -, -, hledger⟩
  · rw [hsame]
  · rw [hledger]
    exact length_map _
  · rw [hledger]
    exact length_map _

theorem length_step (h : Inv s) (hstep : s.step e = some s') : s.KeepsLength s' := by
  cases e with
  | spawn taskId =>
    simp only [step, spawn] at hstep
    split at hstep
    · rw [Option.ite_none_right_eq_some, Option.some.injEq] at hstep
      obtain ⟨-, rfl⟩ := hstep
      exact .inl rfl
    · cases hstep
  | run e =>
    simp only [step, Option.ite_none_right_eq_some, Option.map_eq_some_iff] at hstep
    obtain ⟨-, run, hrun, rfl⟩ := hstep
    have hquiet : (s.afterRun e run).live = s.live → s.KeepsLength (s.afterRun e run) := by
      intro hlive
      unfold KeepsLength
      rw [hlive]
      cases (holds_step h.holds hrun).2 with
      | reserves hgate hfire hschedule =>
        dsimp only [afterRun, ledger]
        rw [hschedule]
        exact .inl rfl
      | accepts hgate c entry hc hown | records hgate c entry hc hown => exact h.length_upsert_le hown.ledger
      | closes hfire hschedule =>
        dsimp only [afterRun, ledger]
        rw [hschedule]
        exact .inl (length_recordTaskTerminalOutcome _ _ _ _)
      | frees hgate hfree =>
        cases hfree with
        | keeps hreceipt hledger => exact .inl (congrArg length hledger)
        | appends entry _ _ _ hledger => exact h.length_upsert_le hledger
    cases e with
    | taskTerminal terminal threshold now =>
      cases hrun
      exact .inl (length_recordTaskTerminalOutcome _ _ _ _)
    | _ => exact hquiet rfl

theorem runs_closed (id : String) (definition : ScheduleDefinition) (enabled : Bool) (maxTriggers : Option ℕ) (now : ℕ)
    (events : List (LaunchEvent ν)) (s : LaunchRun ν) (hrun : exec step (start id definition enabled maxTriggers now) events = some s)
    (hok : StepsMeet step ClosesRuns (start id definition enabled maxTriggers now) events) :
    s.RunsClosed ∧ ∀ e s', s.step e = some s' → s.KeepsLength s' := by
  have h : Inv s := exec_invariant (fun _ _ _ => inv_step) (inv_start id definition enabled maxTriggers now) hok hrun
  refine ⟨fun row hrow hpending taskId htask => ?_, fun e s' => length_step h⟩
  obtain ⟨taskId', hlive, htask'⟩ := h.live row hrow hpending
  obtain rfl := Option.some.inj (htask.symm.trans htask')
  exact (mem_live.1 hlive).2

def finishedRun : List (LaunchEvent ℕ) :=
  [.run (.fire .cron .cronDue (some 5) 5), .run (.reserved true), .spawn "t", .run (.launched "t" false false none 5),
    .run (.accepted true 5), .run .settled, .run (.taskTerminal ⟨"t", true, none, false, ⟨none, none, none⟩⟩ 0 6)]

theorem runs_closed_finishedRun : ∃ s : LaunchRun ℕ,
    exec step (start "s" ⟨"* * * * *", false, false⟩ true none 0) finishedRun = some s ∧
      StepsMeet step ClosesRuns (start "s" ⟨"* * * * *", false, false⟩ true none 0 : LaunchRun ℕ) finishedRun ∧
      (s.RunsClosed ∧ ∀ e s', s.step e = some s' → s.KeepsLength s') := by
  obtain ⟨s, hrun⟩ : ∃ s : LaunchRun ℕ, exec step (start "s" ⟨"* * * * *", false, false⟩ true none 0) finishedRun = some s := ⟨_, rfl⟩
  have hok : StepsMeet step ClosesRuns (start "s" ⟨"* * * * *", false, false⟩ true none 0 : LaunchRun ℕ) finishedRun := by
    decide +kernel
  exact ⟨s, hrun, hok, runs_closed _ _ _ _ 0 _ s hrun hok⟩

def earlyRun : List (LaunchEvent ℕ) :=
  [.run (.fire .cron .cronDue (some 5) 5), .run (.reserved true), .spawn "t",
    .run (.taskTerminal ⟨"t", true, none, false, ⟨none, none, none⟩⟩ 0 5), .run (.launched "t" false false none 5), .run (.accepted true 5),
    .run .settled]

theorem upsertLedgerEntry_append {row : ScheduleExecutionLedgerEntry ν} {rest : List (ScheduleExecutionLedgerEntry ν)}
    (hpending : row.outcome.isPending = true) (hnew : entry.id ∉ ledgerIds (row :: rest))
    (hlength : (row :: rest).length ≤ MAX_LEDGER_ENTRIES) : upsertLedgerEntry (row :: rest) entry = row :: rest ++ [entry] := by
  have hconcat : (row :: rest ++ [entry]).length = (row :: rest).length + 1 := by simp
  unfold upsertLedgerEntry pruneExecutionLedger
  rw [if_neg hnew]
  split_ifs with hfits
  · rfl
  · have hcutoff : (row :: rest ++ [entry]).length - MAX_LEDGER_ENTRIES = 1 := by omega
    rw [hcutoff]
    simp [isPendingLedgerEntry, hpending]

def withLedger (s : LaunchRun ν) (executionLedger : List (ScheduleExecutionLedgerEntry ν)) (receipts : ℕ) : LaunchRun ν :=
  { s with run := { s.run with schedule := { s.run.schedule with executionLedger }, receipts } }

abbrev overlap : LaunchEvent ν := .run (.fire .manual .manualRun none 6)

/-- Fires that are kept out fill the ledger behind the row of the fire that is under way. -/
theorem exec_overlaps {row : ScheduleExecutionLedgerEntry ν} (hpending : row.outcome.isPending = true) (hid : ∀ n, row.id ≠ .uuid n) :
    ∀ (k : ℕ) (s : LaunchRun ν) (rest : List (ScheduleExecutionLedgerEntry ν)), s.run.fire.isSome → s.ledger = row :: rest →
      (∀ row' ∈ rest, row'.outcome.isPending = false ∧ ∃ n < s.run.receipts, row'.id = .uuid n) → rest.length + k ≤ MAX_LEDGER_ENTRIES →
      ∃ rest', exec step s (replicate k overlap) = some (s.withLedger (row :: rest') (s.run.receipts + k)) ∧
        rest'.length = rest.length + k ∧ ∀ row' ∈ rest', row'.outcome.isPending = false := by
  intro k
  induction k with
  | zero =>
    intro s rest _ hledger hrest _
    refine ⟨rest, ?_, rfl, fun row' hrow' => (hrest row' hrow').1⟩
    rw [← hledger]
    rfl
  | succ k ih =>
    intro s rest hfire hledger hrest hlength
    obtain ⟨stage, hstage⟩ := Option.isSome_iff_exists.1 hfire
    obtain ⟨entry, hwrite, hentry, hsettled⟩ : ∃ entry : ScheduleExecutionLedgerEntry ν,
        s.run.schedule.recordOverlapSkipped s.run.receipts .manual .manualRun none 6 =
          { s.run.schedule with executionLedger := upsertLedgerEntry s.ledger entry } ∧
        entry.id = .uuid s.run.receipts ∧ entry.outcome.isPending = false := ⟨_, rfl, rfl, rfl⟩
    have hnew : entry.id ∉ ledgerIds (row :: rest) := by
      rw [hentry, ledgerIds, map_cons, mem_cons, mem_map, not_or]
      refine ⟨fun heq => hid _ heq.symm, ?_⟩
      rintro ⟨row', hrow', heq⟩
      obtain ⟨-, n, hn, hid'⟩ := hrest row' hrow'
      rw [hid'] at heq
      cases heq
      exact Nat.lt_irrefl _ hn
    rw [hledger, upsertLedgerEntry_append hpending hnew (by rw [length_cons]; omega)] at hwrite
    have hstep : step s overlap = some (s.withLedger (row :: (rest ++ [entry])) (s.run.receipts + 1)) := by
      simp [step, canRun, BudgetRun.step, BudgetRun.admitFire, hstage, hwrite, afterRun, withLedger]
    have hrest₁ : ∀ row' ∈ rest ++ [entry], row'.outcome.isPending = false ∧ ∃ n < s.run.receipts + 1, row'.id = .uuid n := by
      intro row' hrow'
      rcases mem_append.1 hrow' with hmem | hmem
      · obtain ⟨hrow, n, hn, hid'⟩ := hrest row' hmem
        exact ⟨hrow, n, Nat.lt_succ_of_lt hn, hid'⟩
      · obtain rfl := mem_singleton.1 hmem
        exact ⟨hsettled, _, Nat.lt_succ_self _, hentry⟩
    have hlength₁ : (rest ++ [entry]).length + k ≤ MAX_LEDGER_ENTRIES := by
      rw [length_append, length_singleton]
      omega
    obtain ⟨rest', hexec, hlength', hrest'⟩ :=
      ih (s.withLedger (row :: (rest ++ [entry])) (s.run.receipts + 1)) (rest ++ [entry]) hfire rfl hrest₁ hlength₁
    refine ⟨rest', ?_, ?_, hrest'⟩
    · rw [replicate_succ, exec_cons_eq_some]
      refine ⟨_, hstep, hexec.trans ?_⟩
      have hcount : s.run.receipts + 1 + k = s.run.receipts + (k + 1) := by omega
      rw [← hcount]
      rfl
    · rw [hlength', length_append, length_singleton]
      omega

/-- The row of the fire whose task is `t`. -/
def boundRow : ScheduleExecutionLedgerEntry ℕ :=
  ⟨.slot .cron 5, some 0, .cron, .cronDue, some 5, 5, some 5, .running, some .none, some "t", none, ⟨none, none, none⟩⟩

/-- The fire whose task is `t` still holds the gate. -/
def boundState : LaunchRun ℕ :=
  (exec step (start "s" ⟨"* * * * *", false, false⟩ true none 0) (finishedRun.take 5)).getD (start "s" ⟨"* * * * *", false, false⟩ true none 0)

/-- A task that ends too early leaves its row mid-flight. And where every row is closed, more rows may be
left than are kept, of a task that was mid-flight when the last of them was appended. -/
theorem finished_run_left_open :
    (¬∀ (events : List (LaunchEvent ℕ)) (s : LaunchRun ℕ), exec step (start "s" ⟨"* * * * *", false, false⟩ true none 0) events = some s →
      s.run.fire = none → s.RunsClosed) ∧
    ¬∀ (events : List (LaunchEvent ℕ)) (s : LaunchRun ℕ), exec step (start "s" ⟨"* * * * *", false, false⟩ true none 0) events = some s →
      s.run.fire = none → s.RunsClosed → s.ledger.length ≤ MAX_LEDGER_ENTRIES + s.live.length := by
  constructor
  · intro h
    obtain ⟨s, hrun⟩ : ∃ s : LaunchRun ℕ, exec step (start "s" ⟨"* * * * *", false, false⟩ true none 0) earlyRun = some s := ⟨_, rfl⟩
    have hopen : (exec step (start "s" ⟨"* * * * *", false, false⟩ true none 0 : LaunchRun ℕ) earlyRun).all (fun s =>
        s.run.fire.isNone && decide (¬s.RunsClosed)) = true := by
      decide +kernel
    rw [hrun, Option.all_some, Bool.and_eq_true, Option.isNone_iff_eq_none, decide_eq_true_eq] at hopen
    exact hopen.2 (h earlyRun s hrun hopen.1)
  · intro h
    have hbound : exec step (start "s" ⟨"* * * * *", false, false⟩ true none 0) (finishedRun.take 5) = some boundState := rfl
    have hpending : boundRow.outcome.isPending = true := rfl
    obtain ⟨rest, hoverlaps, hlength, hrest⟩ := exec_overlaps hpending nofun 500 boundState [] rfl rfl
      (fun row hrow => by cases hrow) (by unfold MAX_LEDGER_ENTRIES; decide)
    obtain ⟨s, hends, hfire, hledger, hlive⟩ : ∃ s, exec step (boundState.withLedger (boundRow :: rest) 501)
        [.run .settled, .run (.taskTerminal ⟨"t", true, none, false, ⟨none, none, none⟩⟩ 0 6)] = some s ∧ s.run.fire = none ∧
        s.ledger = updateLedgerEntryForTask (boundRow :: rest) "t" ⟨.completed, .none, 6, ⟨none, none, none⟩⟩ ∧ s.live = [] :=
      ⟨_, rfl, rfl, rfl, rfl⟩
    have hrun : exec step (start "s" ⟨"* * * * *", false, false⟩ true none 0) (finishedRun.take 5 ++ replicate 500 overlap ++
        [.run .settled, .run (.taskTerminal ⟨"t", true, none, false, ⟨none, none, none⟩⟩ 0 6)]) = some s :=
      exec_append_eq_some.2 ⟨_, exec_append_eq_some.2 ⟨_, hbound, hoverlaps⟩, hends⟩
    have hclosed : s.RunsClosed := by
      intro row hrow hpending
      rw [hledger] at hrow
      obtain ⟨hmem, htask⟩ := pendingFrom_close rfl _ row hrow hpending
      rcases mem_cons.1 hmem with rfl | hmem
      · exact absurd rfl htask
      · rw [hrest row hmem] at hpending
        cases hpending
    have hle := h _ s hrun hfire hclosed
    rw [hledger, hlive, updateLedgerEntryForTask, length_map, length_cons, hlength, length_nil, length_nil,
      MAX_LEDGER_ENTRIES] at hle
    omega

end LaunchRun

end Kookr.Schedules
