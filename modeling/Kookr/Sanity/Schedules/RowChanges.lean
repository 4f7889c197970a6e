import Kookr.Spec.Schedules.ScheduleService
import Mathlib.Data.List.Nodup
import Mathlib.Tactic.SplitIfs
import Mathlib.Data.Option.Basic

/-! What the writes of the ledger do to its rows and their ids. A row is appended at the end, a row that
is there keeps its place, and the newest rows are never pruned. -/

namespace Kookr.Schedules

variable {ν : Type} {ledger : List (ScheduleExecutionLedgerEntry ν)} {entry row : ScheduleExecutionLedgerEntry ν}
  {id : LedgerKey} {appended ids : List LedgerKey}

abbrev ledgerIds (ledger : List (ScheduleExecutionLedgerEntry ν)) : List LedgerKey := ledger.map ScheduleExecutionLedgerEntry.id

/-- What a row is known by. -/
abbrev rowKey (row : ScheduleExecutionLedgerEntry ν) : LedgerKey × Option ℕ := (row.id, row.receiptId)

theorem ledgerIds_of_rows {ledger ledger' : List (ScheduleExecutionLedgerEntry ν)} (h : ledger'.map rowKey = ledger.map rowKey) :
    ledgerIds ledger' = ledgerIds ledger := by
  have hfst := congrArg (List.map Prod.fst) h
  rwa [List.map_map, List.map_map] at hfst

theorem rowKey_map_close {close : ScheduleExecutionLedgerEntry ν → Prop} [DecidablePred close] (patch : LedgerPatch ν)
    (ledger : List (ScheduleExecutionLedgerEntry ν)) :
    (ledger.map fun row => if close row then patch.apply row else row).map rowKey = ledger.map rowKey := by
  rw [List.map_map]
  refine List.map_congr_left fun row _ => ?_
  dsimp only [Function.comp]
  split_ifs <;> rfl

theorem ledgerIds_updateLedgerEntry (entry : ScheduleExecutionLedgerEntry ν) (ledger : List (ScheduleExecutionLedgerEntry ν)) :
    ledgerIds (updateLedgerEntry entry ledger) = ledgerIds ledger := by
  induction ledger with
  | nil => rfl
  | cons candidate rest ih =>
    unfold updateLedgerEntry
    split
    · next heq => simp [ScheduleExecutionLedgerEntry.merged, heq]
    · simpa using ih

/-- Of two rows with one id the first is updated, so there must not be two. -/
theorem mem_updateLedgerEntry (hnodup : (ledgerIds ledger).Nodup) (h : row ∈ updateLedgerEntry entry ledger) :
    row ∈ ledger ∧ row.id ≠ entry.id ∨ ∃ old ∈ ledger, old.id = entry.id ∧ row = entry.merged old := by
  induction ledger with
  | nil => cases h
  | cons candidate rest ih =>
    obtain ⟨hnew, hrest⟩ := List.nodup_cons.1 hnodup
    unfold updateLedgerEntry at h
    split at h
    · next heq =>
      rcases List.mem_cons.1 h with rfl | h
      · exact .inr ⟨candidate, List.mem_cons_self, heq, rfl⟩
      · refine .inl ⟨List.mem_cons_of_mem _ h, fun hid => hnew ?_⟩
        rw [heq, ← hid]
        exact List.mem_map_of_mem h
    · next hne =>
      rcases List.mem_cons.1 h with rfl | h
      · exact .inl ⟨List.mem_cons_self, hne⟩
      · rcases ih hrest h with ⟨hmem, hid⟩ | ⟨old, hold, hid, hrow⟩
        · exact .inl ⟨List.mem_cons_of_mem _ hmem, hid⟩
        · exact .inr ⟨old, List.mem_cons_of_mem _ hold, hid, hrow⟩

theorem pruneExecutionLedger_sublist (ledger : List (ScheduleExecutionLedgerEntry ν)) : (pruneExecutionLedger ledger).Sublist ledger := by
  unfold pruneExecutionLedger
  split
  · exact List.Sublist.refl _
  · calc ((ledger.take (ledger.length - MAX_LEDGER_ENTRIES)).filter isPendingLedgerEntry ++ ledger.drop (ledger.length - MAX_LEDGER_ENTRIES)).Sublist
          (ledger.take (ledger.length - MAX_LEDGER_ENTRIES) ++ ledger.drop (ledger.length - MAX_LEDGER_ENTRIES)) :=
          List.Sublist.append List.filter_sublist (List.Sublist.refl _)
      _ = ledger := List.take_append_drop _ _

theorem suffix_pruneExecutionLedger (h : ids <:+ ledgerIds ledger) (hlength : ids.length ≤ MAX_LEDGER_ENTRIES) :
    ids <:+ ledgerIds (pruneExecutionLedger ledger) := by
  unfold pruneExecutionLedger
  split
  · exact h
  · have hdrop : ids <:+ ledgerIds (ledger.drop (ledger.length - MAX_LEDGER_ENTRIES)) := by
      rw [ledgerIds, List.map_drop]
      refine List.suffix_of_suffix_length_le h (List.drop_suffix _ _) ?_
      rw [List.length_drop, List.length_map]
      omega
    rw [ledgerIds, List.map_append]
    exact List.suffix_append_of_suffix hdrop

theorem pruneExecutionLedger_concat (ledger : List (ScheduleExecutionLedgerEntry ν)) (entry : ScheduleExecutionLedgerEntry ν) :
    ∃ kept, kept.Sublist ledger ∧ pruneExecutionLedger (ledger ++ [entry]) = kept ++ [entry] := by
  unfold pruneExecutionLedger
  split
  · exact ⟨ledger, List.Sublist.refl _, rfl⟩
  · have hcutoff : (ledger ++ [entry]).length - MAX_LEDGER_ENTRIES ≤ ledger.length := by
      rw [List.length_append, List.length_singleton]
      unfold MAX_LEDGER_ENTRIES
      omega
    dsimp only
    rw [List.take_append_of_le_length hcutoff, List.drop_append_of_le_length hcutoff, ← List.append_assoc]
    refine ⟨_, ?_, rfl⟩
    calc ((ledger.take _).filter isPendingLedgerEntry ++ ledger.drop _).Sublist (ledger.take _ ++ ledger.drop _) :=
          List.Sublist.append List.filter_sublist (List.Sublist.refl _)
      _ = ledger := List.take_append_drop _ _

/-- What is pruned leaves the rows that are mid-flight, and as many others as are kept. -/
theorem length_pruneExecutionLedger_concat (ledger : List (ScheduleExecutionLedgerEntry ν)) (entry : ScheduleExecutionLedgerEntry ν) :
    (pruneExecutionLedger (ledger ++ [entry])).length ≤ MAX_LEDGER_ENTRIES + (ledger.filter isPendingLedgerEntry).length := by
  unfold pruneExecutionLedger
  split
  · omega
  · have hcutoff : (ledger ++ [entry]).length - MAX_LEDGER_ENTRIES ≤ ledger.length := by
      rw [List.length_append, List.length_singleton]
      unfold MAX_LEDGER_ENTRIES
      omega
    have hpending := ((List.take_sublist ((ledger ++ [entry]).length - MAX_LEDGER_ENTRIES) ledger).filter isPendingLedgerEntry).length_le
    dsimp only
    rw [List.take_append_of_le_length hcutoff, List.length_append, List.length_drop]
    omega

theorem length_upsertLedgerEntry (ledger : List (ScheduleExecutionLedgerEntry ν)) (entry : ScheduleExecutionLedgerEntry ν) :
    (upsertLedgerEntry ledger entry).length = ledger.length ∨
      (upsertLedgerEntry ledger entry).length ≤ MAX_LEDGER_ENTRIES + (ledger.filter isPendingLedgerEntry).length := by
  unfold upsertLedgerEntry
  split
  · have hids := congrArg List.length (ledgerIds_updateLedgerEntry entry ledger)
    rw [List.length_map, List.length_map] at hids
    exact .inl hids
  · exact .inr (length_pruneExecutionLedger_concat ledger entry)

theorem nodup_upsertLedgerEntry (hnodup : (ledgerIds ledger).Nodup) : (ledgerIds (upsertLedgerEntry ledger entry)).Nodup := by
  unfold upsertLedgerEntry
  split
  · rwa [ledgerIds_updateLedgerEntry]
  · next hnew =>
    refine List.Nodup.sublist ((pruneExecutionLedger_sublist _).map _) ?_
    rw [List.map_append, List.nodup_append]
    refine ⟨hnodup, List.nodup_singleton _, fun id hid id' hid' => ?_⟩
    rintro rfl
    rw [List.map_singleton, List.mem_singleton] at hid'
    exact hnew (hid' ▸ hid)

theorem mem_upsertLedgerEntry (hnodup : (ledgerIds ledger).Nodup) (h : row ∈ upsertLedgerEntry ledger entry) :
    row ∈ ledger ∧ row.id ≠ entry.id ∨ row = entry ∧ entry.id ∉ ledgerIds ledger ∨
      ∃ old ∈ ledger, old.id = entry.id ∧ row = entry.merged old := by
  unfold upsertLedgerEntry at h
  split at h
  · exact (mem_updateLedgerEntry hnodup h).imp_right .inr
  · next hnew =>
    rcases List.mem_append.1 ((pruneExecutionLedger_sublist _).subset h) with hmem | hmem
    · exact .inl ⟨hmem, fun hid => hnew (hid ▸ List.mem_map_of_mem hmem)⟩
    · exact .inr (.inl ⟨List.mem_singleton.1 hmem, hnew⟩)

theorem newIds_upsertLedgerEntry (ledger : List (ScheduleExecutionLedgerEntry ν)) (entry : ScheduleExecutionLedgerEntry ν) :
    ((ledgerIds (upsertLedgerEntry ledger entry)).filter fun id => id ∉ ledgerIds ledger) =
      if entry.id ∈ ledgerIds ledger then [] else [entry.id] := by
  unfold upsertLedgerEntry
  split
  · rw [ledgerIds_updateLedgerEntry]
    exact List.filter_eq_nil_iff.2 fun id hid => by simpa using hid
  · next hnew =>
    obtain ⟨kept, hkept, hprune⟩ := pruneExecutionLedger_concat ledger entry
    have hnil : (ledgerIds kept).filter (fun id => id ∉ ledgerIds ledger) = [] :=
      List.filter_eq_nil_iff.2 fun id hid => by simpa using (hkept.map ScheduleExecutionLedgerEntry.id).subset hid
    have hids : ledgerIds (kept ++ [entry]) = ledgerIds kept ++ [entry.id] := by
      rw [ledgerIds, List.map_append]
      rfl
    rw [hprune, hids, List.filter_append, hnil]
    simpa using hnew

/-- The rows appended last are in the ledger. -/
def KeepsNewest (appended : List LedgerKey) (ledger : List (ScheduleExecutionLedgerEntry ν)) : Prop :=
  ∀ ids, ids <:+ appended → ids.length ≤ MAX_LEDGER_ENTRIES → ids <:+ ledgerIds ledger

theorem KeepsNewest.prune (h : KeepsNewest appended ledger) : KeepsNewest appended (pruneExecutionLedger ledger) :=
  fun ids hids hlength => suffix_pruneExecutionLedger (h ids hids hlength) hlength

theorem KeepsNewest.upsert (h : KeepsNewest appended ledger) (entry : ScheduleExecutionLedgerEntry ν) :
    KeepsNewest (appended ++ if entry.id ∈ ledgerIds ledger then [] else [entry.id]) (upsertLedgerEntry ledger entry) := by
  unfold upsertLedgerEntry
  split
  · rw [List.append_nil]
    intro ids hids hlength
    rw [ledgerIds_updateLedgerEntry]
    exact h ids hids hlength
  · intro ids hids hlength
    refine suffix_pruneExecutionLedger ?_ hlength
    rw [ledgerIds, List.map_append, List.map_singleton, List.suffix_concat_iff]
    rcases List.suffix_concat_iff.1 hids with rfl | ⟨newest, rfl, hnewest⟩
    · exact .inl rfl
    · rw [List.length_append] at hlength
      exact .inr ⟨newest, rfl, h newest hnewest (Nat.le_of_add_right_le hlength)⟩

/-- A row that was pruned has as many rows after it as are kept. -/
theorem KeepsNewest.pruned {n : ℕ} (h : KeepsNewest appended ledger) (happended : id ∈ appended.drop n) (hgone : id ∉ ledgerIds ledger) :
    MAX_LEDGER_ENTRIES < appended.length - n := by
  by_contra hfew
  rw [Nat.not_lt, ← List.length_drop] at hfew
  exact hgone ((h _ (List.drop_suffix n appended) hfew).subset happended)

end Kookr.Schedules

/-! What the calls of the service may do to whether a schedule fires. A fire, a catch-up and the end of
a task enable nothing and leave the hold of a disabled schedule, and each call keeps the parts of a row
that say why it is disabled in step with each other. -/

namespace Kookr.Schedules

open Kookr.Lib

variable {ν : Type}

namespace Schedule

variable {s s' s'' : Schedule ν}

def Unheld (s : Schedule ν) : Prop := s.operatorHold = false ∧ s.holdSource = none ∧ s.heldAt = none

instance Unheld.decidable (s : Schedule ν) : Decidable s.Unheld := by
  unfold Unheld
  infer_instance

/-- What an enabled schedule is. -/
def Ready (s : Schedule ν) : Prop := s.isTriggerLimitExhausted = false ∧ s.stopReason = none ∧ s.Unheld

def Coherent (s : Schedule ν) : Prop :=
  (s.enabled = true → s.Ready) ∧ (s.stopReason = some .triggerLimitReached → s.isTriggerLimitExhausted = true)

structure Parks (s s' : Schedule ν) : Prop where
  id : s'.id = s.id
  enabled : s'.enabled = true → s.enabled = true
  hold : s.enabled = false → s'.operatorHold = s.operatorHold ∧ s'.holdSource = s.holdSource ∧ s'.heldAt = s.heldAt
  coherent : s.Coherent → s'.Coherent

theorem Parks.refl (s : Schedule ν) : Parks s s := ⟨rfl, fun h => h, fun _ => ⟨rfl, rfl, rfl⟩, fun h => h⟩

theorem Parks.trans (h : Parks s s') (h' : Parks s' s'') : Parks s s'' where
  id := h'.id.trans h.id
  enabled hs := h.enabled (h'.enabled hs)
  hold hs := by
    have hs' : s'.enabled = false := by
      rw [← Bool.not_eq_true] at hs ⊢
      exact fun henabled => hs (h.enabled henabled)
    obtain ⟨h₁, h₂, h₃⟩ := h.hold hs
    obtain ⟨h₁', h₂', h₃'⟩ := h'.hold hs'
    exact ⟨h₁'.trans h₁, h₂'.trans h₂, h₃'.trans h₃⟩
  coherent hs := h'.coherent (h.coherent hs)

theorem Parks.same (lastScheduledFor : Option ℕ) (latestExecution : Option ScheduleLatestExecutionStatus)
    (currentExecution : Option ScheduleExecutionReceipt) (executionLedger : List (ScheduleExecutionLedgerEntry ν)) (consecutiveFailures : ℕ) :
    Parks s { s with lastScheduledFor, latestExecution, currentExecution, executionLedger, consecutiveFailures } :=
  ⟨rfl, fun h => h, fun _ => ⟨rfl, rfl, rfl⟩, fun h => h⟩

theorem Parks.autoPaused (hid : s'.id = s.id) (hs : s.enabled = true) (now : ℕ) : Parks s (s'.autoPaused now) where
  id := hid
  enabled h := by cases h
  hold h := by simp [hs] at h
  coherent _ := ⟨nofun, nofun⟩

theorem enabled_of_autoPauses {consecutiveFailures threshold : ℕ} (h : s.autoPauses consecutiveFailures threshold = true) :
    s.enabled = true := by
  simp only [autoPauses, shouldAutoPauseForConsecutiveFailures, Bool.and_eq_true] at h
  exact h.1.2.1.1

theorem Parks.consumeCronTrigger (trigger : ScheduleExecutionTrigger) (shouldConsume : Bool) (now : ℕ) :
    Parks s (s.consumeCronTrigger trigger shouldConsume now) := by
  unfold Schedule.consumeCronTrigger
  split
  · exact Parks.refl s
  · next maxTriggers hmax =>
    dsimp only
    split_ifs with hskip hlast
    · exact Parks.refl s
    · refine ⟨rfl, nofun, fun _ => ⟨rfl, rfl, rfl⟩, fun _ => ⟨nofun, fun _ => ?_⟩⟩
      simp [isTriggerLimitExhausted, hmax, hlast]
    · refine ⟨rfl, fun h => h, fun _ => ⟨rfl, rfl, rfl⟩, fun h => ⟨fun henabled => ?_, nofun⟩⟩
      obtain ⟨-, -, hhold⟩ := h.1 henabled
      refine ⟨?_, rfl, hhold⟩
      simp [isTriggerLimitExhausted, hmax, hlast]

theorem Parks.markCronLimitExhausted (now : ℕ) : Parks s (s.markCronLimitExhausted now) := by
  unfold Schedule.markCronLimitExhausted
  split_ifs with hleft hmarked
  · exact Parks.refl s
  · exact Parks.refl s
  · refine ⟨rfl, nofun, fun _ => ⟨rfl, rfl, rfl⟩, fun _ => ⟨nofun, fun _ => ?_⟩⟩
    exact eq_true_of_ne_false hleft

theorem Parks.pause (h : Parks s s') {consecutiveFailures threshold now : ℕ} :
    Parks s (if s.autoPauses consecutiveFailures threshold then s'.autoPaused now else s') := by
  split_ifs with hpauses
  · exact Parks.autoPaused h.id (enabled_of_autoPauses hpauses) now
  · exact h

theorem Parks.recordTaskTerminalOutcome (e : TaskTerminal ν) (threshold now : ℕ) :
    Parks s (s.recordTaskTerminalOutcome e threshold now) := by
  unfold Schedule.recordTaskTerminalOutcome
  split
  · exact Parks.refl s
  · split
    · exact Parks.refl s
    split
    · exact Parks.refl s
    split
    · exact Parks.same ..
    · exact (Parks.same ..).pause

theorem Parks.fireWrite {write : FireWrite} {threshold now : ℕ} (h : write.apply threshold now s = some s') : Parks s s' := by
  cases write with
  | markExecutionAccepted reserved taskId queued dependencyParked reasonCode =>
    cases h
    exact (Parks.consumeCronTrigger _ _ _).trans (Parks.same ..)
  | markExecutionOutcome receiptId outcome reasonCode blockingTaskId =>
    obtain ⟨receipt, -, rfl⟩ := Option.map_eq_some_iff.1 h
    exact ((Parks.consumeCronTrigger _ _ _).trans (Parks.same ..)).pause
  | markProbeCompleted receiptId reasonCode =>
    obtain ⟨receipt, -, rfl⟩ := Option.map_eq_some_iff.1 h
    exact (Parks.consumeCronTrigger _ _ _).trans (Parks.same ..)
  | markCronLimitExhausted =>
    cases h
    exact Parks.markCronLimitExhausted now
  | reserveExecution | recordOverlapSkipped | recordCatchUpSkipped | recordCatchUpDeferred | recordCatchUpLeaseDenied | suppressCatchUp =>
    cases h
    exact Parks.same ..

theorem setEnabled_true (operatorHold : Option Bool) (now : ℕ) :
    s.setEnabled true operatorHold now =
      if s.isTriggerLimitExhausted then none
      else some { s.released with
        enabled := true
        consecutiveFailures := 0
        stopReason := if s.stopReason = some .consecutiveFailures then none else s.stopReason } := by
  unfold setEnabled storeSetEnabled
  dsimp only [released]
  simp only [Bool.true_and, if_true]
  split_ifs with hleft hpaused hreason hreason
  · rfl
  · rfl
  · rfl
  · simp [hreason] at hpaused
  · simp only [Bool.or_eq_true, decide_eq_true_eq, not_or, Nat.not_lt, Nat.le_zero] at hpaused
    rw [hpaused.1]

theorem setEnabled_false (operatorHold : Option Bool) (now : ℕ) : ∃ hold source heldAt, s.setEnabled false operatorHold now =
      some { s with enabled := false, operatorHold := hold, holdSource := source, heldAt := heldAt } := by
  unfold setEnabled storeSetEnabled
  rcases operatorHold with _ | _ | _
  · by_cases hcritical : s.definition.criticalAllowlisted = true
    · exact ⟨true, some .operator, some now, by simp [hcritical, held]⟩
    · exact ⟨s.operatorHold, s.holdSource, s.heldAt, by simp [hcritical]⟩
  · exact ⟨false, none, none, rfl⟩
  · exact ⟨true, some .operator, some now, rfl⟩

theorem setEnabled_id {enabled : Bool} {operatorHold : Option Bool} {now : ℕ} (h : s.setEnabled enabled operatorHold now = some s') :
    s'.id = s.id := by
  cases enabled with
  | false =>
    obtain ⟨hold, source, heldAt, hfalse⟩ := setEnabled_false (s := s) operatorHold now
    obtain rfl := Option.some.inj (hfalse.symm.trans h)
    rfl
  | true =>
    rw [setEnabled_true, Option.ite_none_left_eq_some, Option.some.injEq] at h
    obtain ⟨-, rfl⟩ := h
    rfl

end Schedule

end Kookr.Schedules

/-! A call changes rows one by one. What it may do to a row holds of all of them, and a row comes and
goes by its id only. -/

namespace Kookr.Schedules

open Kookr.Lib

variable {ν : Type}

namespace ScheduleRows

variable {s s' s'' : ScheduleRows ν} {R : String → Schedule ν → Schedule ν → Prop} {id : String} {r : Schedule ν}

/-- The same ids, with rows that are related. -/
def Each (R : String → Schedule ν → Schedule ν → Prop) (s s' : ScheduleRows ν) : Prop :=
  ∀ id, Option.Rel (R id) (s.get id) (s'.get id)

theorem Each.refl (hrefl : ∀ id r, R id r r) (s : ScheduleRows ν) : Each R s s := by
  intro id
  cases s.get id with
  | none => exact .none
  | some r => exact .some (hrefl id r)

theorem Each.some (h : Each R s s') {r' : Schedule ν} (hr : s'.get id = some r') : ∃ r, s.get id = some r ∧ R id r r' := by
  have hid := h id
  rw [hr] at hid
  cases hget : s.get id with
  | none => rw [hget] at hid; cases hid
  | some r =>
    rw [hget] at hid
    cases hid with
    | some hR => exact ⟨r, rfl, hR⟩

theorem Each.of_some (h : Each R s s') (hr : s.get id = .some r) : ∃ r', s'.get id = .some r' ∧ R id r r' := by
  have hid := h id
  rw [hr] at hid
  cases hget : s'.get id with
  | none => rw [hget] at hid; cases hid
  | some r' =>
    rw [hget] at hid
    cases hid with
    | some hR => exact ⟨r', rfl, hR⟩

theorem get_replace (schedule : Schedule ν) (id : String) :
    (s.replace schedule).get id = if schedule.id = id then .some schedule else s.get id :=
  OrderedMap.get_set s.rows schedule.id id schedule

theorem Each.replace (h : Each R s s') {r r' : Schedule ν} (hr : s.get r'.id = .some r) (hR : R r'.id r r') :
    Each R s (s'.replace r') := by
  intro id
  rw [get_replace]
  split
  · next heq =>
    rw [← heq, hr]
    exact .some hR
  · exact h id

theorem Each.update (hrefl : ∀ id r, R id r r) {f : Schedule ν → Option (Schedule ν)}
    (hf : ∀ r r', s.get id = .some r → f r = .some r' → r'.id = r.id ∧ R id r r') : Each R s (s.update id f) := by
  unfold ScheduleRows.update
  split
  · exact Each.refl hrefl s
  · next r' hr' =>
    obtain ⟨r, hr, hfr⟩ := Option.bind_eq_some_iff.1 hr'
    obtain ⟨hid, hR⟩ := hf r r' hr hfr
    have hkey : r'.id = id := hid.trans (s.keyed id r hr)
    subst hkey
    exact (Each.refl hrefl s).replace hr hR

theorem mem_listAll : r ∈ s.listAll ↔ s.get r.id = .some r := by
  unfold listAll
  rw [OrderedMap.mem_values_iff]
  constructor
  · rintro ⟨id, hget⟩
    rwa [← s.keyed id r hget] at hget
  · intro hget
    exact ⟨r.id, hget⟩

theorem mem_list : r ∈ s.list ↔ s.get r.id = .some r ∧ r.archived = false := by
  simp [list, mem_listAll]

theorem nodup_ids (rows : ScheduleRows ν) : (rows.list.map Schedule.id).Nodup := by
  have hkeys : rows.listAll.map Schedule.id = rows.rows.keys := OrderedMap.values_map_eq_keys rows.rows Schedule.id rows.keyed
  have hall : (rows.listAll.map Schedule.id).Nodup := hkeys ▸ rows.rows.nodup_keys
  exact hall.sublist (List.filter_sublist.map Schedule.id)

/-- A call on one row goes through with what it writes, or it throws. -/
theorem update_cases (id : String) (f : Schedule ν → Option (Schedule ν)) (rows : ScheduleRows ν) :
    rows.update id f = rows ∧ (rows.get id).bind f = none ∨
      ∃ r r', rows.get id = .some r ∧ f r = .some r' ∧ rows.update id f = rows.replace r' := by
  unfold update
  split
  · next hnone => exact .inl ⟨rfl, hnone⟩
  · next r' hr' =>
    obtain ⟨r, hr, hfr⟩ := Option.bind_eq_some_iff.1 hr'
    exact .inr ⟨r, r', hr, hfr, rfl⟩

theorem canSetEnabled_iff {enabled : Bool} {operatorHold : Option Bool} {now : ℕ} :
    s.canSetEnabled id enabled = true ↔ ∃ r r', s.get id = .some r ∧ r.setEnabled enabled operatorHold now = .some r' := by
  unfold canSetEnabled
  rw [Option.any_eq_true]
  refine exists_congr fun r => ?_
  cases enabled with
  | false =>
    obtain ⟨hold, source, heldAt, hfalse⟩ := Schedule.setEnabled_false (s := r) operatorHold now
    simp [hfalse]
  | true => simp [Schedule.setEnabled_true]

theorem setEnabled_cases (rows : ScheduleRows ν) (id : String) (enabled : Bool) (operatorHold : Option Bool) (now : ℕ) :
    rows.canSetEnabled id enabled = false ∧ rows.setEnabled id enabled operatorHold now = rows ∨
      ∃ r r', rows.canSetEnabled id enabled = true ∧ rows.get id = .some r ∧ r.setEnabled enabled operatorHold now = .some r' ∧
        r'.id = id ∧ rows.setEnabled id enabled operatorHold now = rows.replace r' := by
  rcases update_cases id (fun schedule => schedule.setEnabled enabled operatorHold now) rows with
    ⟨hsame, hnone⟩ | ⟨r, r', hr, hset, hreplace⟩
  · refine .inl ⟨eq_false_of_ne_true fun hcan => ?_, hsame⟩
    obtain ⟨r, r', hr, hset⟩ : ∃ r r', rows.get id = some r ∧ r.setEnabled enabled operatorHold now = some r' := canSetEnabled_iff.1 hcan
    rw [hr, Option.bind_some, hset] at hnone
    cases hnone
  · have hid : r'.id = r.id := Schedule.setEnabled_id hset
    exact .inr ⟨r, r', canSetEnabled_iff.2 ⟨r, r', hr, hset⟩, hr, hset, hid.trans (rows.keyed id r hr), hreplace⟩

/-- What writes a row without enabling it. -/
abbrev EachParks (s s' : ScheduleRows ν) : Prop := Each (fun _ => Schedule.Parks) s s'

theorem eachParks_fireWrite (id : String) (write : FireWrite) (threshold now : ℕ) : EachParks s (s.fireWrite id write threshold now) :=
  Each.update (fun _ => Schedule.Parks.refl) fun _ _ _ h => ⟨(Schedule.Parks.fireWrite h).id, Schedule.Parks.fireWrite h⟩

theorem eachParks_archive (id : String) : EachParks s (s.archive id) := by
  refine Each.update (fun _ => Schedule.Parks.refl) fun r r' _ h => ?_
  cases h
  exact ⟨rfl, rfl, fun h => h, fun _ => ⟨rfl, rfl, rfl⟩, fun h => h⟩

theorem eachParks_unarchive (id : String) : EachParks s (s.unarchive id) := by
  refine Each.update (fun _ => Schedule.Parks.refl) fun r r' _ h => ?_
  cases h
  exact ⟨rfl, rfl, fun h => h, fun _ => ⟨rfl, rfl, rfl⟩, fun h => h⟩

theorem eachParks_recordTaskTerminalOutcome (e : Schedule.TaskTerminal ν) (threshold now : ℕ) :
    EachParks s (s.recordTaskTerminalOutcome e threshold now) := by
  unfold recordTaskTerminalOutcome
  split
  · exact Each.refl (fun _ => Schedule.Parks.refl) s
  · next r hr =>
    have hparks : Schedule.Parks r (r.recordTaskTerminalOutcome e threshold now) := .recordTaskTerminalOutcome e threshold now
    refine (Each.refl (fun _ => Schedule.Parks.refl) s).replace ?_ hparks
    rw [hparks.id]
    exact mem_listAll.1 (List.mem_of_find?_eq_some hr)

/-- The rows paused are those of one moment. -/
theorem eachParks_enforceFailureAutoPauses (threshold now : ℕ) : EachParks s (s.enforceFailureAutoPauses threshold now) := by
  refine List.foldlRecOn s.list _ (Each.refl (fun _ => Schedule.Parks.refl) s) fun rows hrows r hr => ?_
  split
  · next hpauses =>
    exact hrows.replace (mem_list.1 hr).1 (.autoPaused rfl (Schedule.enabled_of_autoPauses hpauses) now)
  · exact hrows

end ScheduleRows

end Kookr.Schedules
