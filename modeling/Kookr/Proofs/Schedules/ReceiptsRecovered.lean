import Kookr.Sanity.Schedules.FireSteps
import Kookr.Spec.Schedules.ReceiptLog

/-! A restart finds the row of every receipt that the file has had, in every run in which no task closes
its row while the receipt of another fire is reserved, and no fire reserves over such a receipt or over a
row. The end of an earlier task takes the reserved receipt for its own and makes it terminal, and a
terminal receipt is not reconciled. -/

namespace Kookr.Schedules

open Kookr.Lib List
open Kookr.Server (WriteResult)

variable {ν : Type}

namespace ReceiptLog

open Schedule

variable {log : ReceiptLog ν} {schedule : Schedule ν} {entry : ScheduleExecutionLedgerEntry ν} {c r : ScheduleExecutionReceipt} {n : ℕ}

/-- The receipt has its row, or has had it so long ago that it may be pruned. -/
def Settled (log : ReceiptLog ν) (r : ScheduleExecutionReceipt) (n : ℕ) : Prop :=
  MAX_LEDGER_ENTRIES < log.appended.length - n ∨
    r.ledgerKey ∈ log.appended.drop n ∧
      (∀ row ∈ log.schedule.executionLedger, row.id = r.ledgerKey → row.receiptId = some r.id) ∧
      ∀ c ∈ log.schedule.currentExecution, c.ledgerKey = r.ledgerKey → c.id = r.id

/-- The receipt is the one in the row, and a restart makes a row of it. -/
def Open (log : ReceiptLog ν) (r : ScheduleExecutionReceipt) (n : ℕ) : Prop :=
  n = log.reservedAt ∧ ∃ c, log.schedule.currentExecution = some c ∧ c.id = r.id ∧ c.ledgerKey = r.ledgerKey ∧
    c.status = .reserved ∧ c.taskId = none

def Known (log : ReceiptLog ν) (r : ScheduleExecutionReceipt) (n : ℕ) : Prop := log.Settled r n ∨ log.Open r n

structure Sound (log : ReceiptLog ν) : Prop where
  nodup : (ledgerIds log.schedule.executionLedger).Nodup
  newest : KeepsNewest log.appended log.schedule.executionLedger
  reservedAt : log.reservedAt ≤ log.appended.length
  /-- A reserved receipt has no task, and its row was appended after it was reserved. -/
  reserved : ∀ c ∈ log.schedule.currentExecution, c.status = .reserved → c.taskId = none ∧
    (c.ledgerKey ∈ ledgerIds log.schedule.executionLedger → c.ledgerKey ∈ log.appended.drop log.reservedAt)
  receipt : ∀ p ∈ log.reservation, log.Known p.1 p.2

/-- The log is at `schedule`, with every id of the ledger that is new appended. -/
theorem appended_write (log : ReceiptLog ν) (schedule : Schedule ν) : (log.write schedule).appended = log.appended ++
    (ledgerIds schedule.executionLedger).filter fun id => id ∉ ledgerIds log.schedule.executionLedger := rfl

theorem appended_write_of_subset (h : ledgerIds schedule.executionLedger ⊆ ledgerIds log.schedule.executionLedger) :
    (log.write schedule).appended = log.appended := by
  rw [appended_write, filter_eq_nil_iff.2 fun id hid => by simpa using h hid, append_nil]

/-- What a receipt is known by. -/
abbrev receiptKey (c : ScheduleExecutionReceipt) : ℕ × LedgerKey := (c.id, c.ledgerKey)

/-- Rows are pruned or closed, and the receipt may be closed unless it is reserved. -/
structure Narrows (log : ReceiptLog ν) (schedule : Schedule ν) : Prop where
  rows : (schedule.executionLedger.map rowKey).Sublist (log.schedule.executionLedger.map rowKey)
  newest : KeepsNewest log.appended schedule.executionLedger
  receipt : schedule.currentExecution.map receiptKey = log.schedule.currentExecution.map receiptKey
  reserved : ∀ c, c.status = .reserved → (schedule.currentExecution = some c ↔ log.schedule.currentExecution = some c)

section

variable (h : log.Narrows schedule)
include h

theorem Narrows.ids : (ledgerIds schedule.executionLedger).Sublist (ledgerIds log.schedule.executionLedger) := by
  have hfst := h.rows.map Prod.fst
  rwa [map_map, map_map] at hfst

theorem Narrows.appended : (log.write schedule).appended = log.appended :=
  appended_write_of_subset h.ids.subset

omit h in
theorem mem_receiptKey {receipt? : Option ScheduleExecutionReceipt} (h : receipt?.map receiptKey = log.schedule.currentExecution.map receiptKey)
    (hc : c ∈ receipt?) : ∃ c' ∈ log.schedule.currentExecution, c'.id = c.id ∧ c'.ledgerKey = c.ledgerKey := by
  rw [Option.mem_def.1 hc] at h
  obtain ⟨c', hc', hkey⟩ := Option.map_eq_some_iff.1 h.symm
  exact ⟨c', hc', (Prod.mk.inj hkey).1, (Prod.mk.inj hkey).2⟩

theorem Narrows.settled (hr : log.Settled r n) : (log.write schedule).Settled r n := by
  unfold Settled at hr ⊢
  rw [h.appended]
  refine hr.imp_right fun ⟨happended, hrows, hreceipt⟩ => ⟨happended, fun row hrow hid => ?_, fun c hc hkey => ?_⟩
  · obtain ⟨row', hrow', hkey⟩ := mem_map.1 (h.rows.subset (mem_map_of_mem hrow))
    rw [← (Prod.mk.inj hkey).2]
    exact hrows row' hrow' ((Prod.mk.inj hkey).1.trans hid)
  · obtain ⟨c', hc', hid', hkey'⟩ := mem_receiptKey h.receipt hc
    rw [← hid']
    exact hreceipt c' hc' (hkey'.trans hkey)

theorem Narrows.known (hr : log.Known r n) : (log.write schedule).Known r n := by
  refine hr.imp h.settled ?_
  rintro ⟨hn, c, hc, hid, hkey, hstatus, htask⟩
  exact ⟨hn, c, (h.reserved c hstatus).2 hc, hid, hkey, hstatus, htask⟩

omit h in
theorem Known.of_key {r' : ScheduleExecutionReceipt} (hid : r'.id = r.id) (hkey : r'.ledgerKey = r.ledgerKey) (h : log.Known r n) :
    log.Known r' n := by
  unfold Known Settled Open at h ⊢
  rwa [hid, hkey]

theorem Narrows.sound (hlog : log.Sound) : (log.write schedule).Sound where
  nodup := hlog.nodup.sublist h.ids
  newest := by
    rw [h.appended]
    exact h.newest
  reservedAt := by
    rw [h.appended]
    exact hlog.reservedAt
  reserved c hc hstatus := by
    rw [h.appended]
    obtain ⟨htask, hfresh⟩ := hlog.reserved c ((h.reserved c hstatus).1 hc) hstatus
    exact ⟨htask, fun hmem => hfresh (h.ids.subset hmem)⟩
  receipt p hp := by
    obtain ⟨c, hc, rfl⟩ := Option.map_eq_some_iff.1 hp
    obtain ⟨c', hc', hid, hkey⟩ := mem_receiptKey h.receipt hc
    refine Known.of_key hid.symm hkey.symm (h.known (hlog.receipt (c', log.reservedAt) ?_))
    exact Option.map_eq_some_iff.2 ⟨c', hc', rfl⟩

end

theorem appended_upsert (hledger : schedule.executionLedger = upsertLedgerEntry log.schedule.executionLedger entry) :
    (log.write schedule).appended =
      log.appended ++ if entry.id ∈ ledgerIds log.schedule.executionLedger then [] else [entry.id] := by
  rw [appended_write, hledger, newIds_upsertLedgerEntry]

theorem mem_drop_appended_write {id : LedgerKey} (h : id ∈ log.appended.drop n) : id ∈ (log.write schedule).appended.drop n := by
  rw [appended_write, drop_append]
  exact mem_append_left _ h

theorem mem_drop_upsert (hledger : schedule.executionLedger = upsertLedgerEntry log.schedule.executionLedger entry) (hn : n ≤ log.appended.length)
    (hold : entry.id ∈ ledgerIds log.schedule.executionLedger → entry.id ∈ log.appended.drop n) :
    entry.id ∈ (log.write schedule).appended.drop n := by
  by_cases hmem : entry.id ∈ ledgerIds log.schedule.executionLedger
  · exact mem_drop_appended_write (hold hmem)
  · rw [appended_upsert hledger, if_neg hmem, drop_append_of_le_length hn]
    exact mem_append_right _ (mem_singleton_self _)

theorem length_appended_write : log.appended.length ≤ (log.write schedule).appended.length := by
  rw [appended_write, length_append]
  exact Nat.le_add_right _ _

section

variable (hlog : log.Sound)
include hlog

theorem Settled.upsert (hr : log.Settled r n)
    (hledger : schedule.executionLedger = upsertLedgerEntry log.schedule.executionLedger entry)
    (hkey : schedule.currentExecution.map receiptKey = log.schedule.currentExecution.map receiptKey)
    (hentry : entry.id = r.ledgerKey → entry.receiptId = none ∨ ∃ c ∈ log.schedule.currentExecution, entry.id = c.ledgerKey ∧ entry.receiptId = some c.id) :
    (log.write schedule).Settled r n := by
  rcases hr with hpruned | ⟨happended, hrows, hreceipt⟩
  · exact .inl (Nat.lt_of_lt_of_le hpruned (Nat.sub_le_sub_right length_appended_write n))
  by_cases hgone : r.ledgerKey ∈ ledgerIds log.schedule.executionLedger
  · refine .inr ⟨mem_drop_appended_write happended, fun row hrow hid => ?_, fun c hc hckey => ?_⟩
    · have hrow : row ∈ upsertLedgerEntry log.schedule.executionLedger entry := hledger ▸ hrow
      rcases mem_upsertLedgerEntry hlog.nodup hrow with ⟨hmem, -⟩ | ⟨rfl, hnew⟩ | ⟨old, hold, holdId, rfl⟩
      · exact hrows row hmem hid
      · exact absurd (hid ▸ hgone) hnew
      · have hown : old.receiptId = some r.id := hrows old hold (holdId.trans hid)
        rcases hentry hid with hnone | ⟨c, hc, hckey, hcid⟩
        · simp [ScheduleExecutionLedgerEntry.merged, hnone, hown]
        · simp [ScheduleExecutionLedgerEntry.merged, hcid, hreceipt c hc (hckey.symm.trans hid)]
    · obtain ⟨c', hc', hid', hkey'⟩ := mem_receiptKey hkey hc
      rw [← hid']
      exact hreceipt c' hc' (hkey'.trans hckey)
  · exact .inl (Nat.lt_of_lt_of_le (hlog.newest.pruned happended hgone) (Nat.sub_le_sub_right length_appended_write n))

theorem Sound.upsert (hledger : schedule.executionLedger = upsertLedgerEntry log.schedule.executionLedger entry)
    (hreserved : ∀ c ∈ schedule.currentExecution, c.status = .reserved → log.schedule.currentExecution = some c)
    (hreceipt : ∀ p ∈ (log.write schedule).reservation, (log.write schedule).Known p.1 p.2) : (log.write schedule).Sound where
  nodup := by
    dsimp only [write]
    rw [hledger]
    exact nodup_upsertLedgerEntry hlog.nodup
  newest := by
    rw [appended_upsert hledger]
    dsimp only [write]
    rw [hledger]
    exact hlog.newest.upsert entry
  reservedAt := Nat.le_trans hlog.reservedAt length_appended_write
  reserved c hc hstatus := by
    obtain ⟨htask, hfresh⟩ := hlog.reserved c (hreserved c hc hstatus) hstatus
    refine ⟨htask, fun hmem => ?_⟩
    by_cases hid : c.ledgerKey = entry.id
    · rw [hid]
      refine mem_drop_upsert hledger hlog.reservedAt fun hmem => ?_
      rw [← hid] at hmem ⊢
      exact hfresh hmem
    · obtain ⟨row, hrow, hrowId⟩ := mem_map.1 hmem
      have hrow : row ∈ upsertLedgerEntry log.schedule.executionLedger entry := hledger ▸ hrow
      refine mem_drop_appended_write (hfresh ?_)
      rcases mem_upsertLedgerEntry hlog.nodup hrow with ⟨hmem, -⟩ | ⟨rfl, -⟩ | ⟨old, -, -, rfl⟩
      · exact hrowId ▸ mem_map_of_mem hmem
      · exact absurd hrowId.symm hid
      · exact absurd hrowId.symm hid
  receipt := hreceipt

theorem known_free (hfree : FreeWrite log.schedule schedule) :
    (log.write schedule).Sound ∧ (log.write schedule).reservedAt = log.reservedAt ∧ ∀ r n, log.Known r n → (log.write schedule).Known r n := by
  cases hfree with
  | keeps hreceipt hledger =>
    have h : log.Narrows schedule := by
      refine ⟨by rw [hledger], ?_, by rw [hreceipt], fun c _ => by rw [hreceipt]⟩
      rw [hledger]
      exact hlog.newest
    exact ⟨h.sound hlog, rfl, fun r n => h.known⟩
  | appends entry hfree _ hreceipt hledger =>
    have hknown : ∀ r n, log.Known r n → (log.write schedule).Known r n := by
      rintro r n (hr | ⟨hn, c, hc, hrest⟩)
      · refine .inl (hr.upsert hlog hledger (by rw [hreceipt]) fun hid => ?_)
        rcases hfree with hnone | ⟨n, huuid⟩
        · exact .inl hnone
        · rw [huuid] at hid
          unfold ScheduleExecutionReceipt.ledgerKey at hid
          split at hid <;> cases hid
      · exact .inr ⟨hn, c, hreceipt.trans hc, hrest⟩
    refine ⟨hlog.upsert hledger (fun c hc _ => hreceipt ▸ hc) fun p hp => hknown p.1 p.2 (hlog.receipt p ?_), rfl, hknown⟩
    have hsame : (log.write schedule).reservation = log.reservation := by
      unfold reservation
      dsimp only [write]
      rw [hreceipt]
    rwa [← hsame]

theorem settled_own (hc : log.schedule.currentExecution = some c) (hown : OwnWrite c entry log.schedule schedule)
    (hr : log.Known r n) : (log.write schedule).Settled r n := by
  have hkey : schedule.currentExecution.map receiptKey = log.schedule.currentExecution.map receiptKey := by
    obtain ⟨taskId, status, -, hc'⟩ := hown.receipt
    rw [hc, hc']
    rfl
  have hsettled : ∀ {r n}, log.Settled r n → (log.write schedule).Settled r n := fun hr =>
    hr.upsert hlog hown.ledger hkey fun _ => .inr ⟨c, hc, hown.id, hown.receiptId⟩
  rcases hr with hr | ⟨rfl, c', hc', hid, hrkey, hstatus, -⟩
  · exact hsettled hr
  obtain rfl := Option.some.inj (hc.symm.trans hc')
  refine .inr ⟨?_, fun row hrow hrowId => ?_, fun c' hc' _ => ?_⟩
  · rw [← hrkey, ← hown.id]
    refine mem_drop_upsert hown.ledger hlog.reservedAt fun hmem => ?_
    rw [hown.id] at hmem ⊢
    exact (hlog.reserved c hc hstatus).2 hmem
  · rw [← hid, ← hown.receiptId]
    have hrow : row ∈ upsertLedgerEntry log.schedule.executionLedger entry := hown.ledger ▸ hrow
    have hentry : entry.id = r.ledgerKey := hown.id.trans hrkey
    rcases mem_upsertLedgerEntry hlog.nodup hrow with ⟨-, hne⟩ | ⟨rfl, -⟩ | ⟨old, -, -, rfl⟩
    · exact absurd (hrowId.trans hentry.symm) hne
    · rfl
    · simp [ScheduleExecutionLedgerEntry.merged, hown.receiptId]
  · obtain ⟨c'', hc'', hid'', -⟩ := mem_receiptKey hkey hc'
    obtain rfl := Option.some.inj (hc.symm.trans hc'')
    exact hid''.symm.trans hid

theorem sound_own (hc : log.schedule.currentExecution = some c) (hown : OwnWrite c entry log.schedule schedule) :
    (log.write schedule).Sound := by
  obtain ⟨taskId, status, hstatus, hc'⟩ := hown.receipt
  have hreservation : (c, log.reservedAt) ∈ log.reservation := Option.map_eq_some_iff.2 ⟨c, hc, rfl⟩
  have hsettled : (log.write schedule).Settled c log.reservedAt := settled_own hlog hc hown (hlog.receipt _ hreservation)
  refine hlog.upsert hown.ledger (fun c'' hc'' hreserved => ?_) fun p hp => ?_
  · obtain rfl := Option.some.inj (hc'.symm.trans hc'')
    exact absurd hreserved hstatus
  · obtain ⟨c'', hc'', rfl⟩ := Option.map_eq_some_iff.1 hp
    obtain rfl := Option.some.inj (hc'.symm.trans hc'')
    exact Known.of_key rfl rfl (.inl hsettled)

theorem narrows_of_rows (hrows : schedule.executionLedger.map rowKey = log.schedule.executionLedger.map rowKey)
    (hreceipt : schedule.currentExecution = log.schedule.currentExecution ∨
      (∀ c ∈ log.schedule.currentExecution, c.status ≠ .reserved) ∧ ∃ status, status ≠ .reserved ∧
        schedule.currentExecution = log.schedule.currentExecution.map fun receipt => { receipt with status }) : log.Narrows schedule := by
  have hids := ledgerIds_of_rows hrows
  have hnewest : KeepsNewest log.appended schedule.executionLedger := fun ids hsuffix hlength => hids ▸ hlog.newest ids hsuffix hlength
  rcases hreceipt with hsame | ⟨hnone, status, hstatus, hmap⟩
  · exact ⟨hrows ▸ List.Sublist.refl _, hnewest, by rw [hsame], fun c _ => by rw [hsame]⟩
  · refine ⟨hrows ▸ List.Sublist.refl _, hnewest, ?_, fun c hc => ⟨fun hmem => ?_, fun hmem => absurd hc (hnone c hmem)⟩⟩
    · rw [hmap, Option.map_map]
      rfl
    · rw [hmap] at hmem
      obtain ⟨c', -, rfl⟩ := Option.map_eq_some_iff.1 hmem
      exact absurd hc hstatus

theorem narrows_terminal {terminal : TaskTerminal ν} {now : ℕ} (hwrite : TerminalWrite terminal now log.schedule schedule)
    (hreserved : log.schedule.Finds terminal.taskId → log.schedule.keepsSkip terminal = false →
      ∀ c ∈ log.schedule.currentExecution, c.status ≠ .reserved) : log.Narrows schedule := by
  cases hwrite with
  | drops _ hsame =>
    subst hsame
    exact narrows_of_rows hlog rfl (.inl rfl)
  | spares _ _ hreceipt hledger =>
    refine narrows_of_rows hlog ?_ (.inl hreceipt)
    rw [hledger]
    exact rowKey_map_close _ _
  | closes hfound hskip hreceipt hledger =>
    refine narrows_of_rows hlog ?_ (.inr ⟨hreserved hfound hskip, _, by simp, hreceipt⟩)
    rw [hledger]
    exact rowKey_map_close _ _

theorem narrows_loaded : log.Narrows log.schedule.loaded :=
  ⟨(pruneExecutionLedger_sublist _).map rowKey, hlog.newest.prune, rfl, fun _ _ => Iff.rfl⟩

theorem settled_reconcileReceipt (now : ℕ) : (log.write (log.schedule.reconcileReceipt now)).Sound ∧
    (∀ r n, log.Known r n → (log.write (log.schedule.reconcileReceipt now)).Settled r n) ∧
    ∀ c ∈ (log.schedule.reconcileReceipt now).currentExecution, c.status ≠ .reserved := by
  have hsame : (∀ c ∈ log.schedule.currentExecution, c.status ≠ .reserved) → (log.write log.schedule).Sound ∧
      (∀ r n, log.Known r n → (log.write log.schedule).Settled r n) ∧ ∀ c ∈ log.schedule.currentExecution, c.status ≠ .reserved := by
    intro hnone
    have h : log.Narrows log.schedule := narrows_of_rows hlog rfl (.inl rfl)
    refine ⟨h.sound hlog, ?_, hnone⟩
    rintro r n (hr | ⟨-, c, hc, -, -, hstatus, -⟩)
    · exact h.settled hr
    · exact absurd hstatus (hnone c hc)
  unfold reconcileReceipt
  split
  · next hnone => exact hsame fun c hc => by simp [hnone] at hc
  · next c hc =>
    dsimp only
    split_ifs with hleft
    · have hown : OwnWrite c (ledgerEntryFromReceipt c .unknownAfterRestart .unknownAfterRestart now none none) log.schedule
          { log.schedule with
            latestExecution := log.schedule.latestExecution.or (some
              ⟨some c.id, c.scheduledFor, c.evaluatedAt, none, c.trigger, none, .unknownAfterRestart, some .unknownAfterRestart⟩)
            executionLedger := upsertLedgerEntry log.schedule.executionLedger
              (ledgerEntryFromReceipt c .unknownAfterRestart .unknownAfterRestart now none none)
            currentExecution := some { c with status := .unknownAfterRestart } } :=
        ⟨rfl, rfl, rfl, c.taskId, .unknownAfterRestart, by simp, rfl⟩
      refine ⟨sound_own hlog hc hown, fun r n => settled_own hlog hc hown, fun c' hc' => ?_⟩
      cases hc'
      simp
    · refine hsame fun c' hc' hstatus => hleft ?_
      obtain rfl := Option.some.inj (hc.symm.trans hc')
      simp [hstatus, (hlog.reserved c hc hstatus).1]

omit hlog in
/-- The reconciliation of the latest task closes rows only. -/
theorem rows_reconcileLatest (s : Schedule ν) (getTask : String → Option (ReconcileTask ν)) (serverRestartActive : Bool) (threshold now : ℕ) :
    (s.reconcileLatest getTask serverRestartActive threshold now).executionLedger.map rowKey = s.executionLedger.map rowKey ∧
      ((s.reconcileLatest getTask serverRestartActive threshold now).currentExecution = s.currentExecution ∨ ∃ status, status ≠ .reserved ∧
        (s.reconcileLatest getTask serverRestartActive threshold now).currentExecution =
          s.currentExecution.map fun receipt => { receipt with status }) := by
  unfold reconcileLatest
  split
  · exact ⟨rfl, .inl rfl⟩
  split
  · exact ⟨rfl, .inl rfl⟩
  split
  · exact ⟨rfl, .inl rfl⟩
  split
  · exact ⟨rowKey_map_close _ _, .inr ⟨.unknownAfterRestart, by simp, rfl⟩⟩
  · dsimp only
    split_ifs
    all_goals first | exact ⟨rfl, .inl rfl⟩ | exact ⟨rowKey_map_close _ _, .inr ⟨.terminal, by simp, rfl⟩⟩

omit hlog in
theorem write_write {schedule' : Schedule ν} (hids : ledgerIds schedule'.executionLedger = ledgerIds schedule.executionLedger) :
    (log.write schedule).write schedule' = log.write schedule' := by
  have hsubset : ledgerIds schedule'.executionLedger ⊆ ledgerIds (log.write schedule).schedule.executionLedger :=
    fun id hid => hids ▸ hid
  have happended : ((log.write schedule).write schedule').appended = (log.write schedule').appended := by
    rw [appended_write_of_subset hsubset, appended_write, appended_write, hids]
  exact congrArg (fun appended => (⟨schedule', appended, log.reservedAt⟩ : ReceiptLog ν)) happended

theorem settled_reconcileOnStartup (getTask : String → Option (ReconcileTask ν)) (serverRestartActive : Bool)
    (threshold now : ℕ) : (log.write (log.schedule.reconcileOnStartup getTask serverRestartActive threshold now)).Sound ∧
      ∀ r n, log.Known r n → (log.write (log.schedule.reconcileOnStartup getTask serverRestartActive threshold now)).Settled r n := by
  obtain ⟨hreconciled, hsettled, hnone⟩ := settled_reconcileReceipt hlog now
  obtain ⟨hrows, hreceipt⟩ := rows_reconcileLatest (log.schedule.reconcileReceipt now) getTask serverRestartActive threshold now
  have hlatest := narrows_of_rows hreconciled hrows (hreceipt.imp_right fun hstatus => ⟨hnone, hstatus⟩)
  unfold Schedule.reconcileOnStartup
  rw [← write_write (ledgerIds_of_rows hrows)]
  exact ⟨hlatest.sound hreconciled, fun r n hr => hlatest.settled (hsettled r n hr)⟩

theorem settled_recovered (getTask : String → Option (ReconcileTask ν)) (serverRestartActive : Bool) (threshold now : ℕ) :
    (log.recovered getTask serverRestartActive threshold now).Sound ∧
      ∀ r n, log.Known r n → (log.recovered getTask serverRestartActive threshold now).Settled r n := by
  have hloaded := narrows_loaded hlog
  obtain ⟨hsound, hsettled⟩ := settled_reconcileOnStartup (hloaded.sound hlog) getTask serverRestartActive threshold now
  exact ⟨hsound, fun r n hr => hsettled r n (hloaded.known hr)⟩

theorem sound_reserve (receiptId : ℕ) (trigger : ScheduleExecutionTrigger) (decision : ScheduleExecutionDecision)
    (scheduledFor : Option ℕ) (now : ℕ)
    (hkey : ScheduleExecutionReceipt.ledgerKey ⟨receiptId, trigger, decision, scheduledFor, now, none, .reserved⟩ ∉
      ledgerIds log.schedule.executionLedger) :
    Sound { log.write (log.schedule.reserveExecution receiptId trigger decision scheduledFor now) with reservedAt := log.appended.length } ∧
      ∀ r n, log.Settled r n →
        Settled { log.write (log.schedule.reserveExecution receiptId trigger decision scheduledFor now) with
          reservedAt := log.appended.length } r n := by
  have happended : (log.write (log.schedule.reserveExecution receiptId trigger decision scheduledFor now)).appended = log.appended :=
    appended_write_of_subset (List.Subset.refl _)
  refine ⟨⟨hlog.nodup, ?_, ?_, fun c hc _ => ?_, fun p hp => ?_⟩, fun r n hr => ?_⟩
  · rw [happended]
    exact hlog.newest
  · rw [happended]
  · cases hc
    exact ⟨rfl, fun hmem => absurd hmem hkey⟩
  · obtain ⟨c, hc, rfl⟩ := Option.map_eq_some_iff.1 hp
    cases hc
    exact .inr ⟨rfl, _, rfl, rfl, rfl, rfl, rfl⟩
  · rcases hr with hpruned | ⟨hmem, hrows, -⟩
    · exact .inl (happended.symm ▸ hpruned)
    by_cases hsame : r.ledgerKey = ScheduleExecutionReceipt.ledgerKey ⟨receiptId, trigger, decision, scheduledFor, now, none, .reserved⟩
    · rw [← hsame] at hkey
      exact .inl (happended.symm ▸ hlog.newest.pruned hmem hkey)
    · refine .inr ⟨happended.symm ▸ hmem, hrows, fun c hc hckey => ?_⟩
      cases hc
      exact absurd hckey.symm hsame

end

end ReceiptLog

namespace ReceiptRun

open Schedule ReceiptLog

variable {s s' : ReceiptRun ν} {e : ReceiptEvent ν}

/-- After a restart every receipt that the file has had has its row, or more rows than are kept were
appended since it was reserved. -/
def ReceiptsRecovered (s : ReceiptRun ν) : Prop :=
  ∀ (getTask : String → Option (ReconcileTask ν)) (serverRestartActive : Bool) (threshold now : ℕ), ∀ p ∈ s.durable,
    MAX_LEDGER_ENTRIES < (s.file.recovered getTask serverRestartActive threshold now).appended.length - p.2 ∨
      ∃ row ∈ (s.file.recovered getTask serverRestartActive threshold now).schedule.executionLedger,
        row.id = p.1.ledgerKey ∧ row.receiptId = some p.1.id

/-- The file has had the receipt, or is getting it. -/
def Reaches (s : ReceiptRun ν) (receiptId : ℕ) : Prop :=
  (∃ p ∈ s.durable, p.1.id = receiptId) ∨ ∃ log ∈ s.writing, ∃ p ∈ log.reservation, p.1.id = receiptId

instance Reaches.decidable (s : ReceiptRun ν) (receiptId : ℕ) : Decidable (s.Reaches receiptId) := by
  unfold Reaches
  infer_instance

/-- A task closes its row while no receipt is reserved, and a fire reserves neither over a receipt of the
file that is still reserved nor over a row. -/
def KeepsReceipts (s : ReceiptRun ν) : ReceiptEvent ν → Prop
  | .run (.taskTerminal terminal _ _) =>
    s.memory.schedule.Finds terminal.taskId → s.memory.schedule.keepsSkip terminal = false →
      ∀ c ∈ s.memory.schedule.currentExecution, c.status ≠ .reserved
  | .run (.fire trigger decision scheduledFor now) =>
    s.fire = none → (∀ c ∈ s.memory.schedule.currentExecution, c.status = .reserved → ¬s.Reaches c.id) ∧
      ScheduleExecutionReceipt.ledgerKey ⟨s.receipts, trigger, decision, scheduledFor, now, none, .reserved⟩ ∉
        ledgerIds s.memory.schedule.executionLedger
  | _ => True

instance KeepsReceipts.decidable (s : ReceiptRun ν) (e : ReceiptEvent ν) : Decidable (s.KeepsReceipts e) := by
  unfold KeepsReceipts
  split <;> infer_instance

structure Inv (s : ReceiptRun ν) : Prop where
  holds : s.run.Holds
  memory : s.memory.Sound
  file : s.file.Sound
  writing : ∀ log ∈ s.writing, log.Sound ∧ (∀ p ∈ s.durable, log.Known p.1 p.2) ∧ ∀ p ∈ log.reservation, s.memory.Known p.1 p.2
  durable : ∀ p ∈ s.durable, s.file.Known p.1 p.2 ∧ s.memory.Known p.1 p.2

theorem Inv.remember (h : Inv s) {fire : Option BudgetStage} {receipts : ℕ} {memory : ReceiptLog ν} {wait : FireWait}
    (hholds : BudgetRun.Holds ⟨memory.schedule, fire, receipts, []⟩) (hmemory : memory.Sound)
    (hknown : ∀ r n, s.Reaches r.id → s.memory.Known r n → memory.Known r n) : Inv { s with fire, receipts, memory, wait } where
  holds := hholds
  memory := hmemory
  file := h.file
  writing log hlog := by
    obtain ⟨hsound, hdurable, hwriting⟩ := h.writing log hlog
    exact ⟨hsound, hdurable, fun p hp => hknown p.1 p.2 (.inr ⟨log, hlog, p, hp, rfl⟩) (hwriting p hp)⟩
  durable p hp := ⟨(h.durable p hp).1, hknown p.1 p.2 (.inl ⟨p, hp, rfl⟩) (h.durable p hp).2⟩

theorem inv_run (h : Inv s) {e : BudgetEvent ν} {next : BudgetRun ν} (hok : s.KeepsReceipts (.run e)) (hstep : s.run.step e = some next) :
    Inv (s.runStep e next) := by
  obtain ⟨hholds, hwrites⟩ := BudgetRun.holds_step h.holds hstep
  have hgoes : (s.fire = none → next.fire = none) → (s.memory.write next.schedule).Sound →
      (∀ r n, s.memory.Known r n → (s.memory.write next.schedule).Known r n) → Inv (s.runStep e next) := by
    intro hgate hsound hknown
    have hreserves : (s.fire = none && next.fire.isSome : Bool) = false := by
      rw [Bool.and_eq_false_imp, decide_eq_true_eq]
      intro hnone
      rw [hgate hnone, Option.isSome_none]
    unfold runStep
    rw [hreserves]
    exact h.remember ⟨hholds.receipt⟩ hsound fun r n _ => hknown r n
  cases hwrites with
  | reserves hgate hfire hschedule =>
    have hgate : s.fire = none := hgate
    obtain ⟨hopen, hkey⟩ := hok hgate
    obtain ⟨hsound, hsettled⟩ := sound_reserve h.memory _ _ _ _ _ hkey
    have hreserves : (s.fire = none && next.fire.isSome : Bool) = true := by simp [hgate, hfire]
    unfold runStep
    rw [hreserves]
    refine h.remember ⟨hholds.receipt⟩ (hschedule ▸ hsound) fun r n hreach hr => ?_
    rcases hr with hr | ⟨-, c, hc, hid, -, hstatus, -⟩
    · exact .inl (hschedule ▸ hsettled r n hr)
    · exact absurd (hid ▸ hreach) (hopen c hc hstatus)
  | accepts hgate c entry hc hown | records hgate c entry hc hown =>
    refine hgoes (fun hnone => ?_) (sound_own h.memory hc hown) fun r n hr => .inl (settled_own h.memory hc hown hr)
    simp [run, hnone] at hgate
  | closes hfire hschedule =>
    have hnarrows : s.memory.Narrows next.schedule := by
      rw [hschedule]
      exact narrows_terminal h.memory (terminalWrite _ _ _) hok
    exact hgoes (fun hnone => hfire.trans hnone) (hnarrows.sound h.memory) fun r n => hnarrows.known
  | frees hgate hfree =>
    obtain ⟨hsound, -, hknown⟩ := known_free h.memory hfree
    exact hgoes hgate hsound hknown

theorem inv_step (h : Inv s) (hok : s.KeepsReceipts e) (hstep : s.step e = some s') : Inv s' := by
  cases e with
  | run e =>
    simp only [step, Option.ite_none_right_eq_some, Option.map_eq_some_iff] at hstep
    obtain ⟨-, next, hnext, rfl⟩ := hstep
    exact inv_run h hok hnext
  | startWrite awaited =>
    have hwriting : ∀ wait, Inv { s with writing := some s.memory, wait } := by
      intro wait
      refine ⟨h.holds, h.memory, h.file, fun log hlog => ?_, h.durable⟩
      cases hlog
      exact ⟨h.memory, fun p hp => (h.durable p hp).2, h.memory.receipt⟩
    simp only [step, startWrite] at hstep
    split_ifs at hstep
    · cases hstep
      exact hwriting .writing
    · cases hstep
      exact hwriting s.wait
  | endWrite result =>
    obtain ⟨data, hdata, rfl⟩ := Option.map_eq_some_iff.1 hstep
    obtain ⟨hsound, hdurable, hwriting⟩ := h.writing data hdata
    refine ⟨h.holds, h.memory, ?_, fun log hlog => (by cases hlog), fun p hp => ?_⟩
    · dsimp only
      split_ifs
      · exact h.file
      · exact hsound
    · dsimp only at hp ⊢
      split_ifs at hp ⊢
      · exact h.durable p hp
      · rcases mem_append.1 hp with hp | hp
        · exact ⟨hdurable p hp, (h.durable p hp).2⟩
        · rw [Option.mem_toList] at hp
          exact ⟨hsound.receipt p hp, hwriting p hp⟩
  | restart getTask serverRestartActive threshold now =>
    cases hstep
    obtain ⟨hsound, hsettled⟩ := settled_recovered h.file getTask serverRestartActive threshold now
    refine ⟨⟨fun stage hstage => (by cases hstage)⟩, hsound, h.file, fun log hlog => (by cases hlog), fun p hp => ?_⟩
    have hknown := (h.durable p hp).1
    exact ⟨hknown, .inl (hsettled p.1 p.2 hknown)⟩

theorem inv_start (id : String) (definition : ScheduleDefinition) (enabled : Bool) (maxTriggers : Option ℕ) (now : ℕ) :
    Inv (start id definition enabled maxTriggers now : ReceiptRun ν) := by
  have hcreated : Sound (⟨.created id definition enabled maxTriggers now, [], 0⟩ : ReceiptLog ν) :=
    ⟨nodup_nil, fun ids hids _ => hids, Nat.le_refl 0, (fun _ h => nomatch h), fun _ h => nomatch h⟩
  exact ⟨⟨fun stage hstage => (by cases hstage)⟩, hcreated, hcreated, fun log hlog => (by cases hlog),
    fun _ h => nomatch h⟩

theorem receipts_recovered (id : String) (definition : ScheduleDefinition) (enabled : Bool) (maxTriggers : Option ℕ) (now : ℕ)
    (events : List (ReceiptEvent ν)) (s : ReceiptRun ν) (hrun : exec step (start id definition enabled maxTriggers now) events = some s)
    (hok : StepsMeet step KeepsReceipts (start id definition enabled maxTriggers now) events) : ReceiptsRecovered s := by
  have h : Inv s := exec_invariant (fun _ _ _ => inv_step) (inv_start id definition enabled maxTriggers now) hok hrun
  intro getTask serverRestartActive threshold now p hp
  obtain ⟨hsound, hsettled⟩ := settled_recovered h.file getTask serverRestartActive threshold now
  rcases hsettled p.1 p.2 (h.durable p hp).1 with hpruned | ⟨happended, hrows, -⟩
  · exact .inl hpruned
  by_cases hgone : p.1.ledgerKey ∈ ledgerIds (s.file.recovered getTask serverRestartActive threshold now).schedule.executionLedger
  · obtain ⟨row, hrow, hid⟩ := mem_map.1 hgone
    exact .inr ⟨row, hrow, hid, hrows row hrow hid⟩
  · exact .inl (hsound.newest.pruned happended hgone)

def acceptedFire (scheduledFor : ℕ) (taskId : String) : List (ReceiptEvent ℕ) :=
  [.run (.fire .cron .cronDue (some scheduledFor) scheduledFor), .startWrite true, .endWrite .written, .run (.reserved true),
    .run (.launched taskId false false none scheduledFor), .startWrite true, .endWrite .written, .run (.accepted true scheduledFor),
    .run .settled]

/-- A fire that is reserved in the file, and then no more. -/
def reservedFire (scheduledFor : ℕ) : List (ReceiptEvent ℕ) :=
  [.run (.fire .cron .cronDue (some scheduledFor) scheduledFor), .startWrite true, .endWrite .written, .run (.reserved true)]

def endedTask (taskId : String) (now : ℕ) : List (ReceiptEvent ℕ) :=
  [.run (.taskTerminal ⟨taskId, true, none, false, ⟨none, none, none⟩⟩ 0 now), .startWrite false, .endWrite .written]

/-- The second receipt is still reserved at the crash. -/
theorem receipts_recovered_reservedFire : ∃ s : ReceiptRun ℕ,
    exec step (start "s" ⟨"* * * * *", false, false⟩ true none 0) (acceptedFire 5 "t" ++ endedTask "t" 6 ++ reservedFire 10) = some s ∧
      StepsMeet step KeepsReceipts (start "s" ⟨"* * * * *", false, false⟩ true none 0 : ReceiptRun ℕ)
        (acceptedFire 5 "t" ++ endedTask "t" 6 ++ reservedFire 10) ∧ ReceiptsRecovered s := by
  obtain ⟨s, hrun⟩ : ∃ s : ReceiptRun ℕ,
      exec step (start "s" ⟨"* * * * *", false, false⟩ true none 0) (acceptedFire 5 "t" ++ endedTask "t" 6 ++ reservedFire 10) = some s :=
    ⟨_, rfl⟩
  have hok : StepsMeet step KeepsReceipts (start "s" ⟨"* * * * *", false, false⟩ true none 0 : ReceiptRun ℕ)
      (acceptedFire 5 "t" ++ endedTask "t" 6 ++ reservedFire 10) := by
    decide +kernel
  exact ⟨s, hrun, hok, receipts_recovered _ _ _ _ 0 _ s hrun hok⟩

/-- The task of the first fire ends while the receipt of the second one is reserved. -/
theorem reserved_receipt_lost : ¬∀ (events : List (ReceiptEvent ℕ)) (s : ReceiptRun ℕ),
    exec step (start "s" ⟨"* * * * *", false, false⟩ true none 0) events = some s → ReceiptsRecovered s := by
  intro h
  obtain ⟨s, hrun⟩ : ∃ s : ReceiptRun ℕ,
      exec step (start "s" ⟨"* * * * *", false, false⟩ true none 0) (acceptedFire 5 "t" ++ reservedFire 10 ++ endedTask "t" 11) = some s :=
    ⟨_, rfl⟩
  have hlost : (exec step (start "s" ⟨"* * * * *", false, false⟩ true none 0 : ReceiptRun ℕ)
      (acceptedFire 5 "t" ++ reservedFire 10 ++ endedTask "t" 11)).all (fun s =>
        s.durable.any (fun p => p.1.id = 1) && (s.file.recovered (fun _ => none) false 0 20).appended.length = 1 &&
          (s.file.recovered (fun _ => none) false 0 20).schedule.executionLedger.all fun row => row.receiptId ≠ some 1) = true := by
    decide +kernel
  rw [hrun, Option.all_some, Bool.and_eq_true, Bool.and_eq_true, any_eq_true, all_eq_true, decide_eq_true_eq] at hlost
  obtain ⟨⟨⟨p, hp, hid⟩, hlength⟩, hnone⟩ := hlost
  rcases h _ s hrun (fun _ => none) false 0 20 p hp with hmany | ⟨row, hrow, -, hreceipt⟩
  · rw [MAX_LEDGER_ENTRIES] at hmany
    omega
  · rw [decide_eq_true_eq] at hid
    have hne := of_decide_eq_true (hnone row hrow)
    exact hne (hreceipt.trans (congrArg some hid))

end ReceiptRun

end Kookr.Schedules
