import Kookr.Sanity.Remote.JournalView
import Mathlib.Data.List.Perm.Subperm

/-! Snapshots: applying the snapshot of a journal shows what the journal shows, once the
maps of the journal file each value under its own id. -/

namespace Kookr.Remote

open Kookr.Lib RegisterLog OrderedMap List

namespace JournalState

/-- Intents are filed under their command id and entries under their tuple key. -/
structure WellKeyed (s : JournalState) : Prop where
  intents : ∀ c i, s.intents.get c = some i → i.1.commandId = c
  idempotency : ∀ k e, s.idempotency.get k = some e → e.tupleKey = k

theorem wellKeyed_empty : WellKeyed .empty := ⟨by simp [empty], by simp [empty]⟩

theorem WellKeyed.setIntent {s : JournalState} (h : s.WellKeyed) (command : CommandEnvelope)
    (t : Timestamp) (c : String) (i : CommandEnvelope × Timestamp)
    (hi : (s.intents.set command.commandId (command, t)).get c = some i) : i.1.commandId = c := by
  rw [get_set] at hi
  split at hi
  · cases hi; assumption
  · exact h.intents c i hi

theorem WellKeyed.setEntry {s : JournalState} (h : s.WellKeyed) {key k : String}
    {e e' : IdempotencyEntry} (he : (s.idempotency.set key e).get k = some e') (hkey : e.tupleKey = key) : e'.tupleKey = k := by
  rcases get_set_some he with ⟨hk, rfl⟩ | ⟨-, he⟩
  · exact hkey.trans hk
  · exact h.idempotency k e' he

theorem foldl_keep {σ α β : Type*} (f : σ → α) {g : σ → β → σ} (hg : ∀ s x, f (g s x) = f s)
    (l : List β) (s : σ) : f (l.foldl g s) = f s := by
  induction l generalizing s with
  | nil => rfl
  | cons x l ih => rw [foldl_cons, ih, hg]

theorem foldl_field {σ α β : Type*} (f : σ → α) (h : α → β → α) {g : σ → β → σ}
    (hg : ∀ s x, f (g s x) = h (f s) x) (l : List β) (s : σ) : f (l.foldl g s) = l.foldl h (f s) := by
  induction l generalizing s with
  | nil => rfl
  | cons x l ih => rw [foldl_cons, ih, hg, foldl_cons]

variable (s : JournalState) (σ : JournalSnapshot)

theorem applySnapshot_intents : (applySnapshot s σ).intents =
      σ.intents.foldl (fun m i => m.set i.1.commandId i) .empty := by
  simp only [applySnapshot]
  rw [foldl_keep intents, foldl_keep intents, foldl_keep intents,
    foldl_field intents fun m i => m.set i.1.commandId i]
  all_goals exact fun _ _ => rfl

theorem applySnapshot_results :
    (applySnapshot s σ).results = σ.results.foldl (fun m e => m.set e.1 e.2.1) .empty := by
  simp only [applySnapshot]
  rw [foldl_keep results, foldl_keep results, foldl_field results fun m e => m.set e.1 e.2.1,
    foldl_keep results]
  all_goals exact fun _ _ => rfl

theorem applySnapshot_idempotency : (applySnapshot s σ).idempotency =
      σ.idempotency.foldl (fun m e => m.set e.tupleKey e) .empty := by
  simp only [applySnapshot]
  rw [foldl_keep idempotency, foldl_field idempotency fun m e => m.set e.tupleKey e,
    foldl_keep idempotency, foldl_keep idempotency]
  all_goals exact fun _ _ => rfl

theorem applySnapshot_tombstones :
    (applySnapshot s σ).tombstones = σ.tombstones.foldl (fun m g => m.set g ()) .empty := by
  simp only [applySnapshot]
  rw [foldl_field tombstones fun m g => m.set g (), foldl_keep tombstones, foldl_keep tombstones,
    foldl_keep tombstones]
  all_goals exact fun _ _ => rfl

theorem applySnapshot_lastCompactedAuditSize :
    (applySnapshot s σ).lastCompactedAuditSize = s.lastCompactedAuditSize := by
  simp only [applySnapshot]
  rw [foldl_keep lastCompactedAuditSize, foldl_keep lastCompactedAuditSize,
    foldl_keep lastCompactedAuditSize, foldl_keep lastCompactedAuditSize]
  all_goals exact fun _ _ => rfl

theorem wellKeyed_applySnapshot : (applySnapshot s σ).WellKeyed := by
  constructor
  · intro c i hi
    rw [applySnapshot_intents] at hi
    rcases get_foldl_set_cases _ _ hi with ⟨i', -, hk, rfl⟩ | hi
    · exact hk
    · simp at hi
  · intro k e he
    rw [applySnapshot_idempotency] at he
    rcases get_foldl_set_cases _ _ he with ⟨e', -, hk, rfl⟩ | he
    · exact hk
    · simp at he

variable {s : JournalState}

theorem results_applySnapshot (s t : JournalState) (size : ℤ) (now : Timestamp) (c : String) :
    (applySnapshot t (s.snapshotOf size now)).results.get c = s.results.get c := by
  rw [applySnapshot_results]
  simp only [snapshotOf]
  have hkeys : (s.results.entries.map fun e =>
      (e.1, e.2, (s.commandLastSeenAt.get e.1).getD now.ms)).map Prod.fst = s.results.keys := by
    simp [OrderedMap.keys]
  cases hc : s.results.get c with
  | some r =>
    have hmem : (c, r, (s.commandLastSeenAt.get c).getD now.ms) ∈ s.results.entries.map fun e =>
        (e.1, e.2, (s.commandLastSeenAt.get e.1).getD now.ms) :=
      mem_map.2 ⟨(c, r), (get_eq_some_iff _ _ _).1 hc, rfl⟩
    exact get_foldl_set_of_mem Prod.fst (fun e => e.2.1)
      (by rw [hkeys]; exact s.results.nodup_keys) hmem .empty
  | none =>
    exact get_foldl_set_of_not_mem Prod.fst (fun e : String × CommandResult × ℤ => e.2.1)
      (by rw [hkeys]; exact (get_eq_none_iff _ _).1 hc) .empty

theorem intents_applySnapshot (h : s.WellKeyed) (t : JournalState) (size : ℤ) (now : Timestamp)
    {c : String} (hc : s.results.get c = none) : (applySnapshot t (s.snapshotOf size now)).intents.get c = s.intents.get c := by
  rw [applySnapshot_intents]
  have hkeys := s.intents.values_map_eq_keys (fun i => i.1.commandId) h.intents
  have hnodup : ((s.intents.values.filter fun i => !s.results.has i.1.commandId).map
      fun i => i.1.commandId).Nodup := by
    refine (filter_sublist.map _).nodup ?_
    rw [hkeys]; exact s.intents.nodup_keys
  cases hi : s.intents.get c with
  | some i =>
    have hid := h.intents c i hi
    have hmem : i ∈ s.intents.values.filter fun i => !s.results.has i.1.commandId :=
      mem_filter.2 ⟨(mem_values_iff _ _).2 ⟨c, hi⟩, by simp [has, hid, hc]⟩
    have := get_foldl_set_of_mem (fun i => i.1.commandId) (fun i => i) hnodup hmem .empty
    rwa [hid] at this
  | none =>
    have hmem : c ∉ (s.intents.values.filter fun i => !s.results.has i.1.commandId).map
        fun i => i.1.commandId := by
      intro hmem
      have := (filter_sublist.map _).subset hmem
      rw [hkeys] at this
      exact (get_eq_none_iff _ _).1 hi this
    exact get_foldl_set_of_not_mem (fun i : CommandEnvelope × Timestamp => i.1.commandId)
      (fun i => i) hmem .empty

theorem idempotency_applySnapshot (h : s.WellKeyed) (t : JournalState) (size : ℤ) (now : Timestamp) (k : String) :
    (applySnapshot t (s.snapshotOf size now)).idempotency.get k = s.idempotency.get k := by
  rw [applySnapshot_idempotency]
  simp only [snapshotOf]
  have hkeys := s.idempotency.values_map_eq_keys IdempotencyEntry.tupleKey h.idempotency
  cases hk : s.idempotency.get k with
  | some e =>
    have hid := h.idempotency k e hk
    have := get_foldl_set_of_mem IdempotencyEntry.tupleKey (fun e => e)
      (by rw [hkeys]; exact s.idempotency.nodup_keys)
      ((mem_values_iff _ _).2 ⟨k, hk⟩) .empty
    rwa [hid] at this
  | none =>
    rw [get_foldl_set_of_not_mem IdempotencyEntry.tupleKey (fun e => e)]
    · rfl
    · rw [hkeys]; exact (get_eq_none_iff _ _).1 hk

theorem tombstones_applySnapshot (s t : JournalState) (size : ℤ) (now : Timestamp) (g : String) :
    (applySnapshot t (s.snapshotOf size now)).tombstones.get g = s.tombstones.get g := by
  rw [applySnapshot_tombstones]
  simp only [snapshotOf]
  cases hg : s.tombstones.get g with
  | some u =>
    have hmem : g ∈ s.tombstones.keys := (get_isSome_iff _ _).1 (by simp [hg])
    exact get_foldl_set_of_mem (fun g => g) (fun _ => ()) (by simpa using s.tombstones.nodup_keys)
      hmem .empty
  | none =>
    rw [get_foldl_set_of_not_mem (fun g => g) (fun _ => ())]
    · rfl
    · simpa using (get_eq_none_iff _ _).1 hg

/-- A snapshot shows what the journal showed when it was captured. -/
theorem view_applySnapshot_snapshotOf (h : s.WellKeyed) (t : JournalState) (size : ℤ)
    (now : Timestamp) : (applySnapshot t (s.snapshotOf size now)).view = s.view := by
  funext k
  cases k with
  | grant g =>
    simp [view, hasTombstone, has, tombstones_applySnapshot]
  | command c =>
    simp only [view, results_applySnapshot]
    cases hc : s.results.get c with
    | some r => rfl
    | none => rw [intents_applySnapshot h t size now hc]

end JournalState

end Kookr.Remote

/-! Loading a journal. With fewer commands than `pruneCommandState` starts to drop, a
journal shows the replay of the audit rows over the snapshot. -/

namespace Kookr.Remote

open Kookr.Lib RegisterLog

namespace JournalState

variable {s : JournalState} {ids : List String} (cfg : JournalConfig)

/-- Only the commands in `ids` are known. -/
def Within (ids : List String) (s : JournalState) : Prop :=
  ∀ c, s.view (.command c) ≠ .unseen → c ∈ ids

theorem Within.congr {s' : JournalState} (h : s.Within ids) (hv : s'.view = s.view) :
    s'.Within ids := fun c hc => h c (by rwa [← hv])

theorem view_ne_unseen (s : JournalState) {c : String} (hc : c ∈ s.intents.keys ++ s.results.keys) :
    s.view (.command c) ≠ .unseen := by
  simp only [view]
  cases hr : s.results.get c with
  | some r => simp
  | none =>
    have hi : c ∈ s.intents.keys :=
      (List.mem_append.1 hc).resolve_right ((OrderedMap.get_eq_none_iff _ _).1 hr)
    obtain ⟨i, hi⟩ := Option.isSome_iff_exists.1 ((OrderedMap.get_isSome_iff _ _).2 hi)
    simp [hi]

theorem pruneCommandState_eq_self (h : s.Within ids) (hl : ids.length ≤ MAX_COMMAND_STATE_ENTRIES) : s.pruneCommandState = s := by
  refine if_pos (le_trans ?_ hl)
  refine (List.subperm_of_subset (List.nodup_dedup _) fun c hc => ?_).length_le
  exact h c (s.view_ne_unseen (List.mem_dedup.1 hc))

theorem view_prune (h : s.Within ids) (hl : ids.length ≤ MAX_COMMAND_STATE_ENTRIES) (now : Timestamp) :
    (s.prune cfg now).view = s.view := by
  simp only [prune]
  split
  · rfl
  · rw [pruneCommandState_eq_self (h.congr ?_) hl] <;> rfl

theorem view_begin (h : s.Within ids)
    (hl : ids.length ≤ MAX_COMMAND_STATE_ENTRIES) (command : CommandEnvelope) (now : Timestamp) :
    (s.begin cfg command now).1.view = s.view := by
  rw [← view_prune cfg h hl now, begin]
  split
  · rfl
  · split <;> rfl

theorem WellKeyed.of_filter {s' : JournalState} (h : s.WellKeyed)
    (hi : ∀ c i, s'.intents.get c = some i → s.intents.get c = some i)
    (he : ∀ k e, s'.idempotency.get k = some e → s.idempotency.get k = some e) : s'.WellKeyed :=
  ⟨fun c i hc => h.intents c i (hi c i hc), fun k e hk => h.idempotency k e (he k e hk)⟩

theorem get_of_get_filter {ν : Type*} {m : OrderedMap String ν} {p : String → ν → Bool} {k : String}
    {v : ν} (h : (m.filter p).get k = some v) : m.get k = some v := by
  rw [OrderedMap.get_filter] at h
  exact (Option.filter_eq_some_iff.1 h).1

theorem WellKeyed.pruneCommandState (h : s.WellKeyed) : s.pruneCommandState.WellKeyed := by
  unfold JournalState.pruneCommandState
  split
  · exact h
  · exact h.of_filter (fun _ _ => get_of_get_filter) fun _ _ => id

theorem WellKeyed.prune (h : s.WellKeyed) (now : Timestamp) : (s.prune cfg now).WellKeyed := by
  simp only [JournalState.prune]
  split
  · exact h.of_filter (fun _ _ => id) fun _ _ => get_of_get_filter
  · refine WellKeyed.pruneCommandState ?_
    refine h.of_filter (fun c i hi => hi) fun k e he => ?_
    dsimp only at he
    exact get_of_get_filter (get_of_get_filter he)

theorem WellKeyed.begin (h : s.WellKeyed) (command : CommandEnvelope)
    (now : Timestamp) : (s.begin cfg command now).1.WellKeyed := by
  have hp := h.prune cfg now
  rw [JournalState.begin]
  split
  · exact hp
  · rename_i existing hex
    have hkey := hp.idempotency _ existing hex
    split <;> exact ⟨hp.intents, fun k e he => hp.setEntry he hkey⟩

theorem WellKeyed.applyAuditRow (h : s.WellKeyed) (row : AuditRow) : (s.applyAuditRow cfg row).WellKeyed := by
  have hdel : ∀ c' c i, (s.intents.delete c').get c = some i → i.1.commandId = c :=
    fun _ c i hi => h.intents c i (get_of_get_filter hi)
  cases row with
  | intent command timestamp =>
    refine ⟨h.setIntent command timestamp, fun k e he => ?_⟩
    simp only [JournalState.applyAuditRow] at he
    split at he
    · exact h.setEntry he rfl
    · exact h.idempotency k e he
  | result command outcome reason value timestamp =>
    refine ⟨hdel command.commandId, fun k e he => ?_⟩
    simp only [JournalState.applyAuditRow] at he
    split at he
    · exact h.setEntry he rfl
    · exact h.idempotency k e he
  | preAuditReject command outcome reason timestamp => exact ⟨hdel command.commandId, h.idempotency⟩
  | revoke grantId nodeId nodeEpoch policyVersion timestamp => exact ⟨h.intents, h.idempotency⟩

theorem wellKeyed_foldl (rows : List AuditRow) (h : s.WellKeyed) : (rows.foldl (JournalState.applyAuditRow cfg) s).WellKeyed := by
  induction rows generalizing s with
  | nil => exact h
  | cons row rows ih => exact ih (h.applyAuditRow cfg row)

end JournalState

theorem JournalCall.wellKeyed_start (cfg : JournalConfig) {s : JournalState} (h : s.WellKeyed)
    (now : Timestamp) (call : JournalCall) : (call.start cfg s now).1.WellKeyed := by
  cases call with
  | appendIntent command => exact ⟨h.setIntent command now, fun k e he => h.setEntry he rfl⟩
  | appendResult command result =>
    refine ⟨fun c i hi => h.intents c i (JournalState.get_of_get_filter hi), fun k e he => ?_⟩
    simp only [start, JournalState.appendResult] at he
    split at he
    · rename_i entry hentry
      have hkey := h.idempotency _ entry hentry
      exact h.setEntry he hkey
    · exact h.idempotency k e he
  | appendPreAuditReject command reason | revokeGrant grantId policyVersion => exact ⟨h.intents, h.idempotency⟩

namespace Disk

def rows (d : Disk) : List AuditRow := LineFile.read AuditRow.parseLine d.auditBytes

/-- The snapshot, if there is one, covers nothing of the present audit; every snapshot
that a rotation writes is such. -/
def SnapshotAtZero (d : Disk) : Prop := ∀ σ ∈ d.readSnapshot, σ.auditSizeBytes = 0

/-- The state `load` builds before it prunes. -/
def replayed (cfg : JournalConfig) (d : Disk) : JournalState :=
  d.rows.foldl (JournalState.applyAuditRow cfg) d.base

theorem readAuditTail_zero (d : Disk) : d.readAuditTail 0 = d.auditBytes := by
  unfold readAuditTail
  split
  · rename_i h
    exact (List.length_eq_zero_iff.1 (by simpa [auditSize] using h)).symm
  · simp

variable (cfg : JournalConfig)

theorem load_eq {d : Disk} (h : d.SnapshotAtZero) :
    JournalState.load cfg d = (d.replayed cfg).pruneCommandState.pruneCommandState := by
  unfold JournalState.load replayed base
  cases hσ : d.readSnapshot with
  | none => simp only [readAuditTail_zero]; rfl
  | some σ =>
    have h0 : σ.auditSizeBytes = 0 := h σ hσ
    have hle : (0 : ℤ) ≤ d.auditSize := by simp [auditSize]
    have hlast : { JournalState.applySnapshot .empty σ with lastCompactedAuditSize := 0 } =
        JournalState.applySnapshot .empty σ := by
      have := JournalState.applySnapshot_lastCompactedAuditSize .empty σ
      rw [show (0 : ℤ) = JournalState.empty.lastCompactedAuditSize from rfl, ← this]
    simp only [h0, hle, if_true, hlast, readAuditTail_zero]
    rfl

theorem wellKeyed_base (d : Disk) : d.base.WellKeyed := by
  unfold base
  split
  · exact JournalState.wellKeyed_applySnapshot _ _
  · exact JournalState.wellKeyed_empty

theorem wellKeyed_load {d : Disk} (h : d.SnapshotAtZero) : (JournalState.load cfg d).WellKeyed := by
  rw [load_eq cfg h]
  exact ((JournalState.wellKeyed_foldl cfg d.rows d.wellKeyed_base).pruneCommandState).pruneCommandState

/-- What the files show. -/
def recovered (d : Disk) : Subject → View :=
  replay View.rank d.base.view (d.rows.map AuditRow.entry)

theorem view_replayed (d : Disk) : (d.replayed cfg).view = d.recovered :=
  JournalState.view_foldl_applyAuditRow cfg d.rows d.base

theorem load_eq_replayed {d : Disk} (h : d.SnapshotAtZero) {ids : List String}
    (hids : ∀ c, d.recovered (.command c) ≠ .unseen → c ∈ ids)
    (hl : ids.length ≤ MAX_COMMAND_STATE_ENTRIES) : JournalState.load cfg d = d.replayed cfg := by
  have hw : (d.replayed cfg).Within ids := fun c hc => hids c (by rwa [← view_replayed cfg d])
  rw [load_eq cfg h, JournalState.pruneCommandState_eq_self hw hl,
    JournalState.pruneCommandState_eq_self hw hl]

end Disk

end Kookr.Remote

/-! What the single file operations do to the rows and the snapshot a reader finds, and
to the calls in flight. -/

namespace Kookr.Remote

open Kookr.Lib RegisterLog

namespace Disk

theorem rows_append {d : Disk} (h : LineFile.Aligned d.auditBytes) (row : AuditRow) :
    ({ d with audit := some (d.auditBytes ++ LineFile.line row.line) } : Disk).rows = d.rows ++ [row] := by
  change LineFile.read _ (d.auditBytes ++ LineFile.line row.line) = LineFile.read _ d.auditBytes ++ [row]
  rw [LineFile.read_append _ parseLine_nil h, LineFile.read_line _ parseLine_nil (newline_not_mem_line row),
    parseLine_line]
  rfl

theorem rows_eq_nil {d : Disk} (h : d.auditBytes = []) : d.rows = [] := by
  rw [rows, h, LineFile.read_nil _ parseLine_nil]

theorem readSnapshot_text (d : Disk) (σ : JournalSnapshot) (h : d.snapshot = some (Utf8.encode σ.text)) :
    d.readSnapshot = some σ := by
  simp [readSnapshot, h, parseText_text]

theorem base_eq_applySnapshot {d : Disk} {σ : JournalSnapshot} (h : d.readSnapshot = some σ) :
    d.base = JournalState.applySnapshot .empty σ := by
  simp [base, h]

end Disk

namespace JournalRun

variable {s : JournalRun} {i : ℕ} {st : AppendStatus} {w : World} {j : ℕ}

theorem lt_of_getElem? {pc : AppendStatus} (h : s.calls[i]? = some pc) : i < s.calls.length :=
  (getElem?_eq_some_iff.1 h).1

theorem getElem?_set_ne (hji : j ≠ i) : (⟨w, s.calls.set i st⟩ : JournalRun).calls[j]? = s.calls[j]? := by
  simp [List.getElem?_set_ne (Ne.symm hji)]

theorem pending_set_self (hi : i < s.calls.length) : (⟨w, s.calls.set i st⟩ : JournalRun).pending i = st.pendingEntry := by
  simp [pending, List.getElem?_set_self hi]

theorem pending_set_ne (hji : j ≠ i) : (⟨w, s.calls.set i st⟩ : JournalRun).pending j = s.pending j := by
  simp [pending, List.getElem?_set_ne (Ne.symm hji)]

theorem pending_set {old : AppendStatus} (hi : s.calls[i]? = some old) (h : st.pendingEntry = old.pendingEntry) :
    (⟨w, s.calls.set i st⟩ : JournalRun).pending = s.pending := by
  funext j
  by_cases hji : j = i
  · subst hji
    rw [pending_set_self (lt_of_getElem? hi), h, pending, hi]
    rfl
  · exact pending_set_ne hji

theorem rotation_set_self (hi : i < s.calls.length) :
    (⟨w, s.calls.set i st⟩ : JournalRun).rotation i = st.rotationView w.disk := by
  simp [rotation, List.getElem?_set_self hi]

theorem rotationView_congr {d d' : Disk} (h : d'.base.view = d.base.view) (st : AppendStatus) :
    st.rotationView d' = st.rotationView d := by
  cases st with
  | running pc => cases pc <;> simp [AppendStatus.rotationView, h]
  | resolved | rejected => rfl

theorem rotation_set_ne (hji : j ≠ i) (hb : w.disk.base.view = s.world.disk.base.view) :
    (⟨w, s.calls.set i st⟩ : JournalRun).rotation j = s.rotation j := by
  simp only [rotation, List.getElem?_set_ne (Ne.symm hji)]
  cases s.calls[j]? with
  | none => rfl
  | some st' => exact rotationView_congr hb st'

theorem rotation_isSome_set_ne (w : World) (st : AppendStatus) (hji : j ≠ i) :
    ((⟨w, s.calls.set i st⟩ : JournalRun).rotation j).isSome = (s.rotation j).isSome := by
  simp only [rotation, List.getElem?_set_ne (Ne.symm hji)]
  cases s.calls[j]? with
  | none => rfl
  | some st' =>
    cases st' with
    | running pc => cases pc <;> rfl
    | resolved | rejected => rfl

theorem pending_call (st : AppendStatus) : (⟨w, s.calls ++ [st]⟩ : JournalRun).pending s.calls.length = st.pendingEntry := by
  simp [pending]

theorem pending_call_ne (hj : j ≠ s.calls.length) : (⟨w, s.calls ++ [st]⟩ : JournalRun).pending j = s.pending j := by
  simp only [pending]
  rcases Nat.lt_or_gt_of_ne hj with hlt | hgt
  · rw [List.getElem?_append_left hlt]
  · rw [List.getElem?_eq_none (by simp; omega), List.getElem?_eq_none (by omega)]

theorem pending_length (s : JournalRun) : s.pending s.calls.length = none := by simp [pending]

theorem rotation_call {row : AuditRow} (hd : w.disk = s.world.disk) (j : ℕ) :
    (⟨w, s.calls ++ [.running (.mkdirAudit row)]⟩ : JournalRun).rotation j = s.rotation j := by
  simp only [rotation, hd]
  rcases Nat.lt_trichotomy j s.calls.length with hlt | rfl | hgt
  · rw [List.getElem?_append_left hlt]
  · simp [AppendStatus.rotationView]
  · rw [List.getElem?_eq_none (by simp; omega), List.getElem?_eq_none (by omega)]

theorem pending_of_settled (h : s.Settled) (i : ℕ) : s.pending i = none := by
  unfold pending
  cases hi : s.calls[i]? with
  | none => rfl
  | some st =>
    cases st with
    | running pc => exact absurd (h _ (List.mem_of_getElem? hi)) (by simp [AppendStatus.isRunning])
    | resolved | rejected => rfl

end JournalRun

end Kookr.Remote
