import Kookr.Sanity.Remote.JournalDisk
import Kookr.Lib.Exec

/-! The invariant of a journal under concurrent appends and rotations, as long as each
row is written safely and rotations do not overlap. -/

namespace Kookr.Remote

open Kookr.Lib RegisterLog JournalRun

/-- The grant or command a call is about. -/
def JournalCall.subject : JournalCall → Subject
  | .appendIntent command => .command command.commandId
  | .appendResult command _ => .command command.commandId
  | .appendPreAuditReject command _ => .command command.commandId
  | .revokeGrant grantId _ => .grant grantId

theorem JournalCall.entry_start (cfg : JournalConfig) (s : JournalState) (now : Timestamp)
    (call : JournalCall) : (call.start cfg s now).2.entry.1 = call.subject := by
  cases call <;> rfl

theorem JournalCall.within_start (cfg : JournalConfig) {s : JournalState} {ids : List String}
    (h : s.Within ids) (now : Timestamp) {call : JournalCall} (hm : call.Matched)
    (hc : ∀ c, call.subject = .command c → c ∈ ids) : (call.start cfg s now).1.Within ids := by
  intro c hne
  by_cases hsub : call.subject = .command c
  · exact hc c hsub
  · refine h c fun hold => hne ?_
    rw [JournalCall.view_start cfg s now hm,
      put_of_ne _ _ (by rw [JournalCall.entry_start]; exact Ne.symm hsub), hold]

namespace JournalRun

/-- When call `i` writes its row: the row would not replace what memory shows, or a call
that has yet to write its own row will write what memory shows; and if memory shows the
row, then so does the snapshot of every rotation in progress. -/
def AppendSafe (s : JournalRun) (i : ℕ) (row : AuditRow) : Prop :=
  let shown := s.world.mem.view row.entry.1
  (upd View.rank shown row.entry.2 = shown ∨ PendingBut s.pending i row.entry.1 shown) ∧
  (row.entry.2 = shown → ∀ j σ, s.rotation j = some σ →
    σ row.entry.1 = row.entry.2 ∨ PendingBut s.pending i row.entry.1 shown)

/-- Rows are written, each safely, and a rotation starts only when none is in progress. -/
def RotationSafe (cfg : JournalConfig) (ids : List String) (s : JournalRun) : JournalEvent → Prop
  | .call call _ => call.Matched ∧ ∀ c, call.subject = .command c → c ∈ ids
  | .begin _ _ => True
  | .io i _ ok =>
    match s.calls[i]? with
    | some (.running (.mkdirAudit _)) => ok = true
    | some (.running (.appendFile row)) => ok = true ∧ s.AppendSafe i row
    | some (.running (.afterStat size)) =>
      size - s.world.mem.lastCompactedAuditSize < cfg.compactAfterBytes ∨ ∀ j, s.rotation j = none
    | _ => True

end JournalRun

/-- The snapshot a call holds starts at the beginning of an audit, and the temporary file
it is about to rename, if still there, is its own. -/
def AppendStatus.Ok (d : Disk) : AppendStatus → Prop
  | .running (.mkdirSnapshot σ) => σ.auditSizeBytes = 0
  | .running (.writeTmp σ) => σ.auditSizeBytes = 0
  | .running (.renameTmp σ) => σ.auditSizeBytes = 0 ∧ ∀ bytes ∈ d.tmp, bytes = Utf8.encode σ.text
  | _ => True

structure RunInv (ids : List String) (s : JournalRun) : Prop where
  keyed : s.world.mem.WellKeyed
  within : s.world.mem.Within ids
  aligned : LineFile.Aligned s.world.disk.auditBytes
  zero : s.world.disk.SnapshotAtZero
  unique : ∀ i j, (s.rotation i).isSome → (s.rotation j).isSome → i = j
  ok : ∀ (i : ℕ) (st : AppendStatus), s.calls[i]? = some st → st.Ok s.world.disk
  log : Inv View.rank s.world.mem.view s.world.disk.base.view
    (s.world.disk.rows.map AuditRow.entry) s.pending s.rotation

namespace RunInv

variable {cfg : JournalConfig} {ids : List String} {s : JournalRun} {i : ℕ} {old st : AppendStatus}

theorem init (cfg : JournalConfig) {d : Disk} (hal : LineFile.Aligned d.auditBytes)
    (hzero : d.SnapshotAtZero) (hids : ∀ c, d.recovered (.command c) ≠ .unseen → c ∈ ids)
    (hl : ids.length ≤ MAX_COMMAND_STATE_ENTRIES) : RunInv ids (JournalRun.init cfg d) := by
  have hload := Disk.load_eq_replayed cfg hzero hids hl
  have hview : (JournalState.load cfg d).view = d.recovered := by rw [hload, Disk.view_replayed]
  refine ⟨Disk.wellKeyed_load cfg hzero, fun c hc => hids c ?_, hal, hzero, ?_, ?_, ?_⟩
  · rwa [← hview]
  · intro i j hi; cases hi
  · intro i st hi; cases hi
  · have hlog : Inv View.rank d.recovered d.base.view (d.rows.map AuditRow.entry)
        (fun _ : ℕ => none) fun _ => none := Inv.init _ _
    have hpend : (JournalRun.init cfg d).pending = fun _ => none := by
      funext j; simp [JournalRun.pending, JournalRun.init]
    have hrot : (JournalRun.init cfg d).rotation = fun _ => none := by
      funext j; simp [JournalRun.rotation, JournalRun.init]
    rw [hpend, hrot]
    simpa only [JournalRun.init, openJournal, hview] using hlog

section

variable (h : RunInv ids s)
include h

theorem alone (hi : (s.rotation i).isSome) : ∀ j, j ≠ i → s.rotation j = none := by
  intro j hji
  by_contra hne
  exact hji (h.unique j i (Option.isSome_iff_ne_none.2 hne) hi)

/-- A step of call `i` keeps the invariant when it keeps the log and the call itself is
in order: it does not begin to rotate next to another rotation, and it touches the
temporary file only while it rotates alone. -/
theorem set {w : World} (hi : s.calls[i]? = some old) (hview : w.mem.view = s.world.mem.view) (hkeyed : w.mem.WellKeyed)
    (hal : LineFile.Aligned w.disk.auditBytes) (hzero : w.disk.SnapshotAtZero) (hok : st.Ok w.disk)
    (hrot : (st.rotationView w.disk).isSome → ∀ j, j ≠ i → s.rotation j = none)
    (htmp : w.disk.tmp = s.world.disk.tmp ∨ w.disk.tmp = none ∨ ∀ j, j ≠ i → s.rotation j = none)
    (hlog : Inv View.rank w.mem.view w.disk.base.view (w.disk.rows.map AuditRow.entry)
      (⟨w, s.calls.set i st⟩ : JournalRun).pending (⟨w, s.calls.set i st⟩ : JournalRun).rotation) :
    RunInv ids ⟨w, s.calls.set i st⟩ := by
  have hlt := lt_of_getElem? hi
  refine ⟨hkeyed, h.within.congr hview, hal, hzero, ?_, ?_, hlog⟩
  · intro j k hj hk
    by_cases hji : j = i <;> by_cases hki : k = i
    · rw [hji, hki]
    · rw [rotation_isSome_set_ne w st hki] at hk
      rw [hji, rotation_set_self hlt] at hj
      rw [hrot hj k hki] at hk; cases hk
    · rw [rotation_isSome_set_ne w st hji] at hj
      rw [hki, rotation_set_self hlt] at hk
      rw [hrot hk j hji] at hj; cases hj
    · rw [rotation_isSome_set_ne w st hji] at hj
      rw [rotation_isSome_set_ne w st hki] at hk
      exact h.unique j k hj hk
  · intro j st' hj
    by_cases hji : j = i
    · subst hji
      obtain rfl : st = st' := by simpa [List.getElem?_set_self hlt] using hj
      exact hok
    · rw [getElem?_set_ne hji] at hj
      have hst := h.ok j st' hj
      -- only a call that is about to rename the temporary file depends on it
      cases st' with
      | resolved | rejected => trivial
      | running pc =>
        cases pc with
        | renameTmp σ =>
          refine ⟨hst.1, fun bytes hb => ?_⟩
          rcases htmp with htmp | htmp | htmp
          · exact hst.2 bytes (htmp ▸ hb)
          · rw [htmp] at hb; cases hb
          · have := htmp j hji
            simp [JournalRun.rotation, hj, AppendStatus.rotationView] at this
        | _ => exact hst

/-- A step that changes no file a reader looks at and leaves the view as it is. -/
theorem quiet {w : World} (hi : s.calls[i]? = some old) (hview : w.mem.view = s.world.mem.view) (hkeyed : w.mem.WellKeyed)
    (haudit : w.disk.audit = s.world.disk.audit) (hsnap : w.disk.snapshot = s.world.disk.snapshot)
    (hok : st.Ok w.disk) (hpend : st.pendingEntry = old.pendingEntry)
    (hrot : ∀ σ, st.rotationView w.disk = some σ → old.rotationView w.disk = some σ)
    (htmp : w.disk.tmp = s.world.disk.tmp ∨ w.disk.tmp = none ∨ ∀ j, j ≠ i → s.rotation j = none) :
    RunInv ids ⟨w, s.calls.set i st⟩ := by
  have hlt := lt_of_getElem? hi
  have hread : w.disk.readSnapshot = s.world.disk.readSnapshot := by simp [Disk.readSnapshot, hsnap]
  have hbase : w.disk.base = s.world.disk.base := by simp [Disk.base, hread]
  have hbytes : w.disk.auditBytes = s.world.disk.auditBytes := by simp [Disk.auditBytes, haudit]
  have hrows : w.disk.rows = s.world.disk.rows := by simp [Disk.rows, hbytes]
  have hold : s.rotation i = old.rotationView w.disk := by
    rw [JournalRun.rotation, hi]
    exact (rotationView_congr (by rw [hbase]) old).symm
  refine h.set hi hview hkeyed (hbytes ▸ h.aligned) (fun σ hσ => h.zero σ (hread ▸ hσ)) hok ?_ htmp ?_
  · intro hsome
    obtain ⟨σ, hσ⟩ := Option.isSome_iff_exists.1 hsome
    exact h.alone (by rw [hold, hrot σ hσ]; rfl)
  · rw [hview, hbase, hrows, pending_set hi hpend]
    refine h.log.release fun j σ hσ => ?_
    by_cases hji : j = i
    · subst hji
      rw [rotation_set_self hlt] at hσ
      rw [hold, hrot σ hσ]
    · rwa [rotation_set_ne hji (by rw [hbase])] at hσ

theorem call {call : JournalCall} (hm : call.Matched) (hc : ∀ c, call.subject = .command c → c ∈ ids) (now : Timestamp) :
    RunInv ids ⟨{ s.world with mem := (call.start cfg s.world.mem now).1 },
      s.calls ++ [.running (.mkdirAudit (call.start cfg s.world.mem now).2)]⟩ := by
  have hview := JournalCall.view_start cfg s.world.mem now hm
  have hrot : ∀ j, (⟨{ s.world with mem := (call.start cfg s.world.mem now).1 },
      s.calls ++ [.running (.mkdirAudit (call.start cfg s.world.mem now).2)]⟩ : JournalRun).rotation j
      = s.rotation j := rotation_call rfl
  refine ⟨JournalCall.wellKeyed_start cfg h.keyed now call,
    JournalCall.within_start cfg h.within now hm hc, h.aligned, h.zero, ?_, ?_, ?_⟩
  · intro j k hj hk
    rw [hrot] at hj hk
    exact h.unique j k hj hk
  · intro j st' hj
    rcases Nat.lt_or_ge j s.calls.length with hlt | hge
    · exact h.ok j st' (by simpa [List.getElem?_append_left hlt] using hj)
    · rw [List.getElem?_append_right hge] at hj
      rw [List.mem_singleton.1 (List.mem_of_getElem? hj)]
      trivial
  · rw [hview]
    refine (h.log.call s.pending_length _ (pending_call _)
      fun j => pending_call_ne).release fun j σ hσ => ?_
    rwa [hrot] at hσ

theorem appendFile {row : AuditRow} (hi : s.calls[i]? = some (.running (.appendFile row)))
    (hsafe : s.AppendSafe i row) (hst : st = .resolved ∨ st = .running .statAudit) :
    RunInv ids ⟨{ s.world with
      disk.audit := some (s.world.disk.auditBytes ++ LineFile.line row.line) }, s.calls.set i st⟩ := by
  have hlt := lt_of_getElem? hi
  have hrot : ∀ d, st.rotationView d = none := by rcases hst with rfl | rfl <;> intro d <;> rfl
  refine h.set hi rfl h.keyed (LineFile.aligned_append_line _ _) h.zero ?_ ?_ (.inl rfl) ?_
  · rcases hst with rfl | rfl <;> trivial
  · intro hsome; rw [hrot] at hsome; cases hsome
  · rw [Disk.rows_append h.aligned, List.map_append]
    refine (h.log.append (i := i) ?_ hsafe.1 hsafe.2 ?_ fun j => pending_set_ne).release ?_
    · simp [pending, hi, AppendStatus.pendingEntry]
    · rw [pending_set_self hlt]
      rcases hst with rfl | rfl <;> rfl
    · intro j σ hσ
      by_cases hji : j = i
      · subst hji; rw [rotation_set_self hlt, hrot] at hσ; cases hσ
      · exact (rotation_set_ne hji rfl).symm.trans hσ

theorem capture (hl : ids.length ≤ MAX_COMMAND_STATE_ENTRIES) {size : ℤ}
    (hi : s.calls[i]? = some (.running (.afterStat size))) (hnone : ∀ j, s.rotation j = none) (now : Timestamp) :
    RunInv ids ⟨{ s.world with mem := s.world.mem.pruneCommandState }, s.calls.set i
      (.running (.mkdirSnapshot (s.world.mem.pruneCommandState.snapshotOf 0 now)))⟩ := by
  have hlt := lt_of_getElem? hi
  rw [JournalState.pruneCommandState_eq_self h.within hl]
  refine h.set hi rfl h.keyed h.aligned h.zero rfl (fun _ j _ => hnone j) (.inl rfl) ?_
  have hpend : (⟨s.world, s.calls.set i (.running (.mkdirSnapshot (s.world.mem.snapshotOf 0 now)))⟩ :
      JournalRun).pending = s.pending := pending_set hi rfl
  refine (hpend ▸ h.log).capture (i := i) ?_ fun j hji => rotation_set_ne hji rfl
  rw [rotation_set_self hlt]
  exact congrArg some (JournalState.view_applySnapshot_snapshotOf h.keyed _ _ _)

theorem install {σ : JournalSnapshot} {bytes : Bytes}
    (hi : s.calls[i]? = some (.running (.renameTmp σ))) (htmp : s.world.disk.tmp = some bytes) :
    RunInv ids ⟨{ s.world with disk.snapshot := some bytes, disk.tmp := none },
      s.calls.set i (.running .afterWriteSnapshot)⟩ := by
  have hlt := lt_of_getElem? hi
  obtain ⟨hsize, htext⟩ := h.ok i _ hi
  have hrot : s.rotation i = some (JournalState.applySnapshot .empty σ).view := by
    rw [JournalRun.rotation, hi]; rfl
  have halone := h.alone (by rw [hrot]; rfl)
  set d : Disk := { s.world.disk with snapshot := some bytes, tmp := none }
  have hread : d.readSnapshot = some σ := d.readSnapshot_text σ (congrArg some (htext bytes htmp))
  have hbase := Disk.base_eq_applySnapshot hread
  have hrot' : (⟨⟨s.world.mem, d⟩, s.calls.set i (.running .afterWriteSnapshot)⟩ : JournalRun).rotation
      = s.rotation := by
    funext j
    by_cases hji : j = i
    · subst hji
      rw [rotation_set_self hlt, hrot, ← hbase]
      rfl
    · have := s.rotation_isSome_set_ne ⟨s.world.mem, d⟩ (.running .afterWriteSnapshot) hji
      rw [halone j hji] at this ⊢
      exact Option.not_isSome_iff_eq_none.1 (by rw [this]; simp)
  refine h.set hi rfl h.keyed h.aligned ?_ trivial (fun _ => halone) (.inr (.inl rfl)) ?_
  · intro τ hτ
    obtain rfl : σ = τ := Option.some.inj (hread.symm.trans hτ)
    exact hsize
  · have hlog := h.log.install hrot halone
    rw [← hbase] at hlog
    have hpend : (⟨⟨s.world.mem, d⟩, s.calls.set i (.running .afterWriteSnapshot)⟩ :
        JournalRun).pending = s.pending := pending_set hi rfl
    exact hpend ▸ hrot' ▸ hlog

theorem drop {w : World} (hi : s.calls[i]? = some old) (hrot : old.rotationView s.world.disk = some s.world.disk.base.view)
    (hmem : w.mem = s.world.mem) (hsnap : w.disk.snapshot = s.world.disk.snapshot)
    (htmp : w.disk.tmp = s.world.disk.tmp) (hempty : w.disk.auditBytes = [])
    (hold : old.pendingEntry = none) (hpend : st.pendingEntry = none) (hok : st.Ok w.disk)
    (hst : st.rotationView w.disk = none ∨ st.rotationView w.disk = some w.disk.base.view) :
    RunInv ids ⟨w, s.calls.set i st⟩ := by
  have hlt := lt_of_getElem? hi
  have hread : w.disk.readSnapshot = s.world.disk.readSnapshot := by simp [Disk.readSnapshot, hsnap]
  have hbase : w.disk.base = s.world.disk.base := by simp [Disk.base, hread]
  have hroti : s.rotation i = some s.world.disk.base.view := by rw [JournalRun.rotation, hi]; exact hrot
  refine h.set hi (by rw [hmem]) (hmem ▸ h.keyed) (hempty ▸ LineFile.aligned_nil)
    (fun σ hσ => h.zero σ (hread ▸ hσ)) hok (fun _ => h.alone (by rw [hroti]; rfl)) (.inl htmp) ?_
  rw [hmem, hbase, Disk.rows_eq_nil hempty, pending_set hi (hpend.trans hold.symm)]
  refine (h.log.drop hroti).release fun j σ hσ => ?_
  by_cases hji : j = i
  · subst hji
    rw [rotation_set_self hlt] at hσ
    rcases hst with hst | hst <;> rw [hst] at hσ
    · cases hσ
    · rw [hroti, ← hσ, hbase]
  · rwa [rotation_set_ne hji (by rw [hbase])] at hσ

theorem leaves (hi : s.calls[i]? = some old) (hok : st.Ok s.world.disk) (hpend : st.pendingEntry = old.pendingEntry)
    (hnone : st.rotationView s.world.disk = none) : RunInv ids ⟨s.world, s.calls.set i st⟩ := by
  refine h.quiet hi rfl h.keyed rfl rfl hok hpend (fun σ hσ => ?_) (.inl rfl)
  rw [hnone] at hσ
  cases hσ

theorem io (hl : ids.length ≤ MAX_COMMAND_STATE_ENTRIES) {pc : AppendPc}
    (hi : s.calls[i]? = some (.running pc)) {now : Timestamp} {ok : Bool} (hsafe : s.RotationSafe cfg ids (.io i now ok)) :
    RunInv ids ⟨(appendStep cfg s.world pc now ok).1, s.calls.set i (appendStep cfg s.world pc now ok).2⟩ := by
  simp only [JournalRun.RotationSafe, hi] at hsafe
  have halone : ∀ σ, (AppendStatus.running pc).rotationView s.world.disk = some σ →
      ∀ j, j ≠ i → s.rotation j = none := fun σ hσ =>
    h.alone (by rw [JournalRun.rotation, hi]; exact Option.isSome_iff_exists.2 ⟨σ, hσ⟩)
  have hok := h.ok i _ hi
  cases pc with
  | mkdirAudit row =>
    subst hsafe
    exact h.quiet hi rfl h.keyed rfl rfl trivial rfl (fun σ hσ => hσ) (.inl rfl)
  | appendFile row =>
    obtain ⟨rfl, hsafe⟩ := hsafe
    refine h.appendFile hi hsafe ?_
    simp only [appendStep, if_true]
    split <;> simp
  | statAudit =>
    simp only [appendStep]
    split <;> exact h.leaves hi trivial rfl rfl
  | afterStat size =>
    simp only [appendStep]
    split
    · exact h.leaves hi trivial rfl rfl
    · exact h.capture hl hi (hsafe.resolve_left ‹_›) now
  | mkdirSnapshot σ =>
    cases ok
    · exact h.leaves hi trivial rfl rfl
    · exact h.quiet hi rfl h.keyed rfl rfl hok rfl (fun σ hσ => hσ) (.inl rfl)
  | writeTmp σ =>
    cases ok
    · exact h.leaves hi trivial rfl rfl
    · exact h.quiet hi rfl h.keyed rfl rfl ⟨hok, fun _ hb => (Option.some.inj hb).symm⟩ rfl (fun σ hσ => hσ) (.inr (.inr (halone _ rfl)))
  | renameTmp σ =>
    simp only [appendStep]
    split
    · rename_i bytes htmp
      exact h.install hi htmp
    · exact h.leaves hi trivial rfl rfl
  | afterWriteSnapshot =>
    exact h.quiet hi rfl ⟨h.keyed.intents, h.keyed.idempotency⟩ rfl rfl trivial rfl (fun σ hσ => hσ) (.inl rfl)
  | renameAudit archive =>
    simp only [appendStep]
    split
    · exact h.drop hi rfl rfl rfl rfl rfl rfl rfl trivial (.inr rfl)
    · exact h.leaves hi trivial rfl rfl
  | recreateAudit =>
    cases ok
    · exact h.leaves hi trivial rfl rfl
    · exact h.drop hi rfl rfl rfl rfl rfl rfl rfl trivial (.inl rfl)
  | afterRecreate =>
    exact h.quiet hi rfl ⟨h.keyed.intents, h.keyed.idempotency⟩ rfl rfl trivial rfl (fun σ hσ => by cases hσ) (.inl rfl)
  | pruneArchives =>
    cases ok <;>
      exact h.leaves hi trivial rfl rfl
  | unlinkTmp =>
    cases ok
    · exact h.leaves hi trivial rfl rfl
    · exact h.quiet hi rfl h.keyed rfl rfl trivial rfl (fun σ hσ => by cases hσ) (.inr (.inl rfl))

theorem step (hl : ids.length ≤ MAX_COMMAND_STATE_ENTRIES) {e : JournalEvent}
    {s' : JournalRun} (hsafe : s.RotationSafe cfg ids e) (hs : s.step cfg e = some s') : RunInv ids s' := by
  cases e with
  | call c now =>
    cases hs
    exact h.call hsafe.1 hsafe.2 now
  | begin command now =>
    cases hs
    have hview := JournalState.view_begin cfg h.within hl command now
    refine ⟨h.keyed.begin cfg command now, h.within.congr hview, h.aligned, h.zero, h.unique, h.ok, ?_⟩
    rw [hview]
    exact h.log
  | io i now ok =>
    simp only [JournalRun.step] at hs
    split at hs
    · rename_i pc hi
      cases hs
      exact h.io hl hi hsafe
    · cases hs

end

end RunInv

end Kookr.Remote
