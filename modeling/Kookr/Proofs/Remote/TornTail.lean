import Kookr.Proofs.Remote.JournalReplay

/-! A crash may leave the beginning of a row, without its newline, at the end of the
audit. `open` skips it, but the next row is appended to the same line. That row is safe
only if the append goes on to rotate the audit away. -/

namespace Kookr.Remote

open Kookr.Lib RegisterLog JournalState JournalRun

/-- The first call on a torn audit reaches the compaction threshold with its row. -/
def FirstAppendRotates (cfg : JournalConfig) (torn : Bytes) (s : JournalRun) : JournalEvent → Prop
  | .call call now =>
    s.calls = [] → torn = [] ∨ 0 < cfg.compactAfterBytes ∧ cfg.compactAfterBytes ≤
      s.world.disk.auditSize + (LineFile.line (call.start cfg s.world.mem now).2.line).length
  | _ => True

section Torn

variable {cfg : JournalConfig} {ids : List String} {s s' : JournalRun}

theorem lastCompactedAuditSize_pruneCommandState (m : JournalState) :
    m.pruneCommandState.lastCompactedAuditSize = m.lastCompactedAuditSize := by
  unfold pruneCommandState
  split <;> rfl

theorem lastCompactedAuditSize_begin (cfg : JournalConfig) (m : JournalState) (command : CommandEnvelope)
    (now : Timestamp) : (m.begin cfg command now).1.lastCompactedAuditSize = m.lastCompactedAuditSize := by
  have hp : (m.prune cfg now).lastCompactedAuditSize = m.lastCompactedAuditSize := by
    simp only [prune]
    split
    · rfl
    · exact lastCompactedAuditSize_pruneCommandState _
  rw [← hp, begin]
  split
  · rfl
  · split <;> rfl

theorem lastCompactedAuditSize_load (cfg : JournalConfig) {d : Disk} (h : d.SnapshotAtZero) :
    (load cfg d).lastCompactedAuditSize = 0 := by
  have hrows : ∀ (rows : List AuditRow) (m : JournalState),
      (rows.foldl (applyAuditRow cfg) m).lastCompactedAuditSize = m.lastCompactedAuditSize :=
    fun rows m => foldl_keep lastCompactedAuditSize
      (fun m row => by cases row <;> rfl) rows m
  rw [Disk.load_eq cfg h, lastCompactedAuditSize_pruneCommandState,
    lastCompactedAuditSize_pruneCommandState, Disk.replayed, hrows, Disk.base]
  split
  · exact applySnapshot_lastCompactedAuditSize _ _
  · rfl

/-- The journal may be used while its audit is torn. -/
structure Usable (ids : List String) (w : World) : Prop where
  keyed : w.mem.WellKeyed
  within : w.mem.Within ids
  zero : w.disk.SnapshotAtZero
  last : w.mem.lastCompactedAuditSize = 0

/-- Where the first call stands before the torn audit is gone, and that it will go. -/
def TornPc (cfg : JournalConfig) (w : World) : AppendPc → Prop
  | .mkdirAudit row => 0 < cfg.compactAfterBytes ∧
      cfg.compactAfterBytes ≤ w.disk.auditSize + (LineFile.line row.line).length
  | .appendFile row => 0 < cfg.compactAfterBytes ∧
      cfg.compactAfterBytes ≤ w.disk.auditSize + (LineFile.line row.line).length
  | .statAudit => w.disk.audit.isSome ∧ cfg.compactAfterBytes ≤ w.disk.auditSize
  | .afterStat size => w.disk.audit.isSome ∧ cfg.compactAfterBytes ≤ size
  | .mkdirSnapshot σ => w.disk.audit.isSome ∧ σ.auditSizeBytes = 0 ∧
      (applySnapshot .empty σ).view = w.mem.view
  | .writeTmp σ => w.disk.audit.isSome ∧ σ.auditSizeBytes = 0 ∧
      (applySnapshot .empty σ).view = w.mem.view
  | .renameTmp σ => w.disk.audit.isSome ∧ σ.auditSizeBytes = 0 ∧
      (applySnapshot .empty σ).view = w.mem.view ∧
      w.disk.tmp = some (Utf8.encode σ.text)
  | .afterWriteSnapshot => w.disk.audit.isSome ∧ w.disk.base.view = w.mem.view
  | .renameAudit _ => w.disk.audit.isSome ∧ w.disk.base.view = w.mem.view
  | _ => False

structure TornInv (cfg : JournalConfig) (ids : List String) (s : JournalRun) : Prop where
  usable : Usable ids s.world
  first : ∃ pc, s.calls = [.running pc] ∧ TornPc cfg s.world pc

/-- Once the snapshot is in place and the torn audit renamed, the files are in order. -/
theorem seqInv_of_renamed {w : World} (h : Usable ids w) (hempty : w.disk.auditBytes = [])
    (hbase : w.disk.base.view = w.mem.view) : SeqInv ids ⟨w, [.running .recreateAudit]⟩ := by
  have hpend : (⟨w, [.running .recreateAudit]⟩ : JournalRun).pending = fun _ => none := by
    funext i
    rcases i with _ | i <;> rfl
  have hrot : ∀ i, 0 < i → (⟨w, [.running .recreateAudit]⟩ : JournalRun).rotation i = none := by
    intro i hi
    rcases i with _ | i
    · cases hi
    · rfl
  have hone : ∀ (i : ℕ) (st : AppendStatus), [AppendStatus.running .recreateAudit][i]? = some st →
      i = 0 ∧ st = .running .recreateAudit := by
    intro i st hi
    rcases i with _ | i
    · exact ⟨rfl, (Option.some.inj hi).symm⟩
    · cases hi
  refine ⟨⟨h.keyed, h.within, hempty ▸ LineFile.aligned_nil, h.zero, ?_, ?_, ?_⟩, ?_, ?_⟩
  · have hzero : ∀ i, ((⟨w, [.running .recreateAudit]⟩ : JournalRun).rotation i).isSome → i = 0 := by
      intro i hi
      by_contra hne
      rw [hrot i (Nat.pos_of_ne_zero hne)] at hi
      cases hi
    intro i j hi hj
    rw [hzero i hi, hzero j hj]
  · intro i st hi
    rw [(hone i st hi).2]
    trivial
  · rw [hpend, Disk.rows_eq_nil hempty, ← hbase]
    exact (Inv.init w.disk.base.view []).capture (i := 0) rfl fun j hj => hrot j (Nat.pos_of_ne_zero hj)
  · intro i j pc pc' hi hj
    rw [(hone i _ hi).1, (hone j _ hj).1]
  · intro i e hi
    rw [hpend] at hi
    cases hi

/-- The first call goes on towards its rotation, until the torn audit is gone. -/
theorem TornInv.io (h : TornInv cfg ids s) (hl : ids.length ≤ MAX_COMMAND_STATE_ENTRIES) {i : ℕ}
    {now : Timestamp} (hs : s.step cfg (.io i now true) = some s') : TornInv cfg ids s' ∨ SeqInv ids s' := by
  obtain ⟨hu, pc, hcalls, hpc⟩ := h
  obtain ⟨w, calls⟩ := s
  obtain rfl : calls = [.running pc] := hcalls
  obtain rfl : i = 0 := by
    rcases i with _ | i
    · rfl
    · simp [step] at hs
  obtain rfl : (⟨(appendStep cfg w pc now true).1, [(appendStep cfg w pc now true).2]⟩ : JournalRun) = s' := by
    simpa [step] using hs
  dsimp only at hu hpc
  cases pc with
  | mkdirAudit row => exact .inl ⟨hu, .appendFile row, rfl, hpc⟩
  | appendFile row =>
    refine .inl ⟨⟨hu.keyed, hu.within, hu.zero, hu.last⟩, .statAudit, ?_, rfl, ?_⟩
    · simp [appendStep, not_le.2 hpc.1]
    · have := hpc.2
      simpa [appendStep, Disk.auditSize, Disk.auditBytes] using this
  | statAudit =>
    obtain ⟨bytes, hbytes⟩ := Option.isSome_iff_exists.1 hpc.1
    have hsize : w.disk.auditSize = bytes.length := by simp [Disk.auditSize, Disk.auditBytes, hbytes]
    refine .inl ⟨?_, .afterStat bytes.length, ?_, ?_⟩
    · simpa [appendStep, hbytes] using hu
    · simp [appendStep, hbytes]
    · simpa [appendStep, hbytes, TornPc, ← hsize] using hpc.2
  | afterStat size =>
    have hge : ¬ size - w.mem.lastCompactedAuditSize < cfg.compactAfterBytes := by
      rw [hu.last]; have := hpc.2; omega
    have hprune := pruneCommandState_eq_self hu.within hl
    refine .inl ⟨?_, .mkdirSnapshot (w.mem.snapshotOf 0 now), ?_, ?_⟩
    · simpa [appendStep, hge, hprune] using hu
    · simp [appendStep, hge, hprune]
    · simp only [appendStep, hge, if_false, hprune]
      exact ⟨hpc.1, rfl, view_applySnapshot_snapshotOf hu.keyed _ _ _⟩
  | mkdirSnapshot σ => exact .inl ⟨hu, .writeTmp σ, rfl, hpc⟩
  | writeTmp σ =>
    exact .inl ⟨⟨hu.keyed, hu.within, hu.zero, hu.last⟩, .renameTmp σ, rfl, hpc.1, hpc.2.1, hpc.2.2, rfl⟩
  | renameTmp σ =>
    obtain ⟨haudit, hsize, hview, htmp⟩ := hpc
    set d' : Disk := { w.disk with snapshot := some (Utf8.encode σ.text), tmp := none }
    have hstep : appendStep cfg w (.renameTmp σ) now true = (⟨w.mem, d'⟩, .running .afterWriteSnapshot) := by
      simp [appendStep, htmp, d']
    have hread : d'.readSnapshot = some σ := d'.readSnapshot_text σ rfl
    have hzero : d'.SnapshotAtZero := by
      intro τ hτ
      rw [hread] at hτ
      cases hτ
      exact hsize
    have hbase : d'.base.view = w.mem.view := by rw [Disk.base_eq_applySnapshot hread, hview]
    rw [hstep]
    exact .inl ⟨⟨hu.keyed, hu.within, hzero, hu.last⟩, .afterWriteSnapshot, rfl, haudit, hbase⟩
  | afterWriteSnapshot =>
    exact .inl ⟨⟨⟨hu.keyed.intents, hu.keyed.idempotency⟩, hu.within, hu.zero, rfl⟩, .renameAudit _, rfl, hpc⟩
  | renameAudit archive =>
    obtain ⟨bytes, hbytes⟩ := Option.isSome_iff_exists.1 hpc.1
    refine .inr ?_
    simp only [appendStep, hbytes]
    exact seqInv_of_renamed ⟨hu.keyed, hu.within, hu.zero, hu.last⟩ rfl hpc.2
  | _ => exact hpc.elim

/-- Before the first call; then until the torn audit is gone; then for good. -/
theorem torn_step {torn : Bytes} (htorn : torn ≠ []) (hl : ids.length ≤ MAX_COMMAND_STATE_ENTRIES)
    (h : (s.calls = [] ∧ Usable ids s.world) ∨ TornInv cfg ids s ∨ SeqInv ids s) {e : JournalEvent}
    (he : s.Sequential ids e ∧ FirstAppendRotates cfg torn s e) (hs : s.step cfg e = some s') :
    (s'.calls = [] ∧ Usable ids s'.world) ∨ TornInv cfg ids s' ∨ SeqInv ids s' := by
  rcases h with ⟨hcalls, hu⟩ | h | h
  · cases e with
    | call c now =>
      cases hs
      have hrot := (he.2 hcalls).resolve_left htorn
      refine .inr (.inl ⟨⟨JournalCall.wellKeyed_start cfg hu.keyed now c, ?_, hu.zero, ?_⟩,
        .mkdirAudit (c.start cfg s.world.mem now).2, by rw [hcalls]; rfl, hrot⟩)
      · exact JournalCall.within_start cfg hu.within now he.1.2.1 he.1.2.2
      · rw [← hu.last]; cases c <;> rfl
    | begin command now =>
      cases hs
      refine .inl ⟨hcalls, hu.keyed.begin cfg command now, ?_, hu.zero, ?_⟩
      · exact hu.within.congr (view_begin cfg hu.within hl command now)
      · rw [lastCompactedAuditSize_begin, hu.last]
    | io i now ok => simp [step, hcalls] at hs
  · obtain ⟨pc, hcalls, -⟩ := h.first
    have hrunning : s.calls[0]? = some (.running pc) := by rw [hcalls]; rfl
    have hbusy : ¬ s.Settled := fun hset => not_running_of_settled hset hrunning
    cases e with
    | call c now => exact absurd he.1.1 hbusy
    | begin command now => exact absurd he.1 hbusy
    | io i now ok =>
      obtain rfl : ok = true := he.1
      exact .inr (h.io hl hs)
  · exact .inr (.inr (h.step hl he.1 hs))

end Torn

/-- Every operation that completes on a torn audit is recovered. `s₁` is a state in which
no call is in flight and at least one has completed, `s₂` the state at the next crash. -/
theorem torn_audit_recovered (cfg : JournalConfig) {ids : List String}
    (hl : ids.length ≤ MAX_COMMAND_STATE_ENTRIES) {d : Disk} {good torn : Bytes}
    (hgood : LineFile.Aligned good) (haudit : d.audit = some (good ++ torn)) (hzero : d.SnapshotAtZero)
    (hids : ∀ c, d.recovered (.command c) ≠ .unseen → c ∈ ids)
    {es₁ es₂ : List JournalEvent} {s₁ s₂ : JournalRun}
    (hmeet : StepsMeet (step cfg)
      (fun s e => s.Sequential ids e ∧ FirstAppendRotates cfg torn s e) (.init cfg d) (es₁ ++ es₂))
    (h₁ : exec (step cfg) (.init cfg d) es₁ = some s₁) (hset₁ : s₁.Settled)
    (hsome : s₁.calls ≠ []) (hone : OneOperation es₂)
    (h₂ : exec (step cfg) s₁ es₂ = some s₂) :
    let r := (openJournal cfg s₂.world.disk).mem
    (s₂.Settled → (∀ g, r.hasTombstone g = s₂.world.mem.hasTombstone g) ∧
      ∀ c, r.outcome c = s₂.world.mem.outcome c) ∧
    (((∀ g, r.hasTombstone g = s₁.world.mem.hasTombstone g) ∧
        ∀ c, r.outcome c = s₁.world.mem.outcome c) ∨
      ((∀ g, r.hasTombstone g = s₂.world.mem.hasTombstone g) ∧
        ∀ c, r.outcome c = s₂.world.mem.outcome c)) := by
  intro r
  obtain ⟨hmeet₁, hmeet₂⟩ := hmeet.append h₁
  have hload := Disk.load_eq_replayed cfg hzero hids hl
  have hinv₁ : SeqInv ids s₁ := by
    by_cases htorn : torn = []
    · have hal : LineFile.Aligned d.auditBytes := by simpa [Disk.auditBytes, haudit, htorn] using hgood
      exact (SeqInv.init cfg hal hzero hids hl).exec hl (hmeet₁.mono fun _ _ h => h.1) h₁
    · have hinit : Usable ids (openJournal cfg d) := by
        refine ⟨Disk.wellKeyed_load cfg hzero, fun c hc => hids c ?_, hzero, lastCompactedAuditSize_load cfg hzero⟩
        rwa [openJournal, hload, Disk.view_replayed] at hc
      rcases exec_invariant (fun _ _ _ h he hs => torn_step htorn hl h he hs) (.inl ⟨rfl, hinit⟩) hmeet₁ h₁
        with ⟨hnil, -⟩ | hbusy | hseq
      · exact absurd hnil hsome
      · obtain ⟨pc, hcalls, -⟩ := hbusy.first
        have hrunning : s₁.calls[0]? = some (.running pc) := by rw [hcalls]; rfl
        exact absurd hrunning (not_running_of_settled hset₁)
      · exact hseq
  have hview := reopened_view hinv₁ hl hset₁ hone (hmeet₂.mono fun _ _ h => h.1) h₂
  have hanswers : ∀ {m : JournalState}, r.view = m.view →
      (∀ g, r.hasTombstone g = m.hasTombstone g) ∧ ∀ c, r.outcome c = m.outcome c := fun hv =>
    ⟨hasTombstone_congr hv, outcome_congr hv⟩
  exact ⟨fun hset => hanswers (hview.1 hset), hview.2.imp hanswers hanswers⟩

def revokeRow (grantId : String) : AuditRow := .revoke grantId "node" "epoch" none epochStart

/-- The crash left the opening brace of a row. -/
def tornByte : Bytes := (LineFile.line (revokeRow "g0").line).take 1

def tornDisk : Disk := { Disk.empty with audit := some tornByte }

def revokeOnTorn (n : ℕ) : List JournalEvent :=
  .call (.revokeGrant "g1" none) epochStart :: ios 0 n

set_option maxRecDepth 100000 in
theorem stepsMeet_revokeOnTorn : StepsMeet (step tightConfig)
      (fun s e => s.Sequential [] e ∧ FirstAppendRotates tightConfig tornByte s e)
      (.init tightConfig tornDisk) (revokeOnTorn 12 ++ []) := by
  refine ⟨⟨⟨by decide, trivial, nofun⟩, fun _ => .inr ⟨by decide, by decide +kernel⟩⟩, fun s₁ h₁ => ?_⟩
  cases h₁
  iterate 12
    refine ⟨⟨rfl, trivial⟩, fun s h => ?_⟩
    cases h
  trivial

theorem torn_audit_recovered_revoke : ∃ s, exec (step tightConfig) (.init tightConfig tornDisk) (revokeOnTorn 12) = some s ∧
    (openJournal tightConfig s.world.disk).mem.hasTombstone "g1" = true := by
  have hany : (exec (step tightConfig) (.init tightConfig tornDisk) (revokeOnTorn 12)).any
      (fun s => decide s.Settled && !s.calls.isEmpty && s.world.mem.hasTombstone "g1") = true := by
    decide +kernel
  obtain ⟨s, hs, hp⟩ := (Option.any_eq_true _ _).1 hany
  simp only [Bool.and_eq_true, decide_eq_true_eq, Bool.not_eq_true', List.isEmpty_eq_false_iff] at hp
  have hzero : tornDisk.SnapshotAtZero := fun σ hσ => by cases hσ
  have hids : ∀ c, tornDisk.recovered (.command c) ≠ .unseen → c ∈ ([] : List String) := by
    intro c hc
    exact absurd rfl hc
  have hone : OneOperation [] := by simp [OneOperation]
  have hrec := (torn_audit_recovered tightConfig (Nat.zero_le _) LineFile.aligned_nil rfl hzero hids
    stepsMeet_revokeOnTorn hs hp.1.1 hp.1.2 hone (exec_nil s)).1 hp.1.1
  exact ⟨s, hs, (hrec.1 "g1").trans hp.2⟩

/-- Far from the threshold, the revocation shares a line with the torn byte. -/
theorem revocation_lost_after_torn_byte :
    tornByte <+: LineFile.line (revokeRow "g0").line ∧ tornByte ≠ LineFile.line (revokeRow "g0").line ∧
    ∃ s, exec (step roomyConfig) (.init roomyConfig tornDisk) (revokeOnTorn 4) = some s ∧
      s.calls.all AppendStatus.isResolved = true ∧ s.world.mem.hasTombstone "g1" = true ∧
      (openJournal roomyConfig s.world.disk).mem.hasTombstone "g1" = false := by
  refine ⟨List.take_prefix _ _, by decide +kernel, ?_⟩
  have hany : (exec (step roomyConfig) (.init roomyConfig tornDisk) (revokeOnTorn 4)).any
      (fun s => s.calls.all AppendStatus.isResolved && s.world.mem.hasTombstone "g1" &&
        !(openJournal roomyConfig s.world.disk).mem.hasTombstone "g1") = true := by
    decide +kernel
  obtain ⟨s, hs, hp⟩ := (Option.any_eq_true _ _).1 hany
  simp only [Bool.and_eq_true, Bool.not_eq_true'] at hp
  exact ⟨s, hs, hp.1.1, hp.1.2, hp.2⟩

end Kookr.Remote
