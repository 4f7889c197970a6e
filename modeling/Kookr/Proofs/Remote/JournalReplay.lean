import Kookr.Sanity.Remote.KeptInvariant

/-! Compaction under concurrent appends. A rotation is not atomic: a row that reaches the
audit between the capture of its snapshot and the new audit survives only if the snapshot
covers it. Where each append meets that, nothing a settled journal shows is lost. -/

namespace Kookr.Remote

open Kookr.Lib JournalRun

/-- What a settled journal shows, the next journal on its files shows. -/
theorem settled_journal_recovered (cfg : JournalConfig) {ids : List String}
    (hl : ids.length ≤ MAX_COMMAND_STATE_ENTRIES) {d : Disk} (hal : LineFile.Aligned d.auditBytes) (hzero : d.SnapshotAtZero)
    (hids : ∀ c, d.recovered (.command c) ≠ .unseen → c ∈ ids) {es : List JournalEvent} {s : JournalRun}
    (hsafe : StepsMeet (step cfg) (JournalRun.RotationSafe cfg ids) (.init cfg d) es)
    (hrun : exec (step cfg) (.init cfg d) es = some s) (hsettled : s.Settled) :
    (∀ g, (openJournal cfg s.world.disk).mem.hasTombstone g = s.world.mem.hasTombstone g) ∧
      ∀ c, (openJournal cfg s.world.disk).mem.outcome c = s.world.mem.outcome c := by
  have hinv : RunInv ids s :=
    exec_invariant (fun _ _ _ h hok hs => h.step hl hok hs) (RunInv.init cfg hal hzero hids hl) hsafe hrun
  have hrec : s.world.disk.recovered = s.world.mem.view :=
    hinv.log.recovered (pending_of_settled hsettled)
  have hview : (openJournal cfg s.world.disk).mem.view = s.world.mem.view := by
    have hload := Disk.load_eq_replayed cfg hinv.zero (fun c hc => hinv.within c (hrec ▸ hc)) hl
    rw [openJournal, hload, Disk.view_replayed, hrec]
  exact ⟨JournalState.hasTombstone_congr hview, JournalState.outcome_congr hview⟩

def epochStart : Timestamp := .epoch

/-- The next `n` steps of call `i`, every file operation successful. -/
def ios (i n : ℕ) : List JournalEvent := List.replicate n (.io i epochStart true)

def tightConfig : JournalConfig := ⟨"node", "epoch", 1⟩

/-- `DEFAULT_COMPACT_AFTER_BYTES`. -/
def roomyConfig : JournalConfig := ⟨"node", "epoch", 8 * 1024 * 1024⟩

/-- Two revocations made together; the second is written while the first rotates the
audit, after a snapshot that already covers both. -/
def revokeCovered : List JournalEvent :=
  [.call (.revokeGrant "g1" none) epochStart, .call (.revokeGrant "g2" none) epochStart] ++
  ios 0 4 ++ ios 1 2 ++ ios 0 8 ++ ios 1 2

set_option maxRecDepth 100000 in
theorem stepsMeet_revokeCovered : StepsMeet (step tightConfig) (JournalRun.RotationSafe tightConfig [])
      (.init tightConfig .empty) revokeCovered := by
  refine ⟨⟨trivial, fun _ h => nomatch h⟩, fun s₁ h₁ => ?_⟩
  cases h₁
  refine ⟨⟨trivial, fun _ h => nomatch h⟩, fun s₂ h₂ => ?_⟩
  cases h₂
  refine ⟨rfl, fun s₃ h₃ => ?_⟩
  cases h₃
  refine ⟨⟨rfl, .inl rfl, fun _ j σ hj => ?_⟩, fun s₄ h₄ => ?_⟩
  · rcases j with _ | _ | j <;> cases hj
  cases h₄
  refine ⟨trivial, fun s₅ h₅ => ?_⟩
  cases h₅
  refine ⟨.inr fun j => ?_, fun s₆ h₆ => ?_⟩
  · rcases j with _ | _ | j <;> rfl
  cases h₆
  refine ⟨rfl, fun s₇ h₇ => ?_⟩
  cases h₇
  refine ⟨⟨rfl, .inl rfl, fun _ j σ hj => ?_⟩, fun s₈ h₈ => ?_⟩
  · rcases j with _ | _ | j
    · cases hj
      exact .inl rfl
    · cases hj
    · cases hj
  cases h₈
  -- the rotation goes on to its end, then the second call finds an empty audit
  iterate 9
    refine ⟨trivial, fun s h => ?_⟩
    cases h
  exact ⟨.inl (by decide), fun _ _ => trivial⟩

theorem settled_journal_recovered_revokeCovered : ∃ s, exec (step tightConfig) (.init tightConfig .empty) revokeCovered = some s ∧
    (openJournal tightConfig s.world.disk).mem.hasTombstone "g1" = true ∧
    (openJournal tightConfig s.world.disk).mem.hasTombstone "g2" = true := by
  have hany : (exec (step tightConfig) (.init tightConfig .empty) revokeCovered).any
      (fun s => s.calls.all (fun st => !st.isRunning) && s.world.mem.hasTombstone "g1" &&
        s.world.mem.hasTombstone "g2") = true := by
    decide +kernel
  obtain ⟨s, hs, hp⟩ := (Option.any_eq_true _ _).1 hany
  simp only [Bool.and_eq_true, List.all_eq_true, Bool.not_eq_true'] at hp
  have hzero : Disk.empty.SnapshotAtZero := fun σ hσ => by cases hσ
  have hids : ∀ c, Disk.empty.recovered (.command c) ≠ .unseen → c ∈ ([] : List String) :=
    fun c hc => absurd rfl hc
  have hrec := (settled_journal_recovered tightConfig (Nat.zero_le _) (.inl rfl) hzero hids
    stepsMeet_revokeCovered hs hp.1.1).1
  exact ⟨s, hs, (hrec "g1").trans hp.1.2, (hrec "g2").trans hp.2⟩

/-- The second revocation is written after the first call captured its snapshot and
before it renames the audit. -/
def revokeDuringRotation : List JournalEvent :=
  (.call (.revokeGrant "g1" none) epochStart :: ios 0 4) ++
  (.call (.revokeGrant "g2" none) epochStart :: ios 1 2) ++ ios 0 8 ++ ios 1 2

theorem revocation_lost_in_rotation : ∃ s, exec (step tightConfig) (.init tightConfig .empty) revokeDuringRotation = some s ∧
    s.calls.all AppendStatus.isResolved = true ∧ s.world.mem.hasTombstone "g2" = true ∧
    (openJournal tightConfig s.world.disk).mem.hasTombstone "g2" = false := by
  have hany : (exec (step tightConfig) (.init tightConfig .empty) revokeDuringRotation).any
      (fun s => s.calls.all AppendStatus.isResolved && s.world.mem.hasTombstone "g2" &&
        !(openJournal tightConfig s.world.disk).mem.hasTombstone "g2") = true := by
    decide +kernel
  obtain ⟨s, hs, hp⟩ := (Option.any_eq_true _ _).1 hany
  simp only [Bool.and_eq_true, Bool.not_eq_true'] at hp
  exact ⟨s, hs, hp.1.1, hp.1.2, hp.2⟩

end Kookr.Remote

/-! Replay equals memory. For operations that do not overlap and a crash between any two
file operations, the reopened journal answers as the journal before or after the call in
flight did, and as the journal after it once the call has settled. -/

namespace Kookr.Remote

open Kookr.Lib

/-- `r` answers as `m` does, and recognises every command `m` recognises. -/
structure Agrees (cfg : JournalConfig) (r m : JournalState) : Prop where
  hasTombstone : ∀ g, r.hasTombstone g = m.hasTombstone g
  outcome : ∀ c, r.outcome c = m.outcome c
  begins : ∀ command now, (m.begin cfg command now).2 ≠ none → (r.begin cfg command now).2 ≠ none

section Agreement

variable {cfg : JournalConfig} {ids keys : List String} {s : JournalRun}

theorem agrees_of_kept (hk : keys.length ≤ MAX_IDEMPOTENCY_ENTRIES) {r m : JournalState}
    (hview : r.view = m.view) (hkept : Kept cfg keys m.created r.created) : Agrees cfg r m := by
  refine ⟨JournalState.hasTombstone_congr hview, JournalState.outcome_congr hview, ?_⟩
  intro command now hm
  obtain ⟨t, ht, hlive, hepoch⟩ := JournalState.live_of_begin hm
  obtain ⟨t', ht', hle⟩ := hkept.kept _ t hepoch ht
  exact JournalState.begin_of_live hkept.inFiles hk ht' (by omega) hepoch

theorem agrees_of_idle (h : KeptInv cfg ids keys s) (hl : ids.length ≤ MAX_COMMAND_STATE_ENTRIES)
    (hk : keys.length ≤ MAX_IDEMPOTENCY_ENTRIES) (hp : ∀ i, s.pending i = none) (hidle : IdleKept cfg keys s.world) :
    Agrees cfg (openJournal cfg s.world.disk).mem s.world.mem := by
  have hload : (openJournal cfg s.world.disk).mem = s.world.disk.replayed cfg := h.seq.load_eq hl
  rw [hload]
  exact agrees_of_kept hk (by rw [Disk.view_replayed, h.seq.recovered hp]) hidle

theorem idleKept_of_not_pending (h : KeptInv cfg ids keys s) (hp : ∀ i, s.pending i = none) : IdleKept cfg keys s.world := by
  by_cases hset : s.Settled
  · exact h.idle hset
  · simp only [JournalRun.Settled, not_forall] at hset
    obtain ⟨st, hmem, hrun⟩ := hset
    obtain ⟨i, hi⟩ := List.mem_iff_getElem?.1 hmem
    cases st with
    | resolved | rejected => exact absurd rfl hrun
    | running pc =>
      have hbusy := h.busy i pc hi
      have hnone := hp i
      rw [JournalRun.pending, hi] at hnone
      cases pc with
      | mkdirAudit row | appendFile row => cases hnone
      | mkdirSnapshot σ | writeTmp σ | renameTmp σ | afterWriteSnapshot | renameAudit archive | recreateAudit => exact hbusy.1
      | _ => exact hbusy

end Agreement

/-- A journal reopened after a crash. `s₁` is the last state in which no call was in
flight, `s₂` the state at the crash. -/
theorem reopened_journal_agrees (cfg : JournalConfig) {ids keys : List String}
    (hl : ids.length ≤ MAX_COMMAND_STATE_ENTRIES) (hk : keys.length ≤ MAX_IDEMPOTENCY_ENTRIES)
    {d : Disk} (hal : LineFile.Aligned d.auditBytes) (hzero : d.SnapshotAtZero)
    (hids : ∀ c, d.recovered (.command c) ≠ .unseen → c ∈ ids) (hkeys : ∀ k, (d.replayed cfg).created k ≠ none → k ∈ keys)
    {es₁ es₂ : List JournalEvent} {s₁ s₂ : JournalRun} (hmeet : StepsMeet (JournalRun.step cfg)
      (fun s e => s.Sequential ids e ∧ ClockSafe cfg keys s.world.mem e) (.init cfg d) (es₁ ++ es₂))
    (h₁ : exec (JournalRun.step cfg) (.init cfg d) es₁ = some s₁) (hset₁ : s₁.Settled)
    (hone : OneOperation es₂) (h₂ : exec (JournalRun.step cfg) s₁ es₂ = some s₂) :
    (s₂.Settled → Agrees cfg (openJournal cfg s₂.world.disk).mem s₂.world.mem) ∧
      (Agrees cfg (openJournal cfg s₂.world.disk).mem s₁.world.mem ∨
        Agrees cfg (openJournal cfg s₂.world.disk).mem s₂.world.mem) := by
  have hinit : KeptInv cfg ids keys (.init cfg d) := by
    have hload := Disk.load_eq_replayed cfg hzero hids hl
    refine ⟨SeqInv.init cfg hal hzero hids hl, fun _ => ?_, by simp [JournalRun.init]⟩
    simp only [IdleKept, JournalRun.init, openJournal, hload]
    exact ⟨fun k t _ hm => ⟨t, hm, le_rfl⟩, hkeys, hkeys⟩
  have hstep : ∀ s e s', KeptInv cfg ids keys s →
      (s.Sequential ids e ∧ ClockSafe cfg keys s.world.mem e) → s.step cfg e = some s' →
      KeptInv cfg ids keys s' := fun s e s' h hok hs => h.step hl hok.1 hok.2 hs
  obtain ⟨hmeet₁, hmeet₂⟩ := hmeet.append h₁
  have hinv₁ := exec_invariant hstep hinit hmeet₁ h₁
  have hinv₂ := exec_invariant hstep hinv₁ hmeet₂ h₂
  have hafter : (∀ i, s₂.pending i = none) →
      Agrees cfg (openJournal cfg s₂.world.disk).mem s₂.world.mem := fun hp =>
    agrees_of_idle hinv₂ hl hk hp (idleKept_of_not_pending hinv₂ hp)
  refine ⟨fun hset => hafter (JournalRun.pending_of_settled hset), ?_⟩
  by_cases hp : ∀ i, s₂.pending i = none
  · exact .inr (hafter hp)
  · -- the row is not written yet: the files are those the call found
    obtain ⟨i, hi⟩ := not_forall.1 hp
    obtain ⟨e, he⟩ := Option.ne_none_iff_exists'.1 hi
    have hdisk := disk_of_pending hinv₁.seq hl hset₁ hone (hmeet₂.mono fun _ _ h => h.1) h₂ he
    rw [hdisk]
    exact .inl (agrees_of_idle hinv₁ hl hk (JournalRun.pending_of_settled hset₁) (hinv₁.idle hset₁))

def skipCommand : CommandEnvelope where
  nodeId := "node"
  nodeEpoch := "epoch"
  sessionId := "session"
  sessionEpoch := "1"
  grantId := "grant"
  idempotencyKey := "key"
  commandId := "command"
  actorId := "actor"
  clientId := "client"
  action := .skip
  baseRevision := none
  leaseId := none
  lastSeenSeq := none
  payload := none

def skipResult : CommandResult := ⟨.accepted, "command", .skip, none, none⟩

/-- An intent is recorded; the result is written and the crash comes before the audit is
looked at again. -/
def crashAfterResultRow : List JournalEvent × List JournalEvent :=
  (.call (.appendIntent skipCommand) epochStart :: ios 0 4,
    .call (.appendResult skipCommand skipResult) epochStart :: ios 1 2)

set_option maxRecDepth 100000 in
theorem stepsMeet_crashAfterResultRow : StepsMeet (JournalRun.step roomyConfig) (fun s e => s.Sequential ["command"] e ∧
        ClockSafe roomyConfig [tupleKey skipCommand.toIdempotencyTuple] s.world.mem e)
      (.init roomyConfig .empty) (crashAfterResultRow.1 ++ crashAfterResultRow.2) := by
  have hepoch : skipCommand.nodeEpoch = roomyConfig.nodeEpoch := rfl
  refine ⟨⟨⟨by decide +kernel, trivial, by simp [JournalCall.subject, skipCommand]⟩, by simp, fun _ => hepoch⟩,
    fun s₁ h₁ => ?_⟩
  cases h₁
  iterate 4
    refine ⟨⟨rfl, trivial⟩, fun s h => ?_⟩
    cases h
  refine ⟨⟨⟨by decide +kernel, ⟨rfl, rfl⟩, by simp [JournalCall.subject, skipCommand]⟩, by simp,
    fun _ _ entry he => ?_⟩, fun s₂ h₂ => ?_⟩
  · cases he
    exact le_rfl
  cases h₂
  iterate 2
    refine ⟨⟨rfl, trivial⟩, fun s h => ?_⟩
    cases h
  trivial

theorem reopened_journal_agrees_crashAfterResultRow : ∃ s₁ s₂,
    exec (JournalRun.step roomyConfig) (.init roomyConfig .empty) crashAfterResultRow.1 = some s₁ ∧
    exec (JournalRun.step roomyConfig) s₁ crashAfterResultRow.2 = some s₂ ∧
    (Agrees roomyConfig (openJournal roomyConfig s₂.world.disk).mem s₁.world.mem ∨
      Agrees roomyConfig (openJournal roomyConfig s₂.world.disk).mem s₂.world.mem) := by
  have hany : (exec (JournalRun.step roomyConfig) (.init roomyConfig .empty) crashAfterResultRow.1).any
      (fun s₁ => decide s₁.Settled &&
        (exec (JournalRun.step roomyConfig) s₁ crashAfterResultRow.2).isSome) = true := by
    decide +kernel
  obtain ⟨s₁, h₁, hp⟩ := (Option.any_eq_true _ _).1 hany
  obtain ⟨hset, hsome⟩ := Bool.and_eq_true_iff.1 hp
  obtain ⟨s₂, h₂⟩ := Option.isSome_iff_exists.1 hsome
  have hzero : Disk.empty.SnapshotAtZero := fun σ hσ => by cases hσ
  have hids : ∀ c, Disk.empty.recovered (.command c) ≠ .unseen → c ∈ ["command"] :=
    fun c hc => absurd rfl hc
  have hone : OneOperation crashAfterResultRow.2 := by
    simp [OneOperation, crashAfterResultRow, ios]
  exact ⟨s₁, s₂, h₁, h₂, (reopened_journal_agrees roomyConfig (by decide) (by decide) (.inl rfl) hzero
    hids (fun k hk => absurd rfl hk) stepsMeet_crashAfterResultRow h₁ (of_decide_eq_true hset) hone h₂).2⟩

def thirdDay : Timestamp := ⟨2 * DAY_MS, by decide⟩

/-- The clock goes back two days between an intent and its result. Replay takes the age
of the entry from the result. -/
def resultAfterClockStep : List JournalEvent :=
  (.call (.appendIntent skipCommand) thirdDay :: ios 0 4) ++
  (.call (.appendResult skipCommand skipResult) epochStart :: ios 1 4)

theorem entry_older_after_clock_step : ∃ s,
    exec (JournalRun.step roomyConfig) (.init roomyConfig .empty) resultAfterClockStep = some s ∧
    s.calls.all AppendStatus.isResolved = true ∧ (s.world.mem.begin roomyConfig skipCommand thirdDay).2 ≠ none ∧
    ((openJournal roomyConfig s.world.disk).mem.begin roomyConfig skipCommand thirdDay).2 = none := by
  have hany : (exec (JournalRun.step roomyConfig) (.init roomyConfig .empty) resultAfterClockStep).any
      (fun s => s.calls.all AppendStatus.isResolved &&
        (s.world.mem.begin roomyConfig skipCommand thirdDay).2.isSome &&
        ((openJournal roomyConfig s.world.disk).mem.begin roomyConfig skipCommand thirdDay).2.isNone) =
      true := by
    decide +kernel
  obtain ⟨s, hs, hp⟩ := (Option.any_eq_true _ _).1 hany
  simp only [Bool.and_eq_true] at hp
  exact ⟨s, hs, hp.1.1, Option.isSome_iff_ne_none.1 hp.1.2, Option.isNone_iff_eq_none.1 hp.2⟩

end Kookr.Remote
