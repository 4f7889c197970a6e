import Kookr.Sanity.Remote.SequentialRun

/-! Along operations that do not overlap, the files hold every idempotency entry of
memory, no older. -/

namespace Kookr.Remote

open Kookr.Lib RegisterLog JournalState

/-- Of the entries in `m` that are of this node epoch, `r` holds one no older; both hold
entries for `keys` only. -/
structure Kept (cfg : JournalConfig) (keys : List String) (m r : String → Option ℤ) : Prop where
  kept : ∀ k t, keyNodeEpoch k = some cfg.nodeEpoch → m k = some t → ∃ t', r k = some t' ∧ t ≤ t'
  inMem : ∀ k, m k ≠ none → k ∈ keys
  inFiles : ∀ k, r k ≠ none → k ∈ keys

namespace Kept

variable {cfg : JournalConfig} {keys : List String} {m m' r r' : String → Option ℤ}

theorem of_le (h : Kept cfg keys m r) (hm : ∀ k t, m' k = some t → m k = some t) : Kept cfg keys m' r :=
  ⟨fun k t he hk => h.kept k t he (hm k t hk), fun k hk => by
    obtain ⟨t, ht⟩ := Option.ne_none_iff_exists'.1 hk
    exact h.inMem k (by rw [hm k t ht]; simp), h.inFiles⟩

theorem of_or (h : Kept cfg keys m r) (hr : ∀ k, r' k = m k ∨ r' k = r k) : Kept cfg keys m r' := by
  refine ⟨fun k t he hk => ?_, h.inMem, fun k hk => ?_⟩
  · rcases hr k with hr | hr
    · exact ⟨t, hr.trans hk, le_rfl⟩
    · rw [hr]; exact h.kept k t he hk
  · rcases hr k with hr | hr
    · exact h.inMem k (hr ▸ hk)
    · exact h.inFiles k (hr ▸ hk)

end Kept

/-- The clock has not gone back behind the entry that a result completes, and a tuple key
that reads as this node's epoch is of this node's epoch. -/
def ClockSafe (cfg : JournalConfig) (keys : List String) (s : JournalState) : JournalEvent → Prop
  | .call (.appendIntent command) _ =>
    tupleKey command.toIdempotencyTuple ∈ keys ∧
    (keyNodeEpoch (tupleKey command.toIdempotencyTuple) = some cfg.nodeEpoch →
      command.nodeEpoch = cfg.nodeEpoch)
  | .call (.appendResult command _) now =>
    tupleKey command.toIdempotencyTuple ∈ keys ∧
    (keyNodeEpoch (tupleKey command.toIdempotencyTuple) = some cfg.nodeEpoch →
      command.nodeEpoch = cfg.nodeEpoch →
      ∀ entry, s.idempotency.get (tupleKey command.toIdempotencyTuple) = some entry →
        entry.createdAt ≤ now.ms)
  | _ => True

def IdleKept (cfg : JournalConfig) (keys : List String) (w : World) : Prop :=
  Kept cfg keys w.mem.created (w.disk.replayed cfg).created

/-- The same while a call is in flight: its row counts as written, and the snapshot it
holds, or has put in place, has the entries of memory. -/
def BusyKept (cfg : JournalConfig) (keys : List String) (w : World) : AppendPc → Prop
  | .mkdirAudit row => Kept cfg keys w.mem.created ((w.disk.replayed cfg).applyAuditRow cfg row).created
  | .appendFile row => Kept cfg keys w.mem.created ((w.disk.replayed cfg).applyAuditRow cfg row).created
  | .mkdirSnapshot σ => IdleKept cfg keys w ∧ (applySnapshot .empty σ).created = w.mem.created
  | .writeTmp σ => IdleKept cfg keys w ∧ (applySnapshot .empty σ).created = w.mem.created
  | .renameTmp σ => IdleKept cfg keys w ∧ (applySnapshot .empty σ).created = w.mem.created
  | .afterWriteSnapshot => IdleKept cfg keys w ∧ w.disk.base.created = w.mem.created
  | .renameAudit _ => IdleKept cfg keys w ∧ w.disk.base.created = w.mem.created
  | .recreateAudit => IdleKept cfg keys w ∧ w.disk.base.created = w.mem.created
  | _ => IdleKept cfg keys w

variable {cfg : JournalConfig} {keys ids : List String} {now : Timestamp}

theorem created_appendIntent (s : JournalState) (command : CommandEnvelope) (now : Timestamp) (k : String) :
    (s.appendIntent command now).1.created k =
      if tupleKey command.toIdempotencyTuple = k then some now.ms else s.created k := by
  simp only [created, appendIntent, OrderedMap.get_set]
  split <;> rfl

theorem created_appendResult (s : JournalState) (command : CommandEnvelope) (result : CommandResult)
    (now : Timestamp) : (s.appendResult command result now).1.created = s.created := by
  funext k
  simp only [created, appendResult]
  cases he : s.idempotency.get (tupleKey command.toIdempotencyTuple) with
  | none => rfl
  | some entry =>
    simp only [OrderedMap.get_set]
    split
    · rename_i hk; rw [← hk, he]; rfl
    · rfl

/-- The row of a command leaves the entries alone, or writes the one of its tuple. -/
theorem created_commandRow (cfg : JournalConfig) (r : JournalState) (row : AuditRow)
    (command : CommandEnvelope)
    (hrow : row.createdEntry cfg = if command.nodeEpoch = cfg.nodeEpoch then
      some (tupleKey command.toIdempotencyTuple, some now.ms) else none) (k : String) :
    (r.applyAuditRow cfg row).created k =
      if command.nodeEpoch = cfg.nodeEpoch ∧ k = tupleKey command.toIdempotencyTuple then some now.ms
      else r.created k := by
  rw [created_applyAuditRow, hrow]
  by_cases h : command.nodeEpoch = cfg.nodeEpoch
  · simp only [h, if_true, Option.toList_some, true_and]
    change put _ _ _ k = _
    rw [put_apply]
    rfl
  · simp [h]

theorem kept_call {s r : JournalState} (h : Kept cfg keys s.created r.created)
    {call : JournalCall} (hc : ClockSafe cfg keys s (.call call now)) : Kept cfg keys (call.start cfg s now).1.created
      (r.applyAuditRow cfg (call.start cfg s now).2).created := by
  cases call with
  | appendIntent command =>
    obtain ⟨hkey, hepoch⟩ := hc
    have hr := created_commandRow cfg r (.intent command now) command rfl
    refine ⟨fun k t he hk => ?_, fun k hk => ?_, fun k hk => ?_⟩
    · rw [JournalCall.start, created_appendIntent] at hk
      simp only [JournalCall.start, appendIntent, hr]
      split at hk
      · rename_i heq
        subst heq
        rw [if_pos ⟨hepoch he, rfl⟩]
        exact ⟨now.ms, rfl, (Option.some.inj hk).ge⟩
      · rename_i hne
        rw [if_neg fun hand => hne hand.2.symm]
        exact h.kept k t he hk
    · rw [JournalCall.start, created_appendIntent] at hk
      split at hk
      · rename_i heq; exact heq ▸ hkey
      · exact h.inMem k hk
    · simp only [JournalCall.start, appendIntent, hr] at hk
      split at hk
      · rename_i hand; exact hand.2 ▸ hkey
      · exact h.inFiles k hk
  | appendResult command result =>
    obtain ⟨hkey, hclock⟩ := hc
    have hr := created_commandRow cfg r
      (.result command result.outcome result.reason result.result now) command rfl
    refine ⟨fun k t he hk => ?_, fun k hk => ?_, fun k hk => ?_⟩
    · rw [JournalCall.start, created_appendResult] at hk
      simp only [JournalCall.start, appendResult, hr]
      split
      · rename_i hand
        obtain ⟨hepoch, rfl⟩ := hand
        obtain ⟨entry, hget, rfl⟩ := Option.map_eq_some_iff.1 hk
        exact ⟨now.ms, rfl, hclock he hepoch entry hget⟩
      · exact h.kept k t he hk
    · rw [JournalCall.start, created_appendResult] at hk
      exact h.inMem k hk
    · simp only [JournalCall.start, appendResult, hr] at hk
      split at hk
      · rename_i hand; exact hand.2 ▸ hkey
      · exact h.inFiles k hk
  | appendPreAuditReject command reason | revokeGrant grantId policyVersion => exact h

theorem created_begin {s : JournalState} {command : CommandEnvelope} {k : String} {t : ℤ}
    (h : (s.begin cfg command now).1.created k = some t) : s.created k = some t := by
  have hprune : ∀ t, (s.prune cfg now).created k = some t → s.created k = some t := by
    intro t ht
    obtain ⟨e, he, rfl⟩ := Option.map_eq_some_iff.1 ht
    simp [created, (get_prune he).1]
  refine hprune t ?_
  unfold begin at h
  cases hget : (s.prune cfg now).idempotency.get (tupleKey command.toIdempotencyTuple) with
  | none => simpa only [hget] using h
  | some e =>
    have hset : ((s.prune cfg now).idempotency.set (tupleKey command.toIdempotencyTuple)
        { e with lastUsedAt := now.ms }).get k = some { e with lastUsedAt := now.ms } ∧
          tupleKey command.toIdempotencyTuple = k ∨
        ((s.prune cfg now).idempotency.set (tupleKey command.toIdempotencyTuple)
        { e with lastUsedAt := now.ms }).get k = (s.prune cfg now).idempotency.get k := by
      rw [OrderedMap.get_set]
      split
      · exact .inl ⟨rfl, ‹_›⟩
      · exact .inr rfl
    have hcreated : (((s.prune cfg now).idempotency.set (tupleKey command.toIdempotencyTuple)
        { e with lastUsedAt := now.ms }).get k).map IdempotencyEntry.createdAt = some t := by
      cases hr : e.result <;> simpa [hget, hr, created] using h
    rcases hset with ⟨hset, rfl⟩ | hset
    · simpa [created, hget] using hcreated
    · rwa [hset] at hcreated

def StatusKept (cfg : JournalConfig) (keys : List String) (w : World) : AppendStatus → Prop
  | .running pc => BusyKept cfg keys w pc
  | _ => IdleKept cfg keys w

theorem IdleKept.congr {w w' : World} (h : IdleKept cfg keys w) (hm : w'.mem.created = w.mem.created)
    (ha : w'.disk.audit = w.disk.audit) (hs : w'.disk.snapshot = w.disk.snapshot) : IdleKept cfg keys w' := by
  have hr : w'.disk.replayed cfg = w.disk.replayed cfg := by
    simp only [Disk.replayed, Disk.rows, Disk.auditBytes, Disk.base, Disk.readSnapshot, ha, hs]
  rwa [IdleKept, hm, hr]

theorem IdleKept.drop {w : World} {r : String → Option ℤ} (h : Kept cfg keys w.mem.created r) (he : w.disk.auditBytes = [])
    (hb : w.disk.base.created = w.mem.created) : IdleKept cfg keys w := by
  have hr : w.disk.replayed cfg = w.disk.base := by rw [Disk.replayed, Disk.rows_eq_nil he]; rfl
  rw [IdleKept, hr, hb]
  exact h.of_or fun k => .inl rfl

theorem statusKept_appendStep {w : World} {pc : AppendPc} (h : BusyKept cfg keys w pc)
    (hal : LineFile.Aligned w.disk.auditBytes) (hkeyed : w.mem.WellKeyed)
    (hok : (AppendStatus.running pc).Ok w.disk) (now : Timestamp) :
    StatusKept cfg keys (appendStep cfg w pc now true).1 (appendStep cfg w pc now true).2 := by
  cases pc with
  | mkdirAudit row => exact h
  | appendFile row =>
    have hidle : IdleKept cfg keys (appendStep cfg w (.appendFile row) now true).1 := by
      simp only [IdleKept, appendStep, if_true, Disk.replayed, Disk.rows_append hal, List.foldl_append]
      exact h
    simp only [appendStep, if_true] at hidle ⊢
    split <;> exact hidle
  | statAudit =>
    simp only [appendStep]
    split <;> exact h
  | afterStat size =>
    simp only [appendStep]
    split
    · exact h
    · have hm : w.mem.pruneCommandState.created = w.mem.created := by
        funext k; simp [created, idempotency_pruneCommandState]
      refine ⟨IdleKept.congr h hm rfl rfl, ?_⟩
      funext k
      simp only [created, idempotency_applySnapshot hkeyed.pruneCommandState]
  | mkdirSnapshot σ => exact h
  | writeTmp σ => exact ⟨h.1.congr rfl rfl rfl, h.2⟩
  | renameTmp σ =>
    simp only [appendStep]
    split
    · rename_i bytes _ htmp
      have hread := Disk.readSnapshot_text { w.disk with snapshot := some bytes, tmp := none } σ
        (congrArg some (hok.2 bytes htmp))
      have hbase := Disk.base_eq_applySnapshot hread
      refine ⟨Kept.of_or h.1 fun k => ?_, (congrArg created hbase).trans h.2⟩
      have hor := created_replayed_eq_or cfg w.disk.rows w.disk.base (applySnapshot .empty σ) k
      rw [h.2, ← hbase] at hor
      exact hor
    · exact h.1
  | afterWriteSnapshot => exact ⟨IdleKept.congr h.1 rfl rfl rfl, h.2⟩
  | renameAudit archive =>
    simp only [appendStep]
    split
    · exact ⟨IdleKept.drop h.1 rfl h.2, h.2⟩
    · exact h.1
  | recreateAudit => exact IdleKept.drop h.1 rfl h.2
  | afterRecreate => exact IdleKept.congr h rfl rfl rfl
  | pruneArchives => exact h
  | unlinkTmp => exact IdleKept.congr h rfl rfl rfl

structure KeptInv (cfg : JournalConfig) (ids keys : List String) (s : JournalRun) : Prop where
  seq : SeqInv ids s
  idle : s.Settled → IdleKept cfg keys s.world
  busy : ∀ (i : ℕ) (pc : AppendPc), s.calls[i]? = some (.running pc) → BusyKept cfg keys s.world pc

theorem KeptInv.step {s s' : JournalRun} (h : KeptInv cfg ids keys s)
    (hl : ids.length ≤ MAX_COMMAND_STATE_ENTRIES) {e : JournalEvent} (he : s.Sequential ids e)
    (hc : ClockSafe cfg keys s.world.mem e) (hs : s.step cfg e = some s') : KeptInv cfg ids keys s' := by
  have hseq := h.seq.step hl he hs
  cases e with
  | call c now =>
    cases hs
    have hkept := kept_call (h.idle he.1) hc
    refine ⟨hseq, fun hset => ?_, fun i pc hi => ?_⟩
    · have := hset (.running (.mkdirAudit (c.start cfg s.world.mem now).2)) (by simp)
      cases this
    · rcases Nat.lt_or_ge i s.calls.length with hlt | hge
      · rw [List.getElem?_append_left hlt] at hi
        exact absurd hi (JournalRun.not_running_of_settled he.1)
      · rw [List.getElem?_append_right hge] at hi
        have := List.mem_singleton.1 (List.mem_of_getElem? hi)
        cases this
        exact hkept
  | begin command now =>
    cases hs
    refine ⟨hseq, fun hset => ?_, fun i pc hi => absurd hi (JournalRun.not_running_of_settled he)⟩
    exact (h.idle hset).of_le fun k t => created_begin
  | io i now ok =>
    obtain rfl : ok = true := he
    simp only [JournalRun.step] at hs
    split at hs
    · rename_i pc hi
      cases hs
      have hst := statusKept_appendStep (h.busy i pc hi) h.seq.run.aligned h.seq.run.keyed
        (h.seq.run.ok i _ hi) now
      have hself : (s.calls.set i (appendStep cfg s.world pc now true).2)[i]? =
          some (appendStep cfg s.world pc now true).2 :=
        List.getElem?_set_self (JournalRun.lt_of_getElem? hi)
      refine ⟨hseq, fun hset => ?_, fun j pc' hj => ?_⟩
      · have hdone := hset _ (List.mem_of_getElem? hself)
        revert hst hdone
        cases (appendStep cfg s.world pc now true).2 with
        | running pc' => intro _ hdone; cases hdone
        | resolved | rejected => exact fun hst _ => hst
      · by_cases hji : j = i
        · subst hji
          have hst' := Option.some.inj (hself.symm.trans hj)
          rw [hst'] at hst
          exact hst
        · rw [JournalRun.getElem?_set_ne hji] at hj
          exact absurd (h.seq.one j i _ _ hj hi) hji
    · cases hs

end Kookr.Remote
