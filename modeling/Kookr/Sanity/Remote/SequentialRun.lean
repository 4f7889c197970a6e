import Kookr.Sanity.Remote.RotationInvariant

/-! Idempotency entries. `begin` answers by the age of the entry it finds, so what replay
has to keep of an entry is that it is there and no older than the one in memory. -/

namespace Kookr.Remote

open Kookr.Lib RegisterLog JournalState OrderedMap

namespace JournalState

def created (s : JournalState) (key : String) : Option ℤ :=
  (s.idempotency.get key).map IdempotencyEntry.createdAt

theorem created_setEntry {s s' : JournalState} {e : IdempotencyEntry} {key : String}
    (h : s'.idempotency = s.idempotency.set key e) : s'.created = put (fun _ => 0) s.created (key, some e.createdAt) := by
  funext k
  by_cases hk : k = key
  · subst hk; simp [created, h, upd]
  · rw [put_of_ne _ _ hk]
    simp [created, h, get_set_of_ne _ _ (Ne.symm hk)]

theorem idempotency_pruneCommandState (s : JournalState) : s.pruneCommandState.idempotency = s.idempotency := by
  unfold pruneCommandState
  split <;> rfl

variable {now : Timestamp}

theorem get_prune {cfg : JournalConfig} {s : JournalState} {key : String}
    {e : IdempotencyEntry} (h : (s.prune cfg now).idempotency.get key = some e) :
    s.idempotency.get key = some e ∧ ¬ e.createdAt < now.ms - DAY_MS ∧ keyNodeEpoch key = some cfg.nodeEpoch := by
  have hlive : (unexpired cfg s now).get key = some e := by
    simp only [prune] at h
    split at h
    · exact h
    · rw [idempotency_pruneCommandState] at h
      dsimp only at h
      exact get_of_get_filter h
  rw [unexpired, get_filter, Option.filter_eq_some_iff] at hlive
  exact ⟨hlive.1, of_decide_eq_true hlive.2⟩

theorem begin_ne_none_iff (cfg : JournalConfig) (s : JournalState) (command : CommandEnvelope)
    (now : Timestamp) : (s.begin cfg command now).2 ≠ none ↔
      ∃ e, (s.prune cfg now).idempotency.get (tupleKey command.toIdempotencyTuple) = some e := by
  unfold begin
  cases hget : (s.prune cfg now).idempotency.get (tupleKey command.toIdempotencyTuple) with
  | none => simp [hget]
  | some e => cases hr : e.result <;> simp [hget, hr]

theorem live_of_begin {cfg : JournalConfig} {s : JournalState} {command : CommandEnvelope}
    (h : (s.begin cfg command now).2 ≠ none) :
    ∃ t, s.created (tupleKey command.toIdempotencyTuple) = some t ∧ ¬ t < now.ms - DAY_MS ∧
      keyNodeEpoch (tupleKey command.toIdempotencyTuple) = some cfg.nodeEpoch := by
  obtain ⟨e, he⟩ := (begin_ne_none_iff cfg s command now).1 h
  obtain ⟨hget, hlive⟩ := get_prune he
  exact ⟨e.createdAt, by simp [created, hget], hlive⟩

theorem begin_of_live {cfg : JournalConfig} {s : JournalState} {command : CommandEnvelope}
    {keys : List String} (hk : ∀ k, s.created k ≠ none → k ∈ keys) (hl : keys.length ≤ MAX_IDEMPOTENCY_ENTRIES) {t : ℤ}
    (ht : s.created (tupleKey command.toIdempotencyTuple) = some t) (hlive : ¬ t < now.ms - DAY_MS)
    (hepoch : keyNodeEpoch (tupleKey command.toIdempotencyTuple) = some cfg.nodeEpoch) : (s.begin cfg command now).2 ≠ none := by
  rw [begin_ne_none_iff]
  obtain ⟨e, he, rfl⟩ := Option.map_eq_some_iff.1 ht
  have hsize : (unexpired cfg s now).size ≤ MAX_IDEMPOTENCY_ENTRIES := by
    rw [size_eq_keys_length]
    refine le_trans (List.subperm_of_subset (nodup_keys _) fun k hk' => hk k ?_).length_le hl
    have := (get_isSome_iff _ _).2 (keys_filter_subset _ _ hk')
    simpa [created, Option.isSome_iff_ne_none] using this
  simp only [prune, hsize, if_true]
  rw [unexpired, get_filter, he]
  simp [Option.filter, hepoch, hlive]

end JournalState

def AuditRow.createdEntry (cfg : JournalConfig) : AuditRow → Option (String × Option ℤ)
  | .intent command timestamp =>
    if command.nodeEpoch = cfg.nodeEpoch then
      some (tupleKey command.toIdempotencyTuple, some timestamp.ms) else none
  | .result command _ _ _ timestamp =>
    if command.nodeEpoch = cfg.nodeEpoch then
      some (tupleKey command.toIdempotencyTuple, some timestamp.ms) else none
  | _ => none

theorem created_applyAuditRow (cfg : JournalConfig) (s : JournalState) (row : AuditRow) : (s.applyAuditRow cfg row).created =
      replay (fun _ => 0) s.created (row.createdEntry cfg).toList := by
  cases row with
  | intent command timestamp =>
    by_cases h : command.nodeEpoch = cfg.nodeEpoch
    · have hset : (s.applyAuditRow cfg (.intent command timestamp)).idempotency =
          s.idempotency.set (tupleKey command.toIdempotencyTuple)
            ⟨tupleKey command.toIdempotencyTuple, timestamp.ms, timestamp.ms, command.commandId, none⟩ :=
        if_pos h
      rw [created_setEntry hset, AuditRow.createdEntry, if_pos h]
      rfl
    · rw [AuditRow.createdEntry]
      funext k; simp [created, applyAuditRow, h]
  | result command outcome reason value timestamp =>
    by_cases h : command.nodeEpoch = cfg.nodeEpoch
    · have hset : (s.applyAuditRow cfg (.result command outcome reason value timestamp)).idempotency =
          s.idempotency.set (tupleKey command.toIdempotencyTuple)
            ⟨tupleKey command.toIdempotencyTuple, timestamp.ms, timestamp.ms, command.commandId,
              some ⟨outcome, command.commandId, command.action, value, reason⟩⟩ := if_pos h
      rw [created_setEntry hset, AuditRow.createdEntry, if_pos h]
      rfl
    · rw [AuditRow.createdEntry]
      funext k; simp [created, applyAuditRow, h]
  | preAuditReject command outcome reason timestamp | revoke grantId nodeId nodeEpoch policyVersion timestamp => rfl

theorem created_foldl (cfg : JournalConfig) (rows : List AuditRow) (s : JournalState) :
    (rows.foldl (applyAuditRow cfg) s).created =
      replay (fun _ => 0) s.created (rows.flatMap fun row => (row.createdEntry cfg).toList) := by
  induction rows generalizing s with
  | nil => rfl
  | cons row rows ih =>
    rw [List.foldl_cons, ih, created_applyAuditRow, List.flatMap_cons, replay_append]

/-- Replaying the audit over a later snapshot: each entry is the snapshot's or the one
the audit gave before. -/
theorem created_replayed_eq_or (cfg : JournalConfig) (rows : List AuditRow) (s s' : JournalState) (k : String) :
    (rows.foldl (applyAuditRow cfg) s').created k = s'.created k ∨ (rows.foldl (applyAuditRow cfg) s').created k =
        (rows.foldl (applyAuditRow cfg) s).created k := by
  rw [created_foldl, created_foldl]
  exact replay_eq_or s.created s'.created _ k le_rfl

end Kookr.Remote

/-! Journal operations that do not overlap. A crash may fall between any two file
operations; what it leaves is the journal before the call in flight or after it. -/

namespace Kookr.Remote

open Kookr.Lib RegisterLog

namespace JournalRun

/-- Every operation starts after the one before it settled, and file operations succeed. -/
def Sequential (ids : List String) (s : JournalRun) : JournalEvent → Prop
  | .call call _ => s.Settled ∧ call.Matched ∧ ∀ c, call.subject = .command c → c ∈ ids
  | .begin _ _ => s.Settled
  | .io _ _ ok => ok = true

theorem not_running_of_settled {s : JournalRun} (h : s.Settled) {i : ℕ} {pc : AppendPc} :
    s.calls[i]? ≠ some (.running pc) := fun hi => by
  have := h _ (List.mem_of_getElem? hi)
  simp [AppendStatus.isRunning] at this

theorem running_of_pending {s : JournalRun} {i : ℕ} {e : Subject × View} (h : s.pending i = some e) :
    ∃ row, row.entry = e ∧ (s.calls[i]? = some (.running (.mkdirAudit row)) ∨
      s.calls[i]? = some (.running (.appendFile row))) := by
  obtain ⟨st, hst, he⟩ := Option.bind_eq_some_iff.1 h
  cases st with
  | resolved | rejected => cases he
  | running pc =>
    cases pc with
    | mkdirAudit row => exact ⟨row, Option.some.inj he, .inl hst⟩
    | appendFile row => exact ⟨row, Option.some.inj he, .inr hst⟩
    | _ => cases he

theorem running_of_rotation {s : JournalRun} {i : ℕ} {σ : Subject → View} (h : s.rotation i = some σ) :
    ∃ pc, s.calls[i]? = some (.running pc) ∧ (AppendStatus.running pc).rotationView s.world.disk = some σ := by
  obtain ⟨st, hst, hσ⟩ := Option.bind_eq_some_iff.1 h
  cases st with
  | running pc => exact ⟨pc, hst, hσ⟩
  | resolved | rejected => cases hσ

end JournalRun

theorem view_appendStep (cfg : JournalConfig) {w : World} {ids : List String} (h : w.mem.Within ids)
    (hl : ids.length ≤ MAX_COMMAND_STATE_ENTRIES) (pc : AppendPc) (now : Timestamp) (ok : Bool) :
    (appendStep cfg w pc now ok).1.mem.view = w.mem.view := by
  cases pc with
  | afterStat size =>
    simp only [appendStep]
    split
    · rfl
    · simp only [JournalState.pruneCommandState_eq_self h hl]
  | statAudit | renameTmp σ | renameAudit archive => simp only [appendStep]; split <;> rfl
  | _ => cases ok <;> rfl

structure SeqInv (ids : List String) (s : JournalRun) : Prop where
  run : RunInv ids s
  /-- One call is in flight at most. -/
  one : ∀ (i j : ℕ) (pc pc' : AppendPc), s.calls[i]? = some (.running pc) →
    s.calls[j]? = some (.running pc') → i = j
  /-- Memory shows what the call in flight has yet to write. -/
  shown : ∀ (i : ℕ) (e : Subject × View), s.pending i = some e →
    upd View.rank (s.world.mem.view e.1) e.2 = s.world.mem.view e.1

namespace SeqInv

variable {cfg : JournalConfig} {ids : List String} {s s' : JournalRun}

theorem init (cfg : JournalConfig) {d : Disk} (hal : LineFile.Aligned d.auditBytes)
    (hzero : d.SnapshotAtZero) (hids : ∀ c, d.recovered (.command c) ≠ .unseen → c ∈ ids)
    (hl : ids.length ≤ MAX_COMMAND_STATE_ENTRIES) : SeqInv ids (JournalRun.init cfg d) :=
  ⟨RunInv.init cfg hal hzero hids hl, by simp [JournalRun.init], by simp [JournalRun.init, JournalRun.pending]⟩

section

variable (h : SeqInv ids s)
include h

/-- Operations that do not overlap write safely. -/
theorem rotationSafe {e : JournalEvent} (he : s.Sequential ids e) : s.RotationSafe cfg ids e := by
  cases e with
  | call c now => exact he.2
  | begin command now => trivial
  | io i now ok =>
    obtain rfl : ok = true := he
    simp only [JournalRun.RotationSafe]
    split
    · trivial
    · rename_i row hi
      refine ⟨trivial, .inl (h.shown i row.entry ?_), fun _ j σ hj => ?_⟩
      · rw [JournalRun.pending, hi]; rfl
      · obtain ⟨pc, hpc, hσ⟩ := JournalRun.running_of_rotation hj
        obtain rfl := h.one i j _ _ hi hpc
        obtain rfl : pc = .appendFile row := by simpa [hi] using hpc.symm
        cases hσ
    · rename_i size hi
      refine .inr fun j => ?_
      by_contra hne
      obtain ⟨σ, hj⟩ := Option.ne_none_iff_exists'.1 hne
      obtain ⟨pc, hpc, hσ⟩ := JournalRun.running_of_rotation hj
      obtain rfl := h.one i j _ _ hi hpc
      obtain rfl : pc = .afterStat size := by simpa [hi] using hpc.symm
      cases hσ
    · trivial

omit h in
theorem one_call (hs : s.Settled) (w : World) (st : AppendStatus) (i j : ℕ) (pc pc' : AppendPc)
    (hi : (⟨w, s.calls ++ [st]⟩ : JournalRun).calls[i]? = some (.running pc))
    (hj : (⟨w, s.calls ++ [st]⟩ : JournalRun).calls[j]? = some (.running pc')) : i = j := by
  have hlast : ∀ (k : ℕ) (pc : AppendPc), (s.calls ++ [st])[k]? = some (.running pc) →
      k = s.calls.length := by
    intro k pc hk
    rcases Nat.lt_or_ge k s.calls.length with hlt | hge
    · rw [List.getElem?_append_left hlt] at hk
      exact absurd hk (JournalRun.not_running_of_settled hs)
    · have := (List.getElem?_eq_some_iff.1 hk).1
      simp at this; omega
  rw [hlast i pc hi, hlast j pc' hj]

theorem one_set {i : ℕ} {pc₀ : AppendPc} (hi : s.calls[i]? = some (.running pc₀))
    (w : World) (st : AppendStatus) (j k : ℕ) (pc pc' : AppendPc)
    (hj : (⟨w, s.calls.set i st⟩ : JournalRun).calls[j]? = some (.running pc))
    (hk : (⟨w, s.calls.set i st⟩ : JournalRun).calls[k]? = some (.running pc')) : j = k := by
  have hrun : ∀ (k : ℕ) (pc : AppendPc),
      (⟨w, s.calls.set i st⟩ : JournalRun).calls[k]? = some (.running pc) → k = i := by
    intro k pc hk
    by_contra hki
    rw [JournalRun.getElem?_set_ne hki] at hk
    exact hki (h.one k i _ _ hk hi)
  rw [hrun j pc hj, hrun k pc' hk]

omit h in
theorem pendingEntry_appendStep {w : World} {pc : AppendPc} {now : Timestamp} {ok : Bool}
    {e : Subject × View} (h : (appendStep cfg w pc now ok).2.pendingEntry = some e) :
    (AppendStatus.running pc).pendingEntry = some e := by
  cases pc with
  | mkdirAudit row => cases ok <;> [cases h; exact h]
  | appendFile row =>
    cases ok
    · cases h
    · simp only [appendStep, if_true] at h
      split at h <;> cases h
  | statAudit | afterStat size | renameTmp σ | renameAudit archive => simp only [appendStep] at h; split at h <;> cases h
  | _ => cases ok <;> cases h

section

variable (hl : ids.length ≤ MAX_COMMAND_STATE_ENTRIES)
include hl

theorem step {e : JournalEvent} (he : s.Sequential ids e) (hs : s.step cfg e = some s') : SeqInv ids s' := by
  have hrun := h.run.step hl (h.rotationSafe he) hs
  cases e with
  | call c now =>
    cases hs
    refine ⟨hrun, one_call he.1 _ _, fun i e hi => ?_⟩
    by_cases hlen : i = s.calls.length
    · rw [hlen, JournalRun.pending_call] at hi
      obtain rfl : (c.start cfg s.world.mem now).2.entry = e := Option.some.inj hi
      rw [JournalCall.view_start cfg _ now he.2.1, put_self, upd_upd_self]
    · rw [JournalRun.pending_call_ne hlen, JournalRun.pending_of_settled he.1] at hi
      cases hi
  | begin command now =>
    cases hs
    have hview := JournalState.view_begin cfg h.run.within hl command now
    refine ⟨hrun, h.one, fun i e hi => ?_⟩
    rw [hview]
    exact h.shown i e hi
  | io i now ok =>
    simp only [JournalRun.step] at hs
    split at hs
    · rename_i pc hi
      cases hs
      refine ⟨hrun, h.one_set hi _ _, fun j e hj => ?_⟩
      rw [view_appendStep cfg h.run.within hl]
      refine h.shown j e ?_
      by_cases hji : j = i
      · subst hji
        rw [JournalRun.pending_set_self (JournalRun.lt_of_getElem? hi)] at hj
        rw [JournalRun.pending, hi]
        exact pendingEntry_appendStep hj
      · rwa [JournalRun.pending_set_ne hji] at hj
    · cases hs

theorem exec {es : List JournalEvent} (hes : StepsMeet (JournalRun.step cfg) (JournalRun.Sequential ids) s es)
    (hs : exec (JournalRun.step cfg) s es = some s') : SeqInv ids s' :=
  exec_invariant (fun _ _ _ h he hs => h.step hl he hs) h hes hs

omit hl in
/-- With no row left to write, the files show what memory shows. -/
theorem recovered (hp : ∀ i, s.pending i = none) :
    s.world.disk.recovered = s.world.mem.view := h.run.log.recovered hp

theorem load_eq : JournalState.load cfg s.world.disk = s.world.disk.replayed cfg := by
  refine Disk.load_eq_replayed cfg h.run.zero (fun c hc => h.run.within c fun hm => hc ?_) hl
  -- what the files show never outranks memory
  have hle : View.rank (s.world.disk.recovered (.command c)) ≤ 0 := by
    have := h.run.log.rank_le (.command c)
    rwa [hm] at this
  cases hv : s.world.disk.recovered (.command c) <;> simp [hv, View.rank] at hle ⊢

end

end

end SeqInv

/-- The events of one more operation: after the first, only its own file operations. -/
def OneOperation (es : List JournalEvent) : Prop := ∀ e ∈ es.tail, ∃ i now ok, e = .io i now ok

/-- A row that is still to be written is still to be written: its call has not touched
the files. -/
theorem disk_appendStep_of_pending {cfg : JournalConfig} {w : World} {pc : AppendPc} {now : Timestamp}
    {ok : Bool} {e : Subject × View} (h : (appendStep cfg w pc now ok).2.pendingEntry = some e) :
    (appendStep cfg w pc now ok).1.disk = w.disk := by
  have hpc := SeqInv.pendingEntry_appendStep h
  cases pc with
  | mkdirAudit row => rfl
  | appendFile row =>
    cases ok
    · rfl
    · simp only [appendStep, if_true] at h
      split at h <;> cases h
  | _ => cases hpc

theorem disk_of_pending {cfg : JournalConfig} {ids : List String} {s s' : JournalRun}
    (h : SeqInv ids s) (hl : ids.length ≤ MAX_COMMAND_STATE_ENTRIES) (hs : s.Settled)
    {es : List JournalEvent} (hone : OneOperation es) (hes : StepsMeet (JournalRun.step cfg) (JournalRun.Sequential ids) s es)
    (hrun : exec (JournalRun.step cfg) s es = some s') {i : ℕ} {e : Subject × View}
    (hi : s'.pending i = some e) : s'.world.disk = s.world.disk := by
  cases es with
  | nil =>
    cases hrun
    rfl
  | cons e₀ es =>
    obtain ⟨s₁, h₁, hrun⟩ := exec_cons_eq_some.1 hrun
    have hinv₁ := h.step hl hes.1 h₁
    have hdisk₁ : s₁.world.disk = s.world.disk := by
      cases e₀ with
      | call c now | begin command now => cases h₁; rfl
      | io j now ok =>
        simp only [JournalRun.step] at h₁
        split at h₁
        · exact absurd ‹_› (JournalRun.not_running_of_settled hs)
        · cases h₁
    have hstep : ∀ (t : JournalRun) (e : JournalEvent) (t' : JournalRun),
        (SeqInv ids t ∧ ∀ i e, t.pending i = some e → t.world.disk = s.world.disk) →
        (t.Sequential ids e ∧ ∃ i now ok, e = .io i now ok) → t.step cfg e = some t' →
        SeqInv ids t' ∧ ∀ i e, t'.pending i = some e → t'.world.disk = s.world.disk := by
      rintro t _ t' ⟨ht, hpend⟩ ⟨hseq, i, now, ok, rfl⟩ ht'
      refine ⟨ht.step hl hseq ht', fun j e hj => ?_⟩
      simp only [JournalRun.step] at ht'
      split at ht'
      · rename_i pc hpc
        cases ht'
        by_cases hji : j = i
        · subst hji
          rw [JournalRun.pending_set_self (JournalRun.lt_of_getElem? hpc)] at hj
          refine (disk_appendStep_of_pending hj).trans (hpend j e ?_)
          rw [JournalRun.pending, hpc]
          exact SeqInv.pendingEntry_appendStep hj
        · rw [JournalRun.pending_set_ne hji] at hj
          obtain ⟨row, -, hrow⟩ := JournalRun.running_of_pending hj
          rcases hrow with hrow | hrow <;> exact absurd (ht.one j i _ _ hrow hpc) hji
      · cases ht'
    exact (exec_invariant hstep ⟨hinv₁, fun _ _ _ => hdisk₁⟩ ((hes.2 s₁ h₁).and_forall hone) hrun).2 i e hi

/-- What the files show at a crash: the journal before the call in flight or after it. -/
theorem reopened_view {cfg : JournalConfig} {ids : List String} {s s' : JournalRun}
    (h : SeqInv ids s) (hl : ids.length ≤ MAX_COMMAND_STATE_ENTRIES) (hs : s.Settled)
    {es : List JournalEvent} (hone : OneOperation es) (hes : StepsMeet (JournalRun.step cfg) (JournalRun.Sequential ids) s es)
    (hrun : exec (JournalRun.step cfg) s es = some s') :
    (s'.Settled → (openJournal cfg s'.world.disk).mem.view = s'.world.mem.view) ∧
      ((openJournal cfg s'.world.disk).mem.view = s.world.mem.view ∨
        (openJournal cfg s'.world.disk).mem.view = s'.world.mem.view) := by
  have h' := h.exec hl hes hrun
  have hopen : ∀ {t : JournalRun}, SeqInv ids t →
      (openJournal cfg t.world.disk).mem.view = t.world.disk.recovered := fun ht => by
    rw [openJournal, ht.load_eq hl, Disk.view_replayed]
  refine ⟨fun hset => ?_, ?_⟩
  · rw [hopen h', h'.recovered (JournalRun.pending_of_settled hset)]
  by_cases hp : ∀ i, s'.pending i = none
  · exact .inr (by rw [hopen h', h'.recovered hp])
  · obtain ⟨i, hi⟩ := not_forall.1 hp
    obtain ⟨e, he⟩ := Option.ne_none_iff_exists'.1 hi
    rw [disk_of_pending h hl hs hone hes hrun he]
    exact .inl (by rw [hopen h, h.recovered (JournalRun.pending_of_settled hs)])

end Kookr.Remote
