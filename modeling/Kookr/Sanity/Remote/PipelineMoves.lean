import Kookr.Spec.Remote.CommandPipeline
import Kookr.Sanity.Remote.SequentialRun

/-! What one step of the pipeline can do, said once for all its invariants. -/

namespace Kookr.Remote

open Kookr.Lib List

section Append

variable (cfg : JournalConfig) (w : World) (pc : AppendPc) (now : Timestamp) (ok : Bool)

theorem appendStep_mem : (appendStep cfg w pc now ok).1.mem.idempotency = w.mem.idempotency ∧
    (appendStep cfg w pc now ok).1.mem.tombstones = w.mem.tombstones ∧
    ∀ c r, (appendStep cfg w pc now ok).1.mem.results.get c = some r → w.mem.results.get c = some r := by
  have hprune : ∀ c r, w.mem.pruneCommandState.results.get c = some r → w.mem.results.get c = some r := by
    intro c r h
    unfold JournalState.pruneCommandState at h
    split at h
    · exact h
    · exact JournalState.get_of_get_filter h
  have htomb : w.mem.pruneCommandState.tombstones = w.mem.tombstones := by
    unfold JournalState.pruneCommandState
    split <;> rfl
  cases pc with
  | afterStat size =>
    simp only [appendStep]
    split
    · exact ⟨rfl, rfl, fun _ _ h => h⟩
    · exact ⟨w.mem.idempotency_pruneCommandState, htomb, hprune⟩
  | statAudit | renameTmp σ | renameAudit archive => simp only [appendStep]; split <;> exact ⟨rfl, rfl, fun _ _ h => h⟩
  | _ => cases ok <;> exact ⟨rfl, rfl, fun _ _ h => h⟩

end Append

def PipelineEffect.delivery : PipelineEffect → Option ℕ
  | .passed i | .intended i | .started i | .succeeded i | .recorded i _ => some i
  | .revoked _ => none

namespace PipelineRun

/-- The moves of the pipeline, each with the state it leads to. -/
inductive Move (cfg : JournalConfig) (s : PipelineRun) : PipelineEvent → PipelineRun → Prop where
  | accept {request : CommandEnvelope} {action : RemoteCommandAction} {now : Timestamp} :
      request.action = action → s.world.mem.hasTombstone request.grantId = false →
      Move cfg s (.deliver request action now)
        { s with deliveries := s.deliveries ++ [⟨request, .authorize⟩] }
  | turnAway {request : CommandEnvelope} {action : RemoteCommandAction} {now : Timestamp} {reason : String} :
      request.action ≠ action ∨ s.world.mem.hasTombstone request.grantId = true →
      Move cfg s (.deliver request action now)
        { s.withMem (s.rejected request reason now).1 with
          deliveries := s.deliveries ++ [⟨request, (s.rejected request reason now).2⟩] }
  | authorized {i : ℕ} {request : CommandEnvelope} {now : Timestamp} :
      s.deliveries[i]? = some ⟨request, .authorize⟩ →
      Move cfg s (.authorized i .ok now) (s.goto i request .validate)
  | refused {i : ℕ} {request : CommandEnvelope} {pc : PipelinePc} {reason : String} {now : Timestamp}
      {e : PipelineEvent} : s.deliveries[i]? = some ⟨request, pc⟩ →
      (pc = .authorize ∧ e = .authorized i (.refused reason) now) ∨
        (pc = .validate ∧ e = .validated i (.refused reason) now) →
      Move cfg s e ((s.withMem (s.rejected request reason now).1).goto i request
        (s.rejected request reason now).2)
  | checkThrew {i : ℕ} {request : CommandEnvelope} {pc : PipelinePc} {now : Timestamp}
      {e : PipelineEvent} : s.deliveries[i]? = some ⟨request, pc⟩ →
      (pc = .authorize ∧ e = .authorized i .threw now) ∨ (pc = .validate ∧ e = .validated i .threw now) →
      Move cfg s e (s.goto i request .threw)
  | validated {i : ℕ} {request : CommandEnvelope} {now : Timestamp} :
      s.deliveries[i]? = some ⟨request, .validate⟩ →
      Move cfg s (.validated i .ok now) (s.validated cfg i request now)
  | start {i : ℕ} {request : CommandEnvelope} :
      s.deliveries[i]? = some ⟨request, .intentAppended⟩ →
      Move cfg s (.start i) ((s.goto i request .execute).note [.started i])
  | succeed {i : ℕ} {request : CommandEnvelope} {result : Option Json} {now : Timestamp} :
      s.deliveries[i]? = some ⟨request, .execute⟩ →
      Move cfg s (.executed i (.resolved result) now)
        ((s.note [.succeeded i]).record i request (acceptedResult request result) .appendAccepted now)
  | fail {i : ℕ} {request : CommandEnvelope} {pc : PipelinePc} {error : String} {now : Timestamp}
      {e : PipelineEvent} : s.deliveries[i]? = some ⟨request, pc⟩ →
      (pc = .execute ∧ e = .executed i (.failed error) now) ∨
        (pc = .appendAcceptedFailed ∧ e = .caught i error now) →
      Move cfg s e (s.record i request (rejectedResult request error) .appendRejected now)
  | io {i : ℕ} {request : CommandEnvelope} {pc : PipelinePc} {append : AppendPc} {now : Timestamp}
      {ok : Bool} : s.deliveries[i]? = some ⟨request, pc⟩ → pc.append = some append →
      Move cfg s (.io i now ok) ({ s with world := (appendStep cfg s.world append now ok).1 }.goto i
        request (afterAppend pc (appendStep cfg s.world append now ok).2))
  | revoke {grantId : String} {policyVersion : Option NumLit} {now : Timestamp} :
      Move cfg s (.revokeGrant grantId policyVersion now)
        { s.withMem (s.world.mem.revokeGrant cfg grantId policyVersion now).1 with
          revocations := s.revocations ++
            [.running (.mkdirAudit (s.world.mem.revokeGrant cfg grantId policyVersion now).2)]
          trace := s.trace ++ [.revoked grantId] }
  | revokeIo {j : ℕ} {pc : AppendPc} {now : Timestamp} {ok : Bool} :
      Move cfg s (.revokeIo j now ok)
        { s with
          world := (appendStep cfg s.world pc now ok).1
          revocations := s.revocations.set j (appendStep cfg s.world pc now ok).2 }

theorem move_of_step {cfg : JournalConfig} {s s' : PipelineRun} {e : PipelineEvent}
    (h : s.step cfg e = some s') : Move cfg s e s' := by
  cases e with
  | deliver request action now =>
    cases h
    simp only [deliver]
    split
    · exact .turnAway (.inl ‹_›)
    · split
      · exact .turnAway (.inr ‹_›)
      · rename_i haction htomb
        exact .accept (not_not.1 haction) (by simpa using htomb)
  | authorized i answer now =>
    simp only [step] at h
    split at h
    · rename_i request hi
      cases answer with
      | ok => cases h; exact .authorized hi
      | refused reason => cases h; exact .refused hi (.inl ⟨rfl, rfl⟩)
      | threw => cases h; exact .checkThrew hi (.inl ⟨rfl, rfl⟩)
    · cases h
  | validated i answer now =>
    simp only [step] at h
    split at h
    · rename_i request hi
      cases answer with
      | ok => cases h; exact .validated hi
      | refused reason => cases h; exact .refused hi (.inr ⟨rfl, rfl⟩)
      | threw => cases h; exact .checkThrew hi (.inr ⟨rfl, rfl⟩)
    · cases h
  | start i =>
    simp only [step] at h
    split at h
    · cases h; exact .start ‹_›
    · cases h
  | executed i answer now =>
    simp only [step] at h
    split at h
    · rename_i request hi
      cases answer with
      | resolved result => cases h; exact .succeed hi
      | failed error => cases h; exact .fail hi (.inl ⟨rfl, rfl⟩)
    · cases h
  | caught i error now =>
    simp only [step] at h
    split at h
    · cases h; exact .fail ‹_› (.inr ⟨rfl, rfl⟩)
    · cases h
  | io i now ok =>
    simp only [step] at h
    split at h
    · split at h
      · cases h; exact .io ‹_› ‹_›
      · cases h
    · cases h
  | revokeGrant grantId policyVersion now => cases h; exact .revoke
  | revokeIo j now ok =>
    simp only [step] at h
    split at h
    · cases h; exact .revokeIo
    · cases h

variable {cfg : JournalConfig} {s s' : PipelineRun} {e : PipelineEvent} {x : PipelineEffect}

def requests (s : PipelineRun) : List CommandEnvelope := s.deliveries.map Delivery.request

theorem getElem?_requests {i : ℕ} {dlv : Delivery} (h : s.deliveries[i]? = some dlv) :
    s.requests[i]? = some dlv.request := by simp [requests, h]

section Goto

variable {i j : ℕ} {request : CommandEnvelope} {pc pc' : PipelinePc}

theorem getElem?_goto_self {dlv : Delivery} (h : s.deliveries[i]? = some dlv) :
    (s.goto i request pc).deliveries[i]? = some ⟨request, pc⟩ :=
  List.getElem?_set_self (List.getElem?_eq_some_iff.1 h).1

theorem requests_goto (h : s.deliveries[i]? = some ⟨request, pc⟩) : (s.goto i request pc').requests = s.requests := by
  have hi : s.requests[i]? = some request := getElem?_requests h
  obtain ⟨hlt, hget⟩ := List.getElem?_eq_some_iff.1 hi
  have hset : s.requests.set i request = s.requests := by
    nth_rewrite 1 [← hget]
    exact set_getElem_self hlt
  rw [← hset]
  exact map_set ..

end Goto

theorem requests_validated {i : ℕ} {request : CommandEnvelope} {pc : PipelinePc} {now : Timestamp}
    (h : s.deliveries[i]? = some ⟨request, pc⟩) : (s.validated cfg i request now).requests = s.requests := by
  unfold PipelineRun.validated
  split
  · exact requests_goto h
  · exact requests_goto h

theorem requests_extend (h : s.step cfg e = some s') : s.requests <+: s'.requests := by
  have hsame : ∀ {l}, l = s.requests → s.requests <+: l := by
    rintro l rfl
    exact prefix_refl _
  cases move_of_step h with
  | accept | turnAway => exact ⟨_, (map_append ..).symm⟩
  | authorized hi | refused hi | checkThrew hi => exact hsame (requests_goto hi)
  | validated hi => exact hsame (requests_validated hi)
  | start hi | succeed hi | fail hi | io hi => exact hsame (requests_goto hi)
  | revoke | revokeIo => exact hsame rfl

theorem getElem?_requests_of_step (h : s.step cfg e = some s') {i : ℕ} {request : CommandEnvelope}
    (hi : s.requests[i]? = some request) : s'.requests[i]? = some request := by
  obtain ⟨rest, hrest⟩ := requests_extend h
  obtain ⟨hlt, -⟩ := List.getElem?_eq_some_iff.1 hi
  rw [← hrest, getElem?_append_left hlt]
  exact hi

/-- When a step on `e` adds an effect to the trace. -/
def Occurs (s : PipelineRun) (e : PipelineEvent) : PipelineEffect → Prop
  | .passed i => ∃ request now, s.deliveries[i]? = some ⟨request, .validate⟩ ∧ e = .validated i .ok now
  | .intended i => ∃ request now, s.deliveries[i]? = some ⟨request, .validate⟩ ∧ e = .validated i .ok now
  | .started i => ∃ request, s.deliveries[i]? = some ⟨request, .intentAppended⟩ ∧ e = .start i
  | .succeeded i => ∃ request result now, s.deliveries[i]? = some ⟨request, .execute⟩ ∧
      e = .executed i (.resolved result) now
  | .recorded i _ => ∃ request pc, s.deliveries[i]? = some ⟨request, pc⟩ ∧
      (pc = .execute ∨ pc = .appendAcceptedFailed)
  | .revoked grantId => ∃ policyVersion now, e = .revokeGrant grantId policyVersion now

theorem trace_of_step (h : s.step cfg e = some s') :
    ∃ effects, s'.trace = s.trace ++ effects ∧ effects.Nodup ∧ ∀ x ∈ effects, s.Occurs e x := by
  have hnone : ∃ effects, s.trace = s.trace ++ effects ∧ effects.Nodup ∧ ∀ x ∈ effects, s.Occurs e x :=
    ⟨[], (append_nil _).symm, nodup_nil, fun _ hx => absurd hx not_mem_nil⟩
  cases move_of_step h with
  | @validated i request now hi =>
    unfold PipelineRun.validated
    split
    · refine ⟨[.passed i], rfl, nodup_singleton _, ?_⟩
      intro x hx
      obtain rfl := mem_singleton.1 hx
      exact ⟨request, now, hi, rfl⟩
    · refine ⟨[.passed i, .intended i], rfl, by simp, ?_⟩
      intro x hx
      rcases mem_pair.1 hx with rfl | rfl
      · exact ⟨request, now, hi, rfl⟩
      · exact ⟨request, now, hi, rfl⟩
  | @start i request hi =>
    refine ⟨[.started i], rfl, nodup_singleton _, ?_⟩
    intro x hx
    obtain rfl := mem_singleton.1 hx
    exact ⟨request, hi, rfl⟩
  | @succeed i request result now hi =>
    refine ⟨[.succeeded i, .recorded i (acceptedResult request result)],
      append_assoc .., by simp, ?_⟩
    intro x hx
    rcases mem_pair.1 hx with rfl | rfl
    · exact ⟨request, result, now, hi, rfl⟩
    · exact ⟨request, _, hi, .inl rfl⟩
  | @fail i request pc error now e hi hpc =>
    refine ⟨[.recorded i (rejectedResult request error)], rfl, nodup_singleton _, ?_⟩
    intro x hx
    obtain rfl := mem_singleton.1 hx
    exact ⟨request, pc, hi, hpc.imp And.left And.left⟩
  | @revoke grantId policyVersion now =>
    refine ⟨[.revoked grantId], rfl, nodup_singleton _, ?_⟩
    intro x hx
    obtain rfl := mem_singleton.1 hx
    exact ⟨policyVersion, now, rfl⟩
  | _ => exact hnone

/-- Effects are about deliveries that exist. -/
def TraceBounded (s : PipelineRun) : Prop :=
  ∀ x ∈ s.trace, ∀ i, x.delivery = some i → i < s.requests.length

theorem TraceBounded.init (cfg : JournalConfig) (d : Disk) : TraceBounded (.init cfg d) :=
  fun _ h => absurd h List.not_mem_nil

theorem Occurs.delivery_lt (h : s.Occurs e x) {i : ℕ} (hx : x.delivery = some i) : i < s.requests.length := by
  have hget : ∃ dlv, s.deliveries[i]? = some dlv := by
    cases x <;> cases hx
    · obtain ⟨_, _, hi, _⟩ := h; exact ⟨_, hi⟩
    · obtain ⟨_, _, hi, _⟩ := h; exact ⟨_, hi⟩
    · obtain ⟨_, hi, _⟩ := h; exact ⟨_, hi⟩
    · obtain ⟨_, _, _, hi, _⟩ := h; exact ⟨_, hi⟩
    · obtain ⟨_, _, hi, _⟩ := h; exact ⟨_, hi⟩
  obtain ⟨dlv, hi⟩ := hget
  obtain ⟨hlt, -⟩ := List.getElem?_eq_some_iff.1 hi
  simpa [requests] using hlt

theorem TraceBounded.lt_of_step (hb : s.TraceBounded) (h : s.step cfg e = some s')
    (hx : x ∈ s'.trace) {i : ℕ} (hi : x.delivery = some i) : i < s.requests.length := by
  obtain ⟨effects, htrace, -, hocc⟩ := trace_of_step h
  rw [htrace] at hx
  rcases mem_append.1 hx with hx | hx
  · exact hb x hx i hi
  · exact (hocc x hx).delivery_lt hi

theorem TraceBounded.step (hb : s.TraceBounded) (h : s.step cfg e = some s') : s'.TraceBounded :=
  fun _ hx _ hi => lt_of_lt_of_le (hb.lt_of_step h hx hi) (requests_extend h).length_le

theorem TraceBounded.request_eq (hb : s.TraceBounded) (h : s.step cfg e = some s')
    (hx : x ∈ s'.trace) {i : ℕ} (hi : x.delivery = some i) : s'.requests[i]? = s.requests[i]? := by
  obtain ⟨rest, hrest⟩ := requests_extend h
  rw [← hrest, getElem?_append_left (hb.lt_of_step h hx hi)]

theorem mem_trace_of_step (h : s.step cfg e = some s') (hx : x ∈ s.trace) : x ∈ s'.trace := by
  obtain ⟨effects, htrace, -⟩ := trace_of_step h
  rw [htrace]
  exact mem_append_left _ hx

/-- `begin` is `prune`, and a use of the entry it finds. -/
theorem begin_mem (cfg : JournalConfig) (m : JournalState) (request : CommandEnvelope) (now : Timestamp) :
    ∃ entries, (m.begin cfg request now).1 = { m.prune cfg now with idempotency := entries } := by
  rw [JournalState.begin]
  split
  · exact ⟨_, rfl⟩
  · split <;> exact ⟨_, rfl⟩

theorem tombstones_begin (cfg : JournalConfig) (m : JournalState) (request : CommandEnvelope)
    (now : Timestamp) : (m.begin cfg request now).1.tombstones = m.tombstones := by
  have hcmd : ∀ m : JournalState, m.pruneCommandState.tombstones = m.tombstones := by
    intro m
    unfold JournalState.pruneCommandState
    split <;> rfl
  obtain ⟨entries, hb⟩ := begin_mem cfg m request now
  rw [hb]
  simp only [JournalState.prune]
  split
  · rfl
  · exact hcmd _

theorem tombstones_validated (i : ℕ) (request : CommandEnvelope) (now : Timestamp) :
    (s.validated cfg i request now).world.mem.tombstones = s.world.mem.tombstones := by
  have hb := tombstones_begin cfg s.world.mem request now
  unfold PipelineRun.validated
  split <;> rename_i heq <;> rw [heq] at hb <;> exact hb

theorem hasTombstone_of_step (h : s.step cfg e = some s') {g : String}
    (hg : s.world.mem.hasTombstone g = true) : s'.world.mem.hasTombstone g = true := by
  have hcongr : ∀ {m : JournalState}, m.tombstones = s.world.mem.tombstones → m.hasTombstone g = true := by
    intro m hm
    rw [JournalState.hasTombstone, hm]
    exact hg
  cases move_of_step h with
  | validated hi => exact hcongr (tombstones_validated ..)
  | io hi hp | revokeIo => exact hcongr (appendStep_mem ..).2.1
  | @revoke grantId policyVersion now =>
    have hset : (s.world.mem.tombstones.set grantId ()).has g = true := by
      unfold OrderedMap.has
      rw [OrderedMap.get_set]
      split
      · rfl
      · exact hg
    exact hset
  | _ => exact hg

theorem results_begin (cfg : JournalConfig) (m : JournalState) (request : CommandEnvelope)
    (now : Timestamp) {c : String} {r : CommandResult} (h : (m.begin cfg request now).1.results.get c = some r) :
    m.results.get c = some r := by
  have hcmd : ∀ m : JournalState, m.pruneCommandState.results.get c = some r →
      m.results.get c = some r := by
    intro m h
    unfold JournalState.pruneCommandState at h
    split at h
    · exact h
    · exact JournalState.get_of_get_filter h
  obtain ⟨entries, hb⟩ := begin_mem cfg m request now
  rw [hb] at h
  simp only [JournalState.prune] at h
  split at h
  · exact h
  · have hkept := hcmd _ h
    exact hkept

theorem results_validated {i : ℕ} {request : CommandEnvelope} {now : Timestamp} {c : String}
    {r : CommandResult} (h : (s.validated cfg i request now).world.mem.results.get c = some r) :
    s.world.mem.results.get c = some r := by
  apply results_begin cfg s.world.mem request now
  unfold PipelineRun.validated at h
  split at h <;> rename_i heq <;> rw [heq] <;> exact h

end PipelineRun

end Kookr.Remote
