import Kookr.Spec.Remote.ControllerLease

/-! What the lease operations do, session by session: the lease and the pending timer of
one session change, and events are published. -/

namespace Kookr.Remote

open Kookr.Lib

namespace LeaseManager

/-- The timer that is pending for a session. -/
def pending (m : LeaseManager) (sessionId : String) : Option (ControllerLease × LeaseRevocationReason) :=
  (m.record sessionId).presumedLostTimer

variable (opts : LeaseOptions) (m : LeaseManager) (sid s : String)

theorem current_eq_record : m.current s = (m.record s).lease := by
  unfold current record
  cases m.sessions.get s <;> rfl

theorem record_setRecord (r : SessionLeaseRecord) : (m.setRecord sid r).record s = if s = sid then r else m.record s := by
  unfold record setRecord
  rw [OrderedMap.get_set]
  by_cases h : sid = s
  · rw [if_pos h, if_pos h.symm]
    rfl
  · rw [if_neg h, if_neg fun he => h he.symm]

/-- A change at one session, with the events it publishes. -/
structure Effect (m m' : LeaseManager) (sid : String) (lease : Option ControllerLease)
    (timer : Option (ControllerLease × LeaseRevocationReason)) (pubs : List Publication) : Prop where
  current : ∀ s, m'.current s = if s = sid then lease else m.current s
  pending : ∀ s, m'.pending s = if s = sid then timer else m.pending s
  published : m'.published = m.published ++ pubs
  armed : m.sweepTimer.isSome → m'.sweepTimer.isSome

variable {opts m sid s} {m' m'' : LeaseManager} {lease lease' : Option ControllerLease}
  {timer timer' : Option (ControllerLease × LeaseRevocationReason)} {pubs pubs' : List Publication}

theorem Effect.refl (m : LeaseManager) (sid : String) : Effect m m sid (m.current sid) (m.pending sid) [] := by
  refine ⟨?_, ?_, (List.append_nil _).symm, id⟩
  · intro s
    split
    · rename_i h
      rw [h]
    · rfl
  · intro s
    split
    · rename_i h
      rw [h]
    · rfl

section

variable (h : Effect m m' sid lease timer pubs)
include h

theorem Effect.trans (h' : Effect m' m'' sid lease' timer' pubs') : Effect m m'' sid lease' timer' (pubs ++ pubs') := by
  refine ⟨?_, ?_, ?_, h'.armed ∘ h.armed⟩
  · intro s
    rw [h'.current, h.current]
    split <;> rfl
  · intro s
    rw [h'.pending, h.pending]
    split <;> rfl
  · rw [h'.published, h.published, List.append_assoc]

theorem Effect.current_self : m'.current sid = lease := by
  rw [h.current, if_pos rfl]

theorem Effect.pending_self : m'.pending sid = timer := by
  rw [h.pending, if_pos rfl]

end

theorem Effect.of_tick {reads : ℕ} (h : Effect { m with reads := reads } m' sid lease timer pubs) :
    Effect m m' sid lease timer pubs := ⟨h.current, h.pending, h.published, h.armed⟩

theorem effect_setRecord (m : LeaseManager) (sid : String) (r : SessionLeaseRecord) :
    Effect m (m.setRecord sid r) sid r.lease r.presumedLostTimer [] := by
  refine ⟨?_, ?_, (List.append_nil _).symm, id⟩
  · intro s
    rw [current_eq_record, current_eq_record, record_setRecord]
    split <;> rfl
  · intro s
    unfold LeaseManager.pending
    rw [record_setRecord]
    split <;> rfl

theorem effect_setLease (m : LeaseManager) (sid : String) (lease : ControllerLease) :
    Effect m (m.setLease sid lease) sid (some lease) (m.pending sid) [] := effect_setRecord m sid _

theorem effect_cancelPresumedLost (m : LeaseManager) (sid : String) :
    Effect m (m.cancelPresumedLost sid) sid (m.current sid) none [] := by
  rw [current_eq_record]
  exact effect_setRecord m sid _

/-- The event that `emit` publishes. -/
def publication (m : LeaseManager) (lease : ControllerLease) (previousState newState : ControllerLeaseState)
    (reason : Option LeaseRevocationReason) (first : Bool) : Publication :=
  ⟨⟨lease.sessionId, lease.sessionEpoch, lease.leaseId, previousState, newState, lease.actorId, lease.clientId, reason⟩,
    (m.current lease.sessionId).map ControllerLease.leaseId, first⟩

theorem effect_emit (m : LeaseManager) (sid : String) (lease : ControllerLease) (previous next : ControllerLeaseState)
    (reason : Option LeaseRevocationReason) (first : Bool) :
    Effect m (m.emit lease previous next reason first) sid (m.current sid) (m.pending sid)
      [m.publication lease previous next reason first] := by
  obtain ⟨hcurrent, hpending, -, -⟩ := Effect.refl m sid
  exact ⟨hcurrent, hpending, rfl, id⟩

theorem scheduleSweep_eq (opts : LeaseOptions) (m : LeaseManager) : ∃ reads timer,
    m.scheduleSweep opts = { m with reads := reads, sweepTimer := timer } ∧ (m.sweepTimer.isSome → timer.isSome) := by
  unfold scheduleSweep
  split
  · exact ⟨_, _, rfl, id⟩
  · rename_i h
    dsimp only [tick]
    split <;> exact ⟨_, _, rfl, fun hs => absurd hs h⟩

theorem effect_scheduleSweep (opts : LeaseOptions) (m : LeaseManager) (sid : String) :
    Effect m (m.scheduleSweep opts) sid (m.current sid) (m.pending sid) [] := by
  obtain ⟨reads, timer, heq, harmed⟩ := scheduleSweep_eq opts m
  obtain ⟨hcurrent, hpending, hpublished, -⟩ := Effect.refl m sid
  rw [heq]
  exact ⟨hcurrent, hpending, hpublished, harmed⟩

def HeldRemotely (m : LeaseManager) : Prop :=
  ∃ sid lease, m.current sid = some lease ∧ lease.state = .heldRemote

theorem foldl_isSome {f : Option ℕ → SessionLeaseRecord → Option ℕ} {record : SessionLeaseRecord}
    (hkeeps : ∀ next r, next.isSome = true → (f next r).isSome = true) (hgives : ∀ next, (f next record).isSome = true)
    (rs : List SessionLeaseRecord) (next : Option ℕ) (h : next.isSome = true ∨ record ∈ rs) : (rs.foldl f next).isSome = true := by
  induction rs generalizing next with
  | nil =>
    rcases h with h | h
    · exact h
    · cases h
  | cons r rs ih =>
    refine ih _ ?_
    rcases h with h | h
    · exact .inl (hkeeps next r h)
    · rcases List.mem_cons.1 h with rfl | h
      · exact .inl (hgives next)
      · exact .inr h

theorem nextSweepDelayMs_isSome {now : ℕ} (h : m.HeldRemotely) : (m.nextSweepDelayMs opts now).isSome := by
  obtain ⟨sid, lease, hcur, hstate⟩ := h
  obtain ⟨record, hget, hlease⟩ := Option.bind_eq_some_iff.1 hcur
  have hmem : record ∈ m.sessions.values := (m.sessions.mem_values_iff record).2 ⟨sid, hget⟩
  refine foldl_isSome (fun next r hnext => ?_) (fun next => ?_) m.sessions.values none (.inr hmem)
  · split
    · split
      · rfl
      · exact hnext
    · exact hnext
  · rw [hlease]
    simp only [hstate, if_true]
    rfl

theorem scheduleSweep_armed (h : m.HeldRemotely) : (m.scheduleSweep opts).sweepTimer.isSome := by
  unfold scheduleSweep
  split
  · assumption
  · have hsome : (({ m with reads := m.reads + 1 } : LeaseManager).nextSweepDelayMs opts (opts.now m.reads)).isSome :=
      nextSweepDelayMs_isSome h
    dsimp only [tick]
    split
    · rfl
    · rename_i hnone
      rw [hnone] at hsome
      cases hsome

end LeaseManager

end Kookr.Remote

/-! How a lease can move. An operation that makes no new lease keeps the one its session
has, refreshes it, shows a new state of it, or ends it because the relay is lost. -/

namespace Kookr.Remote

open Kookr.Lib

/-- The states in which a remote client holds the session. -/
def ControllerLeaseState.Held (state : ControllerLeaseState) : Prop := state = .heldRemote ∨ state = .heldUncertain

instance (state : ControllerLeaseState) : Decidable state.Held := inferInstanceAs (Decidable (_ ∨ _))

/-- What every lease of a manager satisfies. -/
structure ControllerLease.Fits (lease : ControllerLease) (sid : String) : Prop where
  sessionId : lease.sessionId = sid
  state : lease.state.Held ∨ lease.state = .heldLocal ∨ lease.state = .revoked
  local_actor : lease.state = .heldLocal → lease.actorId = none

/-- The same lease, perhaps in another state. -/
structure ControllerLease.Same (lease lease' : ControllerLease) : Prop where
  leaseId : lease'.leaseId = lease.leaseId
  sessionId : lease'.sessionId = lease.sessionId
  actorId : lease'.actorId = lease.actorId

/-- The event about a lease that is its session's current one. -/
def ControllerLease.event (lease : ControllerLease) (previous next : ControllerLeaseState)
    (reason : Option LeaseRevocationReason) (first : Bool) : Publication :=
  ⟨⟨lease.sessionId, lease.sessionEpoch, lease.leaseId, previous, next, lease.actorId, lease.clientId, reason⟩,
    some lease.leaseId, first⟩

namespace LeaseManager

variable {opts : LeaseOptions} {m m' m'' : LeaseManager} {sid s : String}

def Fit (m : LeaseManager) : Prop := ∀ sid lease, m.current sid = some lease → lease.Fits sid

/-- A change of one session in which no lease is made. -/
inductive Moved (m m' : LeaseManager) (sid : String) : Prop
  | kept (timer : Option (ControllerLease × LeaseRevocationReason))
      (htimer : timer = m.pending sid ∨ timer = none)
      (heffect : Effect m m' sid (m.current sid) timer [])
  | refreshed (lease : ControllerLease) (misses now : ℕ) (timer : Option (ControllerLease × LeaseRevocationReason))
      (hcur : m.current sid = some lease) (hstate : lease.state ≠ .revoked)
      (htimer : timer = m.pending sid ∨ timer = none)
      (heffect : Effect m m' sid (some { lease with heartbeatMisses := misses, updatedAtMs := now }) timer [])
  | shown (lease lease' : ControllerLease) (reason : Option LeaseRevocationReason)
      (timer : Option (ControllerLease × LeaseRevocationReason))
      (hcur : m.current sid = some lease) (hstate : lease.state ≠ .revoked) (hsame : lease.Same lease')
      (hnext : lease'.state = .revoked ∧ timer = none ∨ lease.state.Held ∧ lease'.state.Held)
      (htimer : timer = m.pending sid ∨ timer = none)
      (heffect : Effect m m' sid (some lease') timer [lease'.event lease.state lease'.state reason false])
  | disconnected (lease lease' : ControllerLease) (reason : LeaseRevocationReason)
      (hcur : m.current sid = some lease) (hstate : lease.state = .heldRemote) (hsame : lease.Same lease')
      (hnext : lease'.state = .revoked)
      (heffect : Effect m m' sid (some lease') (some (lease', reason))
        [lease.event .heldRemote .heldUncertain none false])

theorem Moved.refl (m : LeaseManager) (sid : String) : Moved m m sid :=
  .kept _ (.inl rfl) (Effect.refl m sid)

theorem Moved.current_of_ne (h : Moved m m' sid) (hne : s ≠ sid) : m'.current s = m.current s := by
  cases h with
  | kept _ _ heffect | refreshed _ _ _ _ _ _ _ heffect | shown _ _ _ _ _ _ _ _ _ heffect
  | disconnected _ _ _ _ _ _ _ heffect => rw [heffect.current, if_neg hne]

theorem Moved.armed (h : Moved m m' sid) : m.sweepTimer.isSome → m'.sweepTimer.isSome := by
  cases h with
  | kept _ _ heffect | refreshed _ _ _ _ _ _ _ heffect | shown _ _ _ _ _ _ _ _ _ heffect
  | disconnected _ _ _ _ _ _ _ heffect => exact heffect.armed

/-- The lease after a move is the one before it, and is held only where that one was. -/
theorem Moved.current_cases (h : Moved m m' sid) {lease' : ControllerLease} (hcur' : m'.current s = some lease') :
    ∃ lease, m.current s = some lease ∧ lease.Same lease' ∧
      (lease'.state = lease.state ∨ lease'.state = .revoked ∨ lease.state.Held ∧ lease'.state.Held) := by
  by_cases hs : s = sid
  · subst hs
    cases h with
    | kept _ _ heffect =>
      rw [heffect.current_self] at hcur'
      exact ⟨lease', hcur', ⟨rfl, rfl, rfl⟩, .inl rfl⟩
    | refreshed lease _ _ _ hcur _ _ heffect =>
      rw [heffect.current_self] at hcur'
      cases hcur'
      exact ⟨lease, hcur, ⟨rfl, rfl, rfl⟩, .inl rfl⟩
    | shown lease next _ _ hcur _ hsame hnext _ heffect =>
      rw [heffect.current_self] at hcur'
      cases hcur'
      exact ⟨lease, hcur, hsame, .inr (hnext.imp_left And.left)⟩
    | disconnected lease next _ hcur _ hsame hnext heffect =>
      rw [heffect.current_self] at hcur'
      cases hcur'
      exact ⟨lease, hcur, hsame, .inr (.inl hnext)⟩
  · rw [h.current_of_ne hs] at hcur'
    exact ⟨lease', hcur', ⟨rfl, rfl, rfl⟩, .inl rfl⟩

theorem Moved.fit (h : Moved m m' sid) (hfit : m.Fit) : m'.Fit := by
  intro s lease' hcur'
  obtain ⟨lease, hcur, hsame, hstate⟩ := h.current_cases hcur'
  obtain ⟨hsid, hstates, hlocal⟩ := hfit s lease hcur
  refine ⟨hsame.sessionId.trans hsid, ?_, ?_⟩
  · rcases hstate with heq | hrev | ⟨-, hheld⟩
    · rwa [heq]
    · exact .inr (.inr hrev)
    · exact .inl hheld
  · intro hloc
    rw [hsame.actorId]
    rcases hstate with heq | hrev | ⟨-, hheld⟩
    · exact hlocal (heq ▸ hloc)
    · rw [hrev] at hloc
      cases hloc
    · rw [hloc] at hheld
      exact absurd hheld (by decide)

theorem publication_eq_event {lease : ControllerLease} {previous next : ControllerLeaseState}
    {reason : Option LeaseRevocationReason} {first : Bool}
    (hsid : lease.sessionId = sid) (h : (m.current sid).map ControllerLease.leaseId = some lease.leaseId) :
    m.publication lease previous next reason first = lease.event previous next reason first := by
  unfold publication ControllerLease.event
  rw [hsid, h]

theorem visibleOr_of_fits {lease : ControllerLease} (h : lease.Fits sid) (fallback : ControllerLeaseState) :
    visibleOr lease.state fallback = lease.state := by
  apply if_neg
  intro hrel
  have hstate := h.state
  rw [hrel] at hstate
  exact absurd hstate (by decide)

section Parts

variable {lease : ControllerLease} (hsid : lease.sessionId = sid)
  (previous next : ControllerLeaseState) (reason : Option LeaseRevocationReason) (first : Bool)

include hsid

theorem effect_emit_current (hcur : m.current sid = some lease) :
    Effect m (m.emit lease previous next reason first) sid (some lease) (m.pending sid)
      [lease.event previous next reason first] := by
  have h := effect_emit m sid lease previous next reason first
  rwa [hcur, publication_eq_event hsid (by rw [hcur]; rfl)] at h

theorem effect_setLease_emit :
    Effect m ((m.setLease sid lease).emit lease previous next reason first) sid (some lease) (m.pending sid)
      [lease.event previous next reason first] := by
  have hset := effect_setLease m sid lease
  have hemit := effect_emit_current hsid previous next reason first hset.current_self
  rw [hset.pending_self] at hemit
  exact hset.trans hemit

end Parts

theorem effect_setLease_cancel (m : LeaseManager) (sid : String) (lease : ControllerLease) :
    Effect m ((m.setLease sid lease).cancelPresumedLost sid) sid (some lease) none [] := by
  have hset := effect_setLease m sid lease
  have hcancel := effect_cancelPresumedLost (m.setLease sid lease) sid
  rw [hset.current_self] at hcancel
  exact hset.trans hcancel

theorem effect_then_scheduleSweep {lease : Option ControllerLease}
    {timer : Option (ControllerLease × LeaseRevocationReason)} {pubs : List Publication}
    (h : Effect m m' sid lease timer pubs) : Effect m (m'.scheduleSweep opts) sid lease timer pubs := by
  have hsweep := effect_scheduleSweep opts m' sid
  rw [h.current_self, h.pending_self] at hsweep
  have htrans := h.trans hsweep
  rwa [List.append_nil] at htrans

variable {lease : ControllerLease}

theorem effect_revoke (opts : LeaseOptions) (hfit : m.Fit) (hcur : m.current sid = some lease)
    (hstate : lease.state ≠ .revoked) (reason : LeaseRevocationReason) : ∃ lease', lease.Same lease' ∧ lease'.state = .revoked ∧
      Effect m (m.revoke opts sid reason) sid (some lease') none [lease'.event lease.state .revoked (some reason) false] := by
  have hfits := hfit sid lease hcur
  unfold LeaseManager.revoke
  rw [hcur]
  simp only [hstate, if_false, tick]
  rw [visibleOr_of_fits hfits]
  set revoked : ControllerLease := { lease with state := .revoked, updatedAtMs := opts.now m.reads }
  refine ⟨revoked, ⟨rfl, rfl, rfl⟩, rfl, ?_⟩
  have hset := effect_setLease_cancel { m with reads := m.reads + 1 } sid revoked
  have hemit := effect_emit_current (show revoked.sessionId = sid from hfits.sessionId) lease.state .revoked
    (some reason) false hset.current_self
  rw [hset.pending_self] at hemit
  exact (hset.trans hemit).of_tick

theorem revoke_moved (hfit : m.Fit) (sid : String) (reason : LeaseRevocationReason) : Moved m (m.revoke opts sid reason) sid := by
  cases hcur : m.current sid with
  | none =>
    have heq : m.revoke opts sid reason = m := by
      unfold LeaseManager.revoke
      rw [hcur]
    rw [heq]
    exact Moved.refl m sid
  | some lease =>
    by_cases hstate : lease.state = .revoked
    · have heq : m.revoke opts sid reason = m := by
        unfold LeaseManager.revoke
        rw [hcur]
        exact if_pos hstate
      rw [heq]
      exact Moved.refl m sid
    · obtain ⟨lease', hsame, hrev, heffect⟩ := effect_revoke opts hfit hcur hstate reason
      rw [← hrev] at heffect
      exact .shown lease lease' _ none hcur hstate hsame (.inl ⟨hrev, rfl⟩) (.inr rfl) heffect

theorem validateRemoteSubmit_moved (m : LeaseManager) (input : RemoteHolder) (epoch leaseId : String) :
    Moved m (m.validateRemoteSubmit opts input epoch leaseId).2 input.sessionId := by
  unfold validateRemoteSubmit
  split
  · exact Moved.refl m _
  · rename_i lease hcur
    split_ifs with hepoch hrev hloc hmis
    · exact Moved.refl m _
    · exact Moved.refl m _
    · exact Moved.refl m _
    · exact Moved.refl m _
    · rw [not_or] at hrev
      have hset := effect_setLease { m with reads := m.reads + 1 } input.sessionId
        { lease with updatedAtMs := opts.now m.reads }
      exact .refreshed lease lease.heartbeatMisses (opts.now m.reads) _ hcur hrev.1 (.inl rfl)
        (effect_then_scheduleSweep hset).of_tick

theorem heartbeatLease_ok {input : RemoteHolder} {leaseId : String}
    (h : m.heartbeatLease input leaseId = .ok lease) :
    m.current input.sessionId = some lease ∧ lease.leaseId = leaseId ∧ lease.actorId = some input.actorId ∧
      lease.state ≠ .revoked := by
  unfold heartbeatLease at h
  split at h
  · cases h
  · rename_i current hcur
    split_ifs at h with hid hholder hrev
    obtain rfl := Except.ok.inj h
    simp only [not_or, not_not] at hid hholder hrev
    exact ⟨hcur, hid, hholder.1, hrev.1⟩

/-- A client reports heartbeats of a lease only while it is held remotely. -/
theorem heartbeatLease_held (hfit : m.Fit) {input : RemoteHolder} {leaseId : String}
    (h : m.heartbeatLease input leaseId = .ok lease) : lease.state.Held := by
  obtain ⟨hcur, -, hactor, hrev⟩ := heartbeatLease_ok h
  obtain ⟨-, hstate, hlocal⟩ := hfit _ lease hcur
  rcases hstate with hheld | hloc | hrev'
  · exact hheld
  · rw [hlocal hloc] at hactor
    cases hactor
  · exact absurd hrev' hrev

theorem recordHeartbeatAck_moved (hfit : m.Fit) (input : RemoteHolder) (leaseId : String) :
    Moved m (m.recordHeartbeatAck opts input leaseId).2 input.sessionId := by
  unfold recordHeartbeatAck
  split
  · exact Moved.refl m _
  · rename_i lease hok
    obtain ⟨hcur, -, -, hrev⟩ := heartbeatLease_ok hok
    have hheld := heartbeatLease_held hfit hok
    have hsid := (hfit _ lease hcur).sessionId
    dsimp only [tick]
    split
    · set held : ControllerLease :=
        { lease with heartbeatMisses := 0, updatedAtMs := opts.now m.reads, state := .heldRemote }
      have hset := effect_setLease_cancel { m with reads := m.reads + 1 } input.sessionId held
      have hemit := effect_emit_current (show held.sessionId = _ from hsid) lease.state .heldRemote none false
        hset.current_self
      rw [hset.pending_self] at hemit
      exact .shown lease held none none hcur hrev ⟨rfl, rfl, rfl⟩ (.inr ⟨hheld, .inl rfl⟩) (.inr rfl)
        (effect_then_scheduleSweep (hset.trans hemit)).of_tick
    · have hset := effect_setLease_cancel { m with reads := m.reads + 1 } input.sessionId
        { lease with heartbeatMisses := 0, updatedAtMs := opts.now m.reads }
      refine .refreshed lease 0 (opts.now m.reads) none hcur hrev (.inr rfl) ?_
      split
      · exact (effect_then_scheduleSweep hset).of_tick
      · exact hset.of_tick

theorem recordHeartbeatMiss_moved (hfit : m.Fit) (input : RemoteHolder) (leaseId : String) :
    Moved m (m.recordHeartbeatMiss opts input leaseId).2 input.sessionId := by
  unfold recordHeartbeatMiss
  split
  · exact Moved.refl m _
  · rename_i lease hok
    obtain ⟨hcur, -, -, hrev⟩ := heartbeatLease_ok hok
    have hheld := heartbeatLease_held hfit hok
    have hfits := hfit _ lease hcur
    dsimp only [tick]
    set missed : ControllerLease :=
      { lease with heartbeatMisses := lease.heartbeatMisses + 1, updatedAtMs := opts.now m.reads } with hmissed
    split
    · have hemit := effect_setLease_emit (m := { m with reads := m.reads + 1 })
        (show ({ missed with state := .heldUncertain } : ControllerLease).sessionId = _ from hfits.sessionId)
        (visibleOr lease.state .heldRemote) .heldUncertain none false
      rw [visibleOr_of_fits hfits] at hemit ⊢
      exact .shown lease { missed with state := .heldUncertain } none _ hcur hrev ⟨rfl, rfl, rfl⟩
        (.inr ⟨hheld, .inr rfl⟩) (.inl rfl) hemit.of_tick
    · have hset := effect_setLease { m with reads := m.reads + 1 } input.sessionId missed
      have hmoved : Moved m (({ m with reads := m.reads + 1 } : LeaseManager).setLease input.sessionId missed)
          input.sessionId :=
        .refreshed lease _ _ _ hcur hrev (.inl rfl) hset.of_tick
      obtain ⟨lease', hsame, hrev', heffect⟩ := effect_revoke opts (hmoved.fit hfit) hset.current_self hrev
        .heartbeatTimeout
      refine .shown lease lease' (some .heartbeatTimeout) none hcur hrev
        ⟨hsame.leaseId, hsame.sessionId, hsame.actorId⟩ (.inl ⟨hrev', rfl⟩) (.inr rfl) ?_
      rw [hrev']
      exact (hset.trans heffect).of_tick

theorem disconnectOne_moved (opts : LeaseOptions) (hfit : m.Fit) (reason : LeaseRevocationReason) (sid : String) :
    Moved m (m.disconnectOne opts reason sid) sid := by
  unfold disconnectOne
  split
  · rename_i lease hcur
    split_ifs with hstate
    · have hset := effect_setLease m sid { lease with state := .heldUncertain }
      revert hset
      generalize m.setLease sid { lease with state := .heldUncertain } = m₁
      intro hset
      have hemit := effect_emit m₁ sid lease .heldRemote .heldUncertain none false
      rw [publication_eq_event (hfit sid lease hcur).sessionId (by rw [hset.current_self]; rfl)] at hemit
      revert hemit
      generalize m₁.emit lease .heldRemote .heldUncertain none false = m₂
      intro hemit
      set revoked : ControllerLease := { lease with state := .revoked, updatedAtMs := opts.now m₂.reads }
      have hrecord := effect_setRecord { m₂ with reads := m₂.reads + 1 } sid ⟨some revoked, some (revoked, reason)⟩
      exact .disconnected lease revoked reason hcur hstate ⟨rfl, rfl, rfl⟩ rfl
        ((hset.trans hemit).trans hrecord.of_tick)
    · exact Moved.refl m sid
  · exact Moved.refl m sid

theorem sweepOne_moved (opts : LeaseOptions) (hfit : m.Fit) (now : ℕ) (sid : String) : Moved m (m.sweepOne opts now sid) sid := by
  unfold sweepOne
  split
  · rename_i lease hcur
    split_ifs
    · rw [(hfit sid lease hcur).sessionId]
      exact revoke_moved hfit sid .heartbeatTimeout
    · exact Moved.refl m sid
  · exact Moved.refl m sid

def previousState (m : LeaseManager) (sid : String) : ControllerLeaseState :=
  match m.current sid with
  | some lease => lease.state
  | none => .none

structure Created (m m' : LeaseManager) (sid : String) (lease : ControllerLease)
    (timer : Option (ControllerLease × LeaseRevocationReason)) : Prop where
  fits : lease.Fits sid
  effect : Effect m m' sid (some lease) timer [lease.event (m.previousState sid) lease.state none true]

theorem Created.fit {timer : Option (ControllerLease × LeaseRevocationReason)}
    (h : Created m m' sid lease timer) (hfit : m.Fit) : m'.Fit := by
  intro s lease' hcur'
  rw [h.effect.current] at hcur'
  split at hcur'
  · rename_i hs
    cases hcur'
    rw [hs]
    exact h.fits
  · exact hfit s lease' hcur'

/-- The steps that make a remote lease; its session's timer is cancelled and the sweep is
armed. -/
theorem created_remote (hsid : lease.sessionId = sid) (hstate : lease.state = .heldRemote)
    (reads : ℕ) (previous : ControllerLeaseState) (hprevious : m.previousState sid = previous) (m₁ : LeaseManager)
    (hm₁ : m₁ = ((({ m with reads := reads } : LeaseManager).setLease sid lease).cancelPresumedLost sid).scheduleSweep opts) :
    Created m (m₁.emit lease previous .heldRemote none true) sid lease none ∧
      (m₁.emit lease previous .heldRemote none true).sweepTimer.isSome := by
  have hset := effect_setLease_cancel { m with reads := reads } sid lease
  have harmed : m₁.sweepTimer.isSome := by
    rw [hm₁]
    exact scheduleSweep_armed ⟨sid, lease, hset.current_self, hstate⟩
  have hsweep : Effect m m₁ sid (some lease) none [] := by
    rw [hm₁]
    exact (effect_then_scheduleSweep hset).of_tick
  have hemit := effect_emit_current hsid previous .heldRemote none true hsweep.current_self
  rw [hsweep.pending_self] at hemit
  refine ⟨⟨⟨hsid, .inl (.inl hstate), fun hlocal => ?_⟩, ?_⟩, hemit.armed harmed⟩
  · rw [hstate] at hlocal
    cases hlocal
  · rw [hprevious, hstate]
    exact hsweep.trans hemit

/-- A remote client that does not hold the session already takes it only where nobody
holds it. -/
theorem acquireRemote_cases (hfit : m.Fit) (input : RemoteHolder) (epoch : String) (leaseId : Option String)
    (generated : String) : Moved m (m.acquireRemote opts input epoch leaseId generated).2 input.sessionId ∨
      ∃ lease, (m.acquireRemote opts input epoch leaseId generated).1 = .ok lease ∧
        lease.leaseId = leaseId.getD generated ∧ lease.state = .heldRemote ∧ isTerminal (m.previousState input.sessionId) ∧
        Created m (m.acquireRemote opts input epoch leaseId generated).2 input.sessionId lease none ∧
        (m.acquireRemote opts input epoch leaseId generated).2.sweepTimer.isSome := by
  unfold acquireRemote
  dsimp only [tick]
  split
  · rename_i current hcur
    have hfits := hfit _ current hcur
    have hprevious : m.previousState input.sessionId = current.state := by
      unfold previousState
      rw [hcur]
    split_ifs with hterminal hholder
    · left
      have hset := effect_setLease { m with reads := m.reads + 1 } input.sessionId
        { current with updatedAtMs := opts.now m.reads, heartbeatMisses := 0 }
      have hne : current.state ≠ .revoked := by
        rw [hholder.1]
        decide
      exact .refreshed current 0 _ _ hcur hne (.inl rfl) (effect_then_scheduleSweep hset).of_tick
    · exact .inl (Moved.refl m _)
    · right
      rw [visibleOr_of_fits hfits]
      refine ⟨_, rfl, rfl, rfl, ?_, ?_⟩
      · rw [hprevious]
        simpa using hterminal
      · exact created_remote (by rfl) (by rfl) _ _ hprevious _ (by rfl)
  · rename_i hcur
    have hprevious : m.previousState input.sessionId = .none := by
      unfold previousState
      rw [hcur]
    right
    refine ⟨_, rfl, rfl, rfl, ?_, ?_⟩
    · rw [hprevious]
      rfl
    · exact created_remote (by rfl) (by rfl) _ _ hprevious _ (by rfl)

theorem created_local (hsid : lease.sessionId = sid) (hstate : lease.state = .heldLocal)
    (hactor : lease.actorId = none) (reads : ℕ) (previous : ControllerLeaseState) (hprevious : m.previousState sid = previous) :
    Created m ((({ m with reads := reads } : LeaseManager).setLease sid lease).emit lease previous .heldLocal none true)
      sid lease (m.pending sid) := by
  refine ⟨⟨hsid, .inr (.inl hstate), fun _ => hactor⟩, ?_⟩
  rw [hprevious, hstate]
  exact (effect_setLease_emit hsid previous .heldLocal none true).of_tick

theorem acquireLocal_cases (hfit : m.Fit) (sid epoch generated : String) :
    (Moved m (m.acquireLocal opts sid epoch generated) sid ∧
      ∃ lease, (m.acquireLocal opts sid epoch generated).current sid = some lease ∧ lease.state = .heldLocal) ∨
      ∃ m₁ lease, Moved m m₁ sid ∧ lease.leaseId = generated ∧ lease.state = .heldLocal ∧
        (m₁.previousState sid = m.previousState sid ∨ m₁.previousState sid = .revoked) ∧
        (m.previousState sid = .heldRemote → m₁.previousState sid = .revoked) ∧
        (∀ current, m.current sid = some current → ¬ (current.state = .heldLocal ∧ current.sessionEpoch = epoch)) ∧
        Created m₁ (m.acquireLocal opts sid epoch generated) sid lease (m₁.pending sid) := by
  unfold acquireLocal
  split
  · rename_i current hcur
    have hfits := hfit _ current hcur
    have hprevious : m.previousState sid = current.state := by
      unfold previousState
      rw [hcur]
    rw [hprevious]
    split_ifs with hlocal hremote
    · left
      have hset := effect_setLease { m with reads := m.reads + 1 } sid { current with updatedAtMs := opts.now m.reads }
      have hne : current.state ≠ .revoked := by
        rw [hlocal.1]
        decide
      exact ⟨.refreshed current _ _ _ hcur hne (.inl rfl) hset.of_tick, _, hset.current_self, hlocal.1⟩
    · right
      have hne : current.state ≠ .revoked := by
        rw [hremote]
        decide
      obtain ⟨lease', hsame, hrev, heffect⟩ := effect_revoke opts hfit hcur hne .ownerOverride
      have hprevious' : (m.revoke opts sid .ownerOverride).previousState sid = .revoked := by
        unfold previousState
        rw [heffect.current_self]
        exact hrev
      refine ⟨m.revoke opts sid .ownerOverride, _, revoke_moved hfit sid _, rfl, rfl, .inr hprevious',
        fun _ => hprevious', ?_, created_local (by rfl) (by rfl) (by rfl) _ _ hprevious'⟩
      intro current' hcur'
      rwa [← Option.some.inj (hcur.symm.trans hcur')]
    · right
      rw [visibleOr_of_fits hfits]
      refine ⟨m, _, Moved.refl m sid, rfl, rfl, .inl hprevious, fun h => absurd h hremote, ?_,
        created_local (by rfl) (by rfl) (by rfl) _ _ hprevious⟩
      intro current' hcur'
      rwa [← Option.some.inj (hcur.symm.trans hcur')]
  · rename_i hcur
    have hprevious : m.previousState sid = .none := by
      unfold previousState
      rw [hcur]
    rw [hprevious]
    right
    refine ⟨m, _, Moved.refl m sid, rfl, rfl, .inl hprevious, ?_, ?_,
      created_local (by rfl) (by rfl) (by rfl) _ _ hprevious⟩
    · intro h
      cases h
    · intro current' hcur'
      rw [hcur] at hcur'
      cases hcur'

end LeaseManager

end Kookr.Remote
