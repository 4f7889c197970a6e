import Kookr.Lib.History
import Kookr.Proofs.Remote.LeaseExclusion

/-! The published lease events of a lease form a chain: each starts in the state that the
one before it ended in. Where the chain can break is said by `Chained`: a timer that has
captured a lease its session no longer has, a reconnect that takes every revoked lease for
presumed lost, and an owner who takes a session over without ending the lease of it. -/

namespace Kookr.Remote

open Kookr.Lib List

/-- The state last published for a lease. -/
def lastState (leaseId : String) (log : List Publication) : Option ControllerLeaseState :=
  lastOf (fun p => if p.payload.leaseId = leaseId then some p.payload.newState else none) log

/-- The event is about its session's current lease, and starts where the lease stood. -/
def Publication.Follows (before : List Publication) (p : Publication) : Prop :=
  p.current = some p.payload.leaseId ∧
    if p.first then p.payload.previousState = .none ∨ p.payload.previousState = .revoked
    else lastState p.payload.leaseId before = some p.payload.previousState

theorem lastState_concat_self (log : List Publication) (p : Publication) :
    lastState p.payload.leaseId (log ++ [p]) = some p.payload.newState := by
  unfold lastState
  rw [lastOf_concat, if_pos rfl]
  rfl

theorem lastState_append_of_ne {leaseId : String} {log pubs : List Publication}
    (h : ∀ p ∈ pubs, p.payload.leaseId ≠ leaseId) : lastState leaseId (log ++ pubs) = lastState leaseId log := by
  induction pubs generalizing log with
  | nil => rw [append_nil]
  | cons p pubs ih =>
    rw [← singleton_append, ← append_assoc, ih fun q hq => h q (mem_cons_of_mem p hq)]
    unfold lastState
    rw [lastOf_concat, if_neg (h p mem_cons_self)]
    rfl

namespace LeaseManager

variable {opts : LeaseOptions} {m m' : LeaseManager} {sid : String} {timer : Option (ControllerLease × LeaseRevocationReason)}
  {lease : ControllerLease}

/-- No other session has a lease with the identifier. -/
def Unshared (m : LeaseManager) (sid leaseId : String) : Prop :=
  ∀ lease ∈ m.leases, lease.leaseId = leaseId → lease.sessionId = sid

instance (m : LeaseManager) (sid leaseId : String) : Decidable (m.Unshared sid leaseId) :=
  inferInstanceAs (Decidable (∀ lease ∈ m.leases, _))

/-- What keeps the chain of events. -/
def Chained (m : LeaseManager) : LeaseEvent → Prop
  | .acquireRemote input _ leaseId generated => m.Unshared input.sessionId (leaseId.getD generated)
  | .acquireLocal sessionId epoch generated =>
    m.Unshared sessionId generated ∧
      ∀ lease ∈ m.current sessionId, lease.state ≠ .heldUncertain ∧
        (lease.state = .heldLocal → lease.sessionEpoch = epoch)
  | .handleRelayReconnect =>
    ∀ lease ∈ m.leases, lease.state = .revoked → lastState lease.leaseId m.published = some .heldPresumedLost
  | .presumedLostFires sessionId =>
    ∀ captured ∈ m.pending sessionId, m.current sessionId = some captured.1
  | _ => True

instance Chained.decidable (m : LeaseManager) : (e : LeaseEvent) → Decidable (m.Chained e)
  | .acquireRemote input _ leaseId generated =>
    inferInstanceAs (Decidable (m.Unshared input.sessionId (leaseId.getD generated)))
  | .acquireLocal .. => inferInstanceAs (Decidable (_ ∧ _))
  | .handleRelayReconnect => inferInstanceAs (Decidable (∀ lease ∈ m.leases, _))
  | .presumedLostFires sessionId => inferInstanceAs (Decidable (∀ captured ∈ m.pending sessionId, _))
  | .validateRemoteSubmit .. | .recordHeartbeatAck .. | .recordHeartbeatMiss .. | .revoke ..
  | .handleRelayDisconnect .. | .sweepFires | .dispose => isTrue trivial

structure Coherent (m : LeaseManager) : Prop where
  fit : m.Fit
  distinct : ∀ s s' lease lease', m.current s = some lease → m.current s' = some lease' →
    lease'.leaseId = lease.leaseId → s' = s
  shown : ∀ s lease, m.current s = some lease → lease.state ≠ .revoked →
    lastState lease.leaseId m.published = some lease.state
  pending : ∀ s lease reason, m.pending s = some (lease, reason) →
    lease.state = .revoked ∧
      (m.current s = some lease → lastState lease.leaseId m.published = some .heldUncertain)
  events : Along Publication.Follows m.published

theorem coherent_initial : initial.Coherent := by
  refine ⟨initial_fit, ?_, ?_, ?_, along_nil⟩
  · intro s s' lease lease' h
    cases h
  · intro s lease h
    cases h
  · intro s lease reason h
    cases h

section

variable (h : m.Coherent)
include h

theorem Coherent.kept (hcurrent : ∀ s, m'.current s = m.current s)
    (hpending : ∀ s, m'.pending s = m.pending s ∨ m'.pending s = none) (hpublished : m'.published = m.published) :
    m'.Coherent := by
  refine ⟨?_, ?_, ?_, ?_, ?_⟩
  · intro s lease hcur
    rw [hcurrent] at hcur
    exact h.fit s lease hcur
  · intro s s' lease lease' hcur hcur'
    rw [hcurrent] at hcur hcur'
    exact h.distinct s s' lease lease' hcur hcur'
  · intro s lease hcur hstate
    rw [hcurrent] at hcur
    rw [hpublished]
    exact h.shown s lease hcur hstate
  · intro s lease reason hpend
    rw [hcurrent, hpublished]
    rcases hpending s with heq | hnone
    · exact h.pending s lease reason (heq.symm.trans hpend)
    · rw [hnone] at hpend
      cases hpend
  · rw [hpublished]
    exact h.events

theorem Coherent.effect_kept
    (htimer : timer = m.pending sid ∨ timer = none) (heffect : Effect m m' sid (m.current sid) timer []) : m'.Coherent := by
  refine h.kept ?_ ?_ ?_
  · intro s
    rw [heffect.current]
    split
    · rename_i hs
      rw [hs]
    · rfl
  · intro s
    rw [heffect.pending]
    split
    · rename_i hs
      rw [hs]
      exact htimer
    · exact .inl rfl
  · rw [heffect.published, append_nil]

/-- A change of one session whose events, if any, are about the lease it has afterwards. -/
theorem Coherent.update {pubs : List Publication} (heffect : Effect m m' sid (some lease) timer pubs) (hfit : m'.Fit)
    (hunshared : ∀ s lease', m.current s = some lease' → lease'.leaseId = lease.leaseId → s = sid)
    (hpubs : ∀ p ∈ pubs, p.payload.leaseId = lease.leaseId)
    (hshown : lease.state ≠ .revoked → lastState lease.leaseId m'.published = some lease.state)
    (htimer : ∀ captured reason, timer = some (captured, reason) → captured.state = .revoked ∧
      (captured = lease → lastState lease.leaseId m'.published = some .heldUncertain))
    (hevents : Along Publication.Follows m'.published) : m'.Coherent := by
  -- the events leave the state last published for every other lease
  have hother : ∀ s lease', s ≠ sid → m.current s = some lease' →
      lastState lease'.leaseId m'.published = lastState lease'.leaseId m.published := by
    intro s lease' hs hcur
    rw [heffect.published]
    apply lastState_append_of_ne
    intro p hp hid
    exact hs (hunshared s lease' hcur (hid.symm.trans (hpubs p hp)))
  refine ⟨hfit, ?_, ?_, ?_, hevents⟩
  · intro s s' lease₁ lease₂ hcur₁ hcur₂ hid
    rw [heffect.current] at hcur₁ hcur₂
    split at hcur₁ <;> split at hcur₂
    · rename_i hs hs'
      rw [hs, hs']
    · rename_i hs hs'
      cases hcur₁
      rw [hs]
      exact hunshared s' lease₂ hcur₂ hid
    · rename_i hs hs'
      cases hcur₂
      rw [hs']
      exact (hunshared s lease₁ hcur₁ hid.symm).symm
    · exact h.distinct s s' lease₁ lease₂ hcur₁ hcur₂ hid
  · intro s lease' hcur hstate
    rw [heffect.current] at hcur
    split at hcur
    · cases hcur
      exact hshown hstate
    · rename_i hs
      rw [hother s lease' hs hcur]
      exact h.shown s lease' hcur hstate
  · intro s captured reason hpend
    rw [heffect.pending] at hpend
    rw [heffect.current]
    split at hpend
    · rename_i hs
      obtain ⟨hrev, hlast⟩ := htimer captured reason hpend
      rw [if_pos hs]
      refine ⟨hrev, fun hcur => ?_⟩
      cases hcur
      exact hlast rfl
    · rename_i hs
      obtain ⟨hrev, hlast⟩ := h.pending s captured reason hpend
      rw [if_neg hs]
      refine ⟨hrev, fun hcur => ?_⟩
      rw [hother s captured hs hcur]
      exact hlast hcur

theorem Coherent.unshared_of_same {lease lease' : ControllerLease} (hcur : m.current sid = some lease)
    (hsame : lease.Same lease') : ∀ s lease₁, m.current s = some lease₁ → lease₁.leaseId = lease'.leaseId → s = sid :=
  fun s lease₁ hcur₁ hid => h.distinct sid s lease lease₁ hcur hcur₁ (hid.trans hsame.leaseId)

theorem Coherent.follows {lease lease' : ControllerLease} (hcur : m.current sid = some lease)
    (hstate : lease.state ≠ .revoked) (hsame : lease.Same lease') (next : ControllerLeaseState)
    (reason : Option LeaseRevocationReason) : Publication.Follows m.published (lease'.event lease.state next reason false) := by
  refine ⟨rfl, ?_⟩
  have hlast := h.shown sid lease hcur hstate
  rwa [← hsame.leaseId] at hlast

theorem Coherent.moved (hmoved : Moved m m' sid) : m'.Coherent := by
  have hfit := hmoved.fit h.fit
  cases hmoved with
  | kept timer htimer heffect => exact h.effect_kept htimer heffect
  | refreshed lease misses now timer hcur hstate htimer heffect =>
    have hpublished : m'.published = m.published := by rw [heffect.published, append_nil]
    refine h.update heffect hfit (h.unshared_of_same hcur ⟨rfl, rfl, rfl⟩) ?_ ?_ ?_ ?_
    · intro p hp
      cases hp
    · intro hstate
      rw [hpublished]
      exact h.shown sid lease hcur hstate
    · intro captured reason htimer'
      rcases htimer with heq | hnone
      · obtain ⟨hrev, -⟩ := h.pending sid captured reason (heq ▸ htimer')
        refine ⟨hrev, fun heq => ?_⟩
        rw [heq] at hrev
        exact absurd hrev hstate
      · rw [hnone] at htimer'
        cases htimer'
    · rw [hpublished]
      exact h.events
  | shown lease lease' reason timer hcur hstate hsame hnext htimer heffect =>
    refine h.update heffect hfit (h.unshared_of_same hcur hsame) ?_ ?_ ?_ ?_
    · intro p hp
      rw [mem_singleton.1 hp]
      rfl
    · intro _
      rw [heffect.published]
      exact lastState_concat_self _ (lease'.event lease.state lease'.state reason false)
    · intro captured reason' htimer'
      rcases htimer with heq | hnone
      · obtain ⟨hrev, -⟩ := h.pending sid captured reason' (heq ▸ htimer')
        refine ⟨hrev, fun heq => ?_⟩
        rw [heq] at hrev
        rcases hnext with ⟨-, hnone⟩ | ⟨-, hheld⟩
        · rw [hnone] at htimer'
          cases htimer'
        · rw [hrev] at hheld
          exact absurd hheld (by decide)
      · rw [hnone] at htimer'
        cases htimer'
    · rw [heffect.published]
      exact h.events.concat (h.follows hcur hstate hsame _ reason)
  | disconnected lease lease' reason hcur hstate hsame hnext heffect =>
    have hlast : lastState lease'.leaseId m'.published = some .heldUncertain := by
      rw [heffect.published, hsame.leaseId]
      exact lastState_concat_self _ (lease.event .heldRemote .heldUncertain none false)
    refine h.update heffect hfit (h.unshared_of_same hcur hsame) ?_ ?_ ?_ ?_
    · intro p hp
      rw [mem_singleton.1 hp]
      exact hsame.leaseId.symm
    · intro hne
      exact absurd hnext hne
    · intro captured reason' htimer
      obtain ⟨rfl, -⟩ := Prod.mk.inj (Option.some.inj htimer)
      exact ⟨hnext, fun _ => hlast⟩
    · rw [heffect.published]
      apply h.events.concat
      have hne : lease.state ≠ .revoked := by
        rw [hstate]
        decide
      have hfollows := h.follows hcur hne ⟨rfl, rfl, rfl⟩ .heldUncertain none
      rwa [hstate] at hfollows

omit h in
theorem Unshared.session (hfit : m.Fit) {leaseId : String} (h : m.Unshared sid leaseId) {s : String}
    (hcur : m.current s = some lease) (hid : lease.leaseId = leaseId) : s = sid := by
  rw [← (hfit s lease hcur).sessionId]
  exact h lease (mem_leases.2 ⟨s, hcur⟩) hid

theorem Coherent.created (hnew : Created m m' sid lease timer)
    (hunshared : ∀ s lease', m.current s = some lease' → lease'.leaseId = lease.leaseId → s = sid)
    (hprevious : m.previousState sid = .none ∨ m.previousState sid = .revoked) (hstate : lease.state ≠ .revoked)
    (htimer : timer = m.pending sid ∨ timer = none) : m'.Coherent := by
  refine h.update hnew.effect (hnew.fit h.fit) hunshared ?_ ?_ ?_ ?_
  · intro p hp
    rw [mem_singleton.1 hp]
    rfl
  · intro _
    rw [hnew.effect.published]
    exact lastState_concat_self _ (lease.event _ lease.state none true)
  · intro captured reason htimer'
    rcases htimer with heq | hnone
    · obtain ⟨hrev, -⟩ := h.pending sid captured reason (heq ▸ htimer')
      refine ⟨hrev, fun heq => ?_⟩
      rw [heq] at hrev
      exact absurd hrev hstate
    · rw [hnone] at htimer'
      cases htimer'
  · rw [hnew.effect.published]
    exact h.events.concat ⟨rfl, hprevious⟩

theorem Coherent.told (hcur : m.current sid = some lease)
    (hrev : lease.state = .revoked) {previous next : ControllerLeaseState} {reason : Option LeaseRevocationReason}
    (hlast : lastState lease.leaseId m.published = some previous)
    (heffect : Effect m m' sid (some lease) none [lease.event previous next reason false]) : m'.Coherent := by
  rw [← hcur] at heffect
  have hfit := heffect.tame.fit h.fit
  rw [hcur] at heffect
  refine h.update heffect hfit (h.unshared_of_same hcur ⟨rfl, rfl, rfl⟩) ?_ ?_ ?_ ?_
  · intro p hp
    rw [mem_singleton.1 hp]
    rfl
  · intro hne
    exact absurd hrev hne
  · intro captured reason' htimer
    cases htimer
  · rw [heffect.published]
    exact h.events.concat ⟨rfl, hlast⟩

omit h in
theorem Coherent.foldl {f : LeaseManager → String → LeaseManager}
    (hf : ∀ m k, m.Coherent → (f m k).Coherent) (keys : List String) (h : m.Coherent) : (keys.foldl f m).Coherent := by
  induction keys generalizing m with
  | nil => exact h
  | cons k keys ih => exact ih (hf m k h)

omit h in
/-- The reconnect loop: the sessions still to come are untouched by the events of those
before them. -/
theorem Coherent.reconnect {keys : List String} (hnodup : keys.Nodup) (h : m.Coherent)
    (hlost : ∀ s ∈ keys, ∀ lease, m.current s = some lease → lease.state = .revoked →
      lastState lease.leaseId m.published = some .heldPresumedLost) : (keys.foldl reconnectOne m).Coherent := by
  induction keys generalizing m with
  | nil => exact h
  | cons k keys ih =>
    rw [nodup_cons] at hnodup
    rw [foldl_cons]
    have hrest : ∀ s ∈ keys, s ≠ k := fun s hs heq => hnodup.1 (heq ▸ hs)
    rcases reconnectOne_cases h.fit k with heffect | ⟨told, hcur, hrev, heffect⟩
    · refine ih hnodup.2 (h.effect_kept (.inl rfl) heffect) fun s hs lease hcur hrev => ?_
      rw [heffect.current, if_neg (hrest s hs)] at hcur
      rw [heffect.published, append_nil]
      exact hlost s (mem_cons_of_mem k hs) lease hcur hrev
    · refine ih hnodup.2 (h.told hcur hrev (hlost k mem_cons_self told hcur hrev) heffect)
        fun s hs lease hcur' hrev' => ?_
      rw [heffect.current, if_neg (hrest s hs)] at hcur'
      rw [heffect.published, lastState_append_of_ne]
      · exact hlost s (mem_cons_of_mem k hs) lease hcur' hrev'
      · intro p hp hid
        rw [mem_singleton.1 hp] at hid
        exact hrest s hs (h.distinct k s told lease hcur hcur' hid.symm)

theorem acquireRemote_coherent (input : RemoteHolder) (epoch : String) (leaseId : Option String)
    (generated : String) (hchained : m.Chained (.acquireRemote input epoch leaseId generated)) :
    (m.acquireRemote opts input epoch leaseId generated).2.Coherent := by
  rcases acquireRemote_cases h.fit input epoch leaseId generated with
    hmoved | ⟨lease, -, hid, hstate, hterminal, hnew, -⟩
  · exact h.moved hmoved
  · refine h.created hnew ?_ ?_ ?_ (.inr rfl)
    · intro s lease' hcur' hid'
      exact Unshared.session h.fit hchained hcur' (hid'.trans hid)
    · simpa [isTerminal] using hterminal
    · rw [hstate]
      decide

theorem acquireLocal_coherent (sid epoch generated : String)
    (hchained : m.Chained (.acquireLocal sid epoch generated)) : (m.acquireLocal opts sid epoch generated).Coherent := by
  rcases acquireLocal_cases h.fit sid epoch generated with
    ⟨hmoved, -⟩ | ⟨m₁, lease, hmoved, hid, hstate, hprevious, hremote, hnot, hnew⟩
  · exact h.moved hmoved
  · refine (h.moved hmoved).created hnew ?_ ?_ ?_ (.inl rfl)
    · intro s lease' hcur' hid'
      obtain ⟨lease₀, hcur₀, hsame, -⟩ := hmoved.current_cases hcur'
      exact Unshared.session h.fit hchained.1 hcur₀ (hsame.leaseId.symm.trans (hid'.trans hid))
    · rcases hprevious with heq | hrev
      · rw [heq] at hremote ⊢
        unfold previousState at hremote ⊢
        cases hcur : m.current sid with
        | none => exact .inl rfl
        | some current =>
          rw [hcur] at hremote
          obtain ⟨huncertain, hlocal⟩ := hchained.2 current hcur
          rcases (h.fit sid current hcur).state with (hheld | hheld) | hloc | hrev
          · exact .inr (hremote hheld)
          · exact absurd hheld huncertain
          · exact absurd ⟨hloc, hlocal hloc⟩ (hnot current hcur)
          · exact .inr hrev
      · exact .inr hrev
    · rw [hstate]
      decide

theorem step_coherent {e : LeaseEvent} (hchained : m.Chained e) (hstep : m.step opts e = some m') : m'.Coherent := by
  cases e with
  | acquireRemote input epoch leaseId generated =>
    cases hstep
    exact acquireRemote_coherent h input epoch leaseId generated hchained
  | acquireLocal sid epoch generated =>
    cases hstep
    exact acquireLocal_coherent h sid epoch generated hchained
  | validateRemoteSubmit input epoch leaseId =>
    cases hstep
    exact h.moved (validateRemoteSubmit_moved m input epoch leaseId)
  | recordHeartbeatAck input leaseId =>
    cases hstep
    exact h.moved (recordHeartbeatAck_moved h.fit input leaseId)
  | recordHeartbeatMiss input leaseId =>
    cases hstep
    exact h.moved (recordHeartbeatMiss_moved h.fit input leaseId)
  | revoke sid reason =>
    cases hstep
    exact h.moved (revoke_moved h.fit sid reason)
  | handleRelayDisconnect reason =>
    cases hstep
    exact Coherent.foldl (fun m k h => h.moved (disconnectOne_moved opts h.fit reason k)) _ h
  | handleRelayReconnect =>
    cases hstep
    refine Coherent.reconnect m.sessions.nodup_keys h fun s _ lease hcur hrev => ?_
    exact hchained lease (mem_leases.2 ⟨s, hcur⟩) hrev
  | sweepFires =>
    simp only [step] at hstep
    split at hstep
    · cases hstep
      have h₀ : ({ m with sweepTimer := none, reads := m.reads + 1 } : LeaseManager).Coherent :=
        h.kept (fun _ => rfl) (fun _ => .inl rfl) rfl
      have hfold := Coherent.foldl (fun m' k h => h.moved (sweepOne_moved opts h.fit (opts.now m.reads) k))
        m.sessions.keys h₀
      exact hfold.effect_kept (.inl rfl) (effect_scheduleSweep opts _ "")
    · cases hstep
  | presumedLostFires sid =>
    obtain ⟨lease, reason, hpending, heffect⟩ := firePresumedLost_effect hstep
    have hcur : m.current sid = some lease := hchained (lease, reason) hpending
    obtain ⟨hrev, hlast⟩ := h.pending sid lease reason hpending
    rw [hcur, publication_eq_event (h.fit sid lease hcur).sessionId (by rw [hcur]; rfl)] at heffect
    exact h.told hcur hrev (hlast hcur) heffect
  | dispose =>
    cases hstep
    have h₀ : ({ m with sweepTimer := none } : LeaseManager).Coherent :=
      h.kept (fun _ => rfl) (fun _ => .inl rfl) rfl
    exact Coherent.foldl (fun m k h => h.effect_kept (.inr rfl) (effect_cancelPresumedLost m k)) _ h₀

end

end LeaseManager

end Kookr.Remote
