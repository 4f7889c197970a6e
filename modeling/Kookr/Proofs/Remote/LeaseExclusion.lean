import Kookr.Lib.Exec
import Kookr.Sanity.Remote.LeaseSteps
import Mathlib.Order.Monotone.Basic

/-! No remote client that went silent keeps a session. The sweep looks at held leases only
in the state `heldRemote`: one that became uncertain by a missed heartbeat is neither
revoked by it nor a reason to arm it again. -/

namespace Kookr.Remote

open Kookr.Lib Option

namespace LeaseManager

variable {opts : LeaseOptions} {m m' : LeaseManager} {lease : ControllerLease}

/-- The time after which a lease that was not heard of is to be given up. -/
def staleAt (opts : LeaseOptions) (lease : ControllerLease) : ℕ := lease.updatedAtMs + opts.presumedLostDelayMs

/-- Wherever a remote client holds a session the sweep is armed. -/
def Watched (m : LeaseManager) : Prop :=
  ∀ sid lease, m.current sid = some lease → lease.state.Held → m.sweepTimer.isSome

def leases (m : LeaseManager) : List ControllerLease := m.sessions.values.filterMap SessionLeaseRecord.lease

theorem mem_leases : lease ∈ m.leases ↔ ∃ sid, m.current sid = some lease := by
  unfold leases LeaseManager.current
  simp only [List.mem_filterMap, OrderedMap.mem_values_iff, bind_eq_some_iff]
  constructor
  · intro ⟨record, ⟨sid, hget⟩, hlease⟩
    exact ⟨sid, record, hget, hlease⟩
  · intro ⟨sid, record, hget, hlease⟩
    exact ⟨record, ⟨sid, hget⟩, hlease⟩

/-- When the sweep runs, no uncertain lease is stale, and an uncertain lease has a remote
one beside it that is not stale either. -/
def SweepSees (opts : LeaseOptions) (m : LeaseManager) : LeaseEvent → Prop
  | .sweepFires =>
    (∀ lease ∈ m.leases, lease.state = .heldUncertain → opts.now m.reads < staleAt opts lease) ∧
    ((∃ lease ∈ m.leases, lease.state = .heldUncertain) →
      ∃ lease ∈ m.leases, lease.state = .heldRemote ∧ opts.now m.reads < staleAt opts lease)
  | _ => True

instance SweepSees.decidable (opts : LeaseOptions) (m : LeaseManager) : (e : LeaseEvent) → Decidable (SweepSees opts m e)
  | .sweepFires => inferInstanceAs (Decidable (_ ∧ _))
  | .acquireRemote .. | .acquireLocal .. | .validateRemoteSubmit .. | .recordHeartbeatAck .. | .recordHeartbeatMiss ..
  | .revoke .. | .handleRelayDisconnect .. | .handleRelayReconnect | .presumedLostFires .. | .dispose => isTrue trivial

variable {sid : String}

theorem sweepOne_eq_revoke (hfit : m.Fit) {now : ℕ}
    (hcur : m.current sid = some lease) (hstate : lease.state = .heldRemote) (hstale : staleAt opts lease ≤ now) :
    m.sweepOne opts now sid = m.revoke opts sid .heartbeatTimeout := by
  unfold sweepOne
  rw [hcur]
  dsimp only
  rw [if_pos ⟨hstate, hstale⟩, (hfit sid lease hcur).sessionId]

theorem sweepOne_eq_self {now : ℕ}
    (hcur : m.current sid = some lease) (h : ¬ (lease.state = .heldRemote ∧ staleAt opts lease ≤ now)) :
    m.sweepOne opts now sid = m := by
  unfold sweepOne
  rw [hcur]
  exact if_neg h

theorem sweep_current (opts : LeaseOptions) (m : LeaseManager) (s : String) : (m.sweepStaleRemoteLeases opts).current s =
      (m.sessions.keys.foldl (sweepOne opts (opts.now m.reads))
        { m with sweepTimer := none, reads := m.reads + 1 }).current s := by
  obtain ⟨reads, timer, heq, -⟩ := scheduleSweep_eq opts (m.sessions.keys.foldl (sweepOne opts (opts.now m.reads))
    { m with sweepTimer := none, reads := m.reads + 1 })
  have hsweep : m.sweepStaleRemoteLeases opts = _ := heq
  rw [hsweep]
  rfl

/-- The loop of the sweep comes to each session once, with its lease as it was. -/
theorem sweep_current_at (opts : LeaseOptions) (hfit : m.Fit) (hcur : m.current sid = some lease) :
    ∃ m₁ : LeaseManager, m₁.Fit ∧ m₁.current sid = some lease ∧
      (m.sweepStaleRemoteLeases opts).current sid = (m₁.sweepOne opts (opts.now m.reads) sid).current sid := by
  have hfit₀ : ({ m with sweepTimer := none, reads := m.reads + 1 } : LeaseManager).Fit := hfit
  obtain ⟨m₁, hfit₁, hcur₁, hfold⟩ := foldl_current_at
    (fun m' k s hfit hs => (sweepOne_moved opts hfit (opts.now m.reads) k).current_of_ne hs)
    (fun m' k hfit => (sweepOne_moved opts hfit (opts.now m.reads) k).fit hfit)
    m.sessions.nodup_keys (mem_keys_of_current hcur) hfit₀
  refine ⟨m₁, hfit₁, hcur₁.trans hcur, ?_⟩
  rw [sweep_current]
  exact hfold

theorem sweep_revokes (hfit : m.Fit) (hcur : m.current sid = some lease)
    (hstate : lease.state = .heldRemote) (hstale : staleAt opts lease ≤ opts.now m.reads) :
    ∃ lease', (m.sweepStaleRemoteLeases opts).current sid = some lease' ∧ lease'.leaseId = lease.leaseId ∧
      lease'.state = .revoked := by
  obtain ⟨m₁, hfit₁, hcur₁, hsweep⟩ := sweep_current_at opts hfit hcur
  rw [sweepOne_eq_revoke hfit₁ hcur₁ hstate hstale] at hsweep
  have hne : lease.state ≠ .revoked := by
    rw [hstate]
    decide
  obtain ⟨lease', hsame, hrev, heffect⟩ := effect_revoke opts hfit₁ hcur₁ hne .heartbeatTimeout
  exact ⟨lease', hsweep.trans heffect.current_self, hsame.leaseId, hrev⟩

theorem sweep_keeps (hfit : m.Fit) (hcur : m.current sid = some lease)
    (h : ¬ (lease.state = .heldRemote ∧ staleAt opts lease ≤ opts.now m.reads)) :
    (m.sweepStaleRemoteLeases opts).current sid = some lease := by
  obtain ⟨m₁, -, hcur₁, hsweep⟩ := sweep_current_at opts hfit hcur
  rw [sweepOne_eq_self hcur₁ h] at hsweep
  exact hsweep.trans hcur₁

theorem sweep_armed (h : (m.sweepStaleRemoteLeases opts).HeldRemotely) : (m.sweepStaleRemoteLeases opts).sweepTimer.isSome := by
  obtain ⟨sid, lease, hcur, hstate⟩ := h
  rw [sweep_current] at hcur
  exact scheduleSweep_armed ⟨sid, lease, hcur, hstate⟩

theorem sweep_watched (hfit : m.Fit) (hsees : SweepSees opts m .sweepFires) : (m.sweepStaleRemoteLeases opts).Watched := by
  intro sid lease' hcur' hheld'
  apply sweep_armed
  -- the lease was there before, and is the same unless the sweep has revoked it
  obtain ⟨lease, hcur, -, -⟩ := (sweepStaleRemoteLeases_tame opts hfit).held sid lease' hcur' hheld'
  have hkeep : (m.sweepStaleRemoteLeases opts).current sid = some lease := by
    apply sweep_keeps hfit hcur
    intro hstale
    obtain ⟨revoked, hcur'', -, hrev⟩ := sweep_revokes hfit hcur hstale.1 hstale.2
    rw [hcur'] at hcur''
    obtain rfl := some.inj hcur''
    rw [hrev] at hheld'
    exact absurd hheld' (by decide)
  rw [hcur'] at hkeep
  obtain rfl := some.inj hkeep
  rcases hheld' with hremote | huncertain
  · exact ⟨sid, lease', hcur', hremote⟩
  · obtain ⟨lease, hmem, hstate, hfresh⟩ := hsees.2 ⟨lease', mem_leases.2 ⟨sid, hcur⟩, huncertain⟩
    obtain ⟨other, hcur⟩ := mem_leases.1 hmem
    refine ⟨other, lease, sweep_keeps hfit hcur fun h => ?_, hstate⟩
    exact absurd h.2 (Nat.not_le.2 hfresh)

theorem acquireRemote_of_revoked {input : RemoteHolder}
    (hcur : m.current input.sessionId = some lease) (hrev : lease.state = .revoked) (epoch : String)
    (leaseId : Option String) (generated : String) : ∃ new, (m.acquireRemote opts input epoch leaseId generated).1 = .ok new := by
  unfold acquireRemote
  rw [hcur]
  simp only [hrev]
  exact ⟨_, rfl⟩

/-- The sweep, if it runs now, revokes every lease that is stale, and so frees its session. -/
def SweepFrees (opts : LeaseOptions) (m : LeaseManager) : Prop :=
  ∀ m', m.step opts .sweepFires = some m' → ∀ sid lease, m.current sid = some lease → lease.state.Held →
    staleAt opts lease ≤ opts.now m.reads →
    ∃ lease', m'.current sid = some lease' ∧ lease'.leaseId = lease.leaseId ∧ lease'.state = .revoked ∧
      ∀ actorId clientId epoch leaseId generated, ∃ new,
        (m'.acquireRemote opts ⟨sid, actorId, clientId⟩ epoch leaseId generated).1 = .ok new

theorem sweep_frees (hfit : m.Fit) (hsees : SweepSees opts m .sweepFires) : SweepFrees opts m := by
  intro m' hstep sid lease hcur hheld hstale
  simp only [step] at hstep
  split at hstep
  · obtain rfl := some.inj hstep
    rcases hheld with hremote | huncertain
    · obtain ⟨lease', hcur', hid, hrev⟩ := sweep_revokes hfit hcur hremote hstale
      exact ⟨lease', hcur', hid, hrev, fun _ _ => acquireRemote_of_revoked hcur' hrev⟩
    · exact absurd hstale (Nat.not_le.2 (hsees.1 lease (mem_leases.2 ⟨sid, hcur⟩) huncertain))
  · cases hstep

theorem step_watched (hfit : m.Fit) (hwatched : m.Watched) {e : LeaseEvent} (hsees : SweepSees opts m e)
    (hlive : e ≠ .dispose) (hstep : m.step opts e = some m') : m'.Watched := by
  by_cases hsweep : e = .sweepFires
  · subst hsweep
    simp only [step] at hstep
    split at hstep
    · obtain rfl := some.inj hstep
      exact sweep_watched hfit hsees
    · cases hstep
  · rcases step_cases hfit hstep with ⟨m₀, -, hm₀, htame⟩ | ⟨_, _, _, _, _, -, -, -, harmed⟩
    · obtain rfl := hm₀ hsweep hlive
      intro sid lease' hcur' hheld'
      obtain ⟨lease, hcur, hheld, -⟩ := htame.held sid lease' hcur' hheld'
      exact htame.armed (hwatched sid lease hcur hheld)
    · exact fun _ _ _ _ => harmed

/-- As long as every sweep sees the uncertain leases, no session is held unwatched, and
every sweep frees the sessions of stale leases. -/
theorem lease_not_stranded (opts : LeaseOptions) (es : List LeaseEvent) (m : LeaseManager)
    (hlive : LeaseEvent.dispose ∉ es) (hsees : StepsMeet (step opts) (SweepSees opts) initial es)
    (hrun : exec (step opts) initial es = some m) : m.Watched ∧ (SweepSees opts m .sweepFires → SweepFrees opts m) := by
  have hpreserved : ∀ m e m', (m.Fit ∧ m.Watched) → (SweepSees opts m e ∧ e ≠ .dispose) → m.step opts e = some m' →
      m'.Fit ∧ m'.Watched := by
    intro m e m' hinv hok hstep
    exact ⟨step_fit hinv.1 hstep, step_watched hinv.1 hinv.2 hok.1 hok.2 hstep⟩
  have hinitial : initial.Watched := by
    intro sid lease hcur
    cases hcur
  have hok := hsees.and_forall (p := fun e => e ≠ .dispose) fun e he hd => hlive (hd ▸ he)
  obtain ⟨hfit, hwatched⟩ := exec_invariant hpreserved ⟨initial_fit, hinitial⟩ hok hrun
  exact ⟨hwatched, sweep_frees hfit⟩

/-- A clock that advances by the same amount with every reading. -/
def pacedOptions (ms : ℕ) : LeaseOptions := ⟨15000, 5000, fun n => ms * n⟩

def alice : RemoteHolder := ⟨"atelier", "alice", "laptop"⟩

def bob : RemoteHolder := ⟨"bench", "bob", "phone"⟩

/-- The lease of `alice` is uncertain when the sweep runs, and that of `bob` keeps it armed. -/
theorem sweep_beside_uncertain_lease : ∃ m, exec (step (pacedOptions 1000)) initial
      [.acquireRemote alice "e1" none "l1", .acquireRemote bob "e1" none "l2", .recordHeartbeatMiss alice "l1",
        .sweepFires] = some m ∧ m.Watched ∧ SweepFrees (pacedOptions 1000) m := by
  refine ⟨_, rfl, ?_⟩
  have h := lease_not_stranded (pacedOptions 1000)
    [.acquireRemote alice "e1" none "l1", .acquireRemote bob "e1" none "l2", .recordHeartbeatMiss alice "l1",
      .sweepFires] _ (by simp) (by decide +kernel) rfl
  exact ⟨h.1, h.2 (by decide +kernel)⟩

/-- A client that misses one heartbeat and goes silent keeps its session: the sweep comes
after the lease is stale, leaves it, and is not armed again. -/
theorem uncertain_lease_is_stranded : ∃ m m' lease, Monotone (pacedOptions 40000).now ∧ exec (step (pacedOptions 40000)) initial
      [.acquireRemote alice "e1" none "l1", .recordHeartbeatMiss alice "l1"] = some m ∧
    m.current "atelier" = some lease ∧ lease.state = .heldUncertain ∧
    staleAt (pacedOptions 40000) lease ≤ (pacedOptions 40000).now m.reads ∧
    m.step (pacedOptions 40000) .sweepFires = some m' ∧ m'.current "atelier" = some lease ∧ m'.sweepTimer = none ∧
    (m'.acquireRemote (pacedOptions 40000) ⟨"atelier", "bob", "phone"⟩ "e1" none "l2").1 = .error .leaseMismatch ∧
    ¬ m'.Watched ∧ ¬ SweepFrees (pacedOptions 40000) m := by
  refine ⟨_, _, _, fun a b hab => Nat.mul_le_mul_left 40000 hab, rfl, rfl, rfl, by decide, rfl, rfl, rfl, rfl, ?_, ?_⟩
  · intro hwatched
    have harmed := hwatched "atelier" _ rfl (by decide)
    exact absurd harmed (by decide +kernel)
  · intro hfrees
    obtain ⟨lease', hcur', -, hrev, -⟩ := hfrees _ rfl "atelier" _ rfl (by decide) (by decide)
    obtain rfl := some.inj hcur'
    exact absurd hrev (by decide +kernel)

end LeaseManager

end Kookr.Remote

/-! At most one remote client controls a session, and a lease that was ended stays ended:
no heartbeat, no late timer and no reconnect brings it back, only a new acquisition under
the same identifier. -/

namespace Kookr.Remote

open Kookr.Lib

namespace LeaseManager

variable {opts : LeaseOptions} {m m' : LeaseManager} {sid leaseId : String} {lease : ControllerLease} {input : RemoteHolder}

/-- Some remote client holds the session under this lease. -/
def Live (m : LeaseManager) (sid leaseId : String) : Prop :=
  ∃ lease, m.current sid = some lease ∧ lease.leaseId = leaseId ∧ lease.state.Held

def Ends (opts : LeaseOptions) (m : LeaseManager) (sid : String) (lease : ControllerLease) : LeaseEvent → Prop
  | .revoke sessionId _ => sessionId = sid
  | .acquireLocal sessionId _ _ => sessionId = sid
  | .handleRelayDisconnect _ => lease.state = .heldRemote
  | .recordHeartbeatMiss input leaseId =>
    input.sessionId = sid ∧ m.heartbeatLease input leaseId = .ok lease ∧ lease.heartbeatMisses ≠ 0
  | .sweepFires => lease.state = .heldRemote ∧ staleAt opts lease ≤ opts.now m.reads
  | _ => False

/-- The event is an `acquireRemote` for the session that succeeds with this lease. -/
def Acquires (opts : LeaseOptions) (sid leaseId : String) (m : LeaseManager) : LeaseEvent → Prop
  | .acquireRemote input epoch asked generated =>
    input.sessionId = sid ∧ ∃ lease, (m.acquireRemote opts input epoch asked generated).1 = .ok lease ∧
      lease.leaseId = leaseId
  | _ => False

theorem validateRemoteSubmit_ok {epoch : String} (h : (m.validateRemoteSubmit opts input epoch leaseId).1 = .ok lease) :
    ∃ current, m.current input.sessionId = some current ∧ current.state = .heldRemote ∧
      current.leaseId = leaseId ∧ current.actorId = some input.actorId ∧ current.clientId = some input.clientId := by
  unfold validateRemoteSubmit at h
  split at h
  · cases h
  · rename_i current hcur
    split_ifs at h with hepoch hrev hlocal hmismatch
    simp only [not_or, not_not] at hmismatch
    obtain ⟨hstate, hid, hactor, hclient⟩ := hmismatch
    exact ⟨current, hcur, hstate, hid, hactor, hclient⟩

theorem recordHeartbeatAck_ok (hfit : m.Fit)
    (h : (m.recordHeartbeatAck opts input leaseId).1 = .ok lease) : m.Live input.sessionId leaseId := by
  unfold recordHeartbeatAck at h
  split at h
  · cases h
  · rename_i current hok
    obtain ⟨hcur, hid, -, -⟩ := heartbeatLease_ok hok
    exact ⟨current, hcur, hid, heartbeatLease_held hfit hok⟩

theorem not_live_of_current (hcur : m.current sid = some lease) (hstate : ¬ lease.state.Held) : ¬ m.Live sid leaseId := by
  intro hlive
  obtain ⟨lease', hcur', -, hheld⟩ := hlive
  rw [hcur] at hcur'
  obtain rfl := Option.some.inj hcur'
  exact hstate hheld

theorem not_held_of_revoked {state : ControllerLeaseState} (h : state = .revoked) : ¬ state.Held := by
  rw [h]
  decide

theorem Tame.not_live (h : Tame m m') (hnot : ¬ m.Live sid leaseId) : ¬ m'.Live sid leaseId := by
  intro hlive
  obtain ⟨lease', hcur', hid, hheld'⟩ := hlive
  obtain ⟨lease, hcur, hheld, hid'⟩ := h.held sid lease' hcur' hheld'
  exact hnot ⟨lease, hcur, hid'.symm.trans hid, hheld⟩

theorem revoke_not_live (hfit : m.Fit) (hcur : m.current sid = some lease)
    (reason : LeaseRevocationReason) : ¬ (m.revoke opts sid reason).Live sid leaseId := by
  by_cases hstate : lease.state = .revoked
  · exact (revoke_moved hfit sid reason).tame.not_live (not_live_of_current hcur (not_held_of_revoked hstate))
  · obtain ⟨lease', -, hrev, heffect⟩ := effect_revoke opts hfit hcur hstate reason
    exact not_live_of_current heffect.current_self (not_held_of_revoked hrev)

theorem acquireLocal_not_live (hfit : m.Fit) (sid epoch generated : String) :
    ¬ (m.acquireLocal opts sid epoch generated).Live sid leaseId := by
  have hlocal : ∃ lease, (m.acquireLocal opts sid epoch generated).current sid = some lease ∧
      lease.state = .heldLocal := by
    rcases acquireLocal_cases hfit sid epoch generated with ⟨-, hlocal⟩ | ⟨m₁, lease, -, -, hstate, -, -, -, hnew⟩
    · exact hlocal
    · exact ⟨lease, hnew.effect.current_self, hstate⟩
  obtain ⟨lease, hcur, hstate⟩ := hlocal
  apply not_live_of_current hcur
  rw [hstate]
  decide

theorem handleRelayDisconnect_not_live (hfit : m.Fit) (hcur : m.current sid = some lease)
    (hstate : lease.state = .heldRemote) (reason : LeaseRevocationReason) :
    ¬ (m.handleRelayDisconnect opts reason).Live sid leaseId := by
  obtain ⟨m₁, -, hcur₁, hfold⟩ := foldl_current_at
    (fun m' k s hfit hs => (disconnectOne_moved opts hfit reason k).current_of_ne hs)
    (fun m' k hfit => (disconnectOne_moved opts hfit reason k).fit hfit)
    m.sessions.nodup_keys (mem_keys_of_current hcur) hfit
  have hrevoked : ∃ lease', (m₁.disconnectOne opts reason sid).current sid = some lease' ∧ lease'.state = .revoked := by
    unfold disconnectOne
    rw [hcur₁, hcur]
    dsimp only
    rw [if_pos hstate]
    exact ⟨_, (effect_setRecord _ sid _).current_self, rfl⟩
  obtain ⟨lease', hcur', hrev⟩ := hrevoked
  exact not_live_of_current (hfold.trans hcur') (not_held_of_revoked hrev)

theorem recordHeartbeatMiss_not_live (hfit : m.Fit) {reported : String}
    (hok : m.heartbeatLease input reported = .ok lease) (hmisses : lease.heartbeatMisses ≠ 0) :
    ¬ (m.recordHeartbeatMiss opts input reported).2.Live input.sessionId leaseId := by
  obtain ⟨hcur, -, -, hrev⟩ := heartbeatLease_ok hok
  unfold recordHeartbeatMiss
  rw [hok]
  dsimp only [tick]
  rw [if_neg fun h => hmisses (Nat.succ.inj h)]
  have hset := effect_setLease { m with reads := m.reads + 1 } input.sessionId
    { lease with heartbeatMisses := lease.heartbeatMisses + 1, updatedAtMs := opts.now m.reads }
  have hmoved : Moved m (({ m with reads := m.reads + 1 } : LeaseManager).setLease input.sessionId
      { lease with heartbeatMisses := lease.heartbeatMisses + 1, updatedAtMs := opts.now m.reads }) input.sessionId :=
    .refreshed lease _ _ _ hcur hrev (.inl rfl) hset.of_tick
  exact revoke_not_live (hmoved.fit hfit) hset.current_self .heartbeatTimeout

theorem ends_not_live (hfit : m.Fit) (hcur : m.current sid = some lease) {e : LeaseEvent}
    (hends : Ends opts m sid lease e) (hstep : m.step opts e = some m') : ¬ m'.Live sid leaseId := by
  cases e with
  | revoke sessionId reason =>
    obtain rfl := hends
    obtain rfl := Option.some.inj hstep
    exact revoke_not_live hfit hcur reason
  | acquireLocal sessionId epoch generated =>
    obtain rfl := hends
    obtain rfl := Option.some.inj hstep
    exact acquireLocal_not_live hfit sessionId epoch generated
  | handleRelayDisconnect reason =>
    obtain rfl := Option.some.inj hstep
    exact handleRelayDisconnect_not_live hfit hcur hends reason
  | recordHeartbeatMiss input reported =>
    obtain ⟨rfl, hok, hmisses⟩ := hends
    obtain rfl := Option.some.inj hstep
    exact recordHeartbeatMiss_not_live hfit hok hmisses
  | sweepFires =>
    simp only [step] at hstep
    split at hstep
    · obtain rfl := Option.some.inj hstep
      obtain ⟨lease', hcur', -, hrev⟩ := sweep_revokes hfit hcur hends.1 hends.2
      exact not_live_of_current hcur' (not_held_of_revoked hrev)
    · cases hstep
  | acquireRemote | validateRemoteSubmit | recordHeartbeatAck | handleRelayReconnect | presumedLostFires | dispose =>
    exact hends.elim

/-- Nothing but an acquisition under its identifier makes a lease live again. -/
theorem step_not_live (hfit : m.Fit) (hnot : ¬ m.Live sid leaseId) {e : LeaseEvent}
    (hother : ¬ Acquires opts sid leaseId m e) (hstep : m.step opts e = some m') : ¬ m'.Live sid leaseId := by
  rcases step_cases hfit hstep with ⟨m₀, hcur₀, -, htame⟩ | ⟨input, epoch, asked, generated, lease, rfl, hok, hnew, -⟩
  · apply htame.not_live
    intro hlive
    obtain ⟨lease, hcur, hid, hheld⟩ := hlive
    exact hnot ⟨lease, (hcur₀ sid).symm.trans hcur, hid, hheld⟩
  · intro hlive
    obtain ⟨lease', hcur', hid, hheld'⟩ := hlive
    rw [hnew.effect.current] at hcur'
    split at hcur'
    · rename_i hsid
      obtain rfl := Option.some.inj hcur'
      exact hother ⟨hsid.symm, lease, hok, hid⟩
    · exact hnot ⟨lease', hcur', hid, hheld'⟩

/-- One remote client at most may submit to a session; and once a lease was ended, neither
its submissions nor its heartbeats are taken before it is acquired again. -/
theorem lease_exclusive (opts : LeaseOptions) (es : List LeaseEvent) (m : LeaseManager)
    (hrun : exec (step opts) initial es = some m) :
    (∀ (a b : RemoteHolder) (epoch leaseA leaseB : String) (okA okB : ControllerLease), a.sessionId = b.sessionId →
      (m.validateRemoteSubmit opts a epoch leaseA).1 = .ok okA → (m.validateRemoteSubmit opts b epoch leaseB).1 = .ok okB →
      a.actorId = b.actorId ∧ a.clientId = b.clientId ∧ leaseA = leaseB) ∧
    ∀ sid lease e m₁ es' m₂, m.current sid = some lease → Ends opts m sid lease e → m.step opts e = some m₁ →
      StepsMeet (step opts) (fun m e => ¬ Acquires opts sid lease.leaseId m e) m₁ es' → exec (step opts) m₁ es' = some m₂ →
      ∀ input epoch, input.sessionId = sid → (∀ ok, (m₂.validateRemoteSubmit opts input epoch lease.leaseId).1 ≠ .ok ok) ∧
        ∀ ok, (m₂.recordHeartbeatAck opts input lease.leaseId).1 ≠ .ok ok := by
  have hfit : m.Fit := exec_preserves (fun _ _ _ hfit hstep => step_fit hfit hstep) initial_fit hrun
  refine ⟨?_, ?_⟩
  · intro a b epoch leaseA leaseB okA okB hsession ha hb
    obtain ⟨lease, hcur, -, hid, hactor, hclient⟩ := validateRemoteSubmit_ok ha
    obtain ⟨lease', hcur', -, hid', hactor', hclient'⟩ := validateRemoteSubmit_ok hb
    rw [← hsession, hcur] at hcur'
    obtain rfl := Option.some.inj hcur'
    exact ⟨Option.some.inj (hactor.symm.trans hactor'), Option.some.inj (hclient.symm.trans hclient'),
      hid.symm.trans hid'⟩
  · intro sid lease e m₁ es' m₂ hcur hends hstep hothers hrun' input epoch hsid
    have hpreserved : ∀ m e m', (m.Fit ∧ ¬ m.Live sid lease.leaseId) → ¬ Acquires opts sid lease.leaseId m e →
        m.step opts e = some m' → m'.Fit ∧ ¬ m'.Live sid lease.leaseId :=
      fun m e m' hinv hother hstep => ⟨step_fit hinv.1 hstep, step_not_live hinv.1 hinv.2 hother hstep⟩
    obtain ⟨hfit₂, hnot⟩ := exec_invariant hpreserved
      ⟨step_fit hfit hstep, ends_not_live hfit hcur hends hstep⟩ hothers hrun'
    subst hsid
    refine ⟨?_, ?_⟩
    · intro ok hok
      obtain ⟨current, hcur, hstate, hid, -, -⟩ := validateRemoteSubmit_ok hok
      exact hnot ⟨current, hcur, hid, .inl hstate⟩
    · intro ok hok
      exact hnot (recordHeartbeatAck_ok hfit₂ hok)

/-- The relay of `alice` is lost, and a heartbeat that was on its way arrives after it came
back. -/
theorem late_heartbeat_is_refused : ∃ m lease m₁ m₂,
    exec (step (pacedOptions 1000)) initial [.acquireRemote alice "e1" none "l1"] = some m ∧
    m.current "atelier" = some lease ∧ m.step (pacedOptions 1000) (.handleRelayDisconnect .nodeDisconnect) = some m₁ ∧
    exec (step (pacedOptions 1000)) m₁ [.presumedLostFires "atelier", .handleRelayReconnect] = some m₂ ∧
    ∀ ok, (m₂.recordHeartbeatAck (pacedOptions 1000) alice "l1").1 ≠ .ok ok := by
  refine ⟨_, _, _, _, rfl, rfl, rfl, rfl, ?_⟩
  exact ((lease_exclusive (pacedOptions 1000) [.acquireRemote alice "e1" none "l1"] _ rfl).2 "atelier" _
    (.handleRelayDisconnect .nodeDisconnect) _ [.presumedLostFires "atelier", .handleRelayReconnect] _ rfl rfl rfl
    ⟨id, fun _ _ => ⟨id, fun _ _ => trivial⟩⟩ rfl alice "e1" rfl).2

end LeaseManager

end Kookr.Remote
