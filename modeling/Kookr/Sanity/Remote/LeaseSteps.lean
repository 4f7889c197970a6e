import Kookr.Sanity.Remote.LeaseMoves

/-! What a step of the lease manager can do. Only `acquireRemote` makes somebody hold a
session; every other step is tame. -/

namespace Kookr.Remote

open Kookr.Lib

namespace LeaseManager

variable {opts : LeaseOptions} {m m' m'' : LeaseManager} {sid s : String} {f : LeaseManager → String → LeaseManager}

/-- A reconnected relay is told again of a revoked lease. -/
theorem reconnectOne_cases (hfit : m.Fit) (sid : String) : Effect m (m.reconnectOne sid) sid (m.current sid) (m.pending sid) [] ∨
      ∃ lease, m.current sid = some lease ∧ lease.state = .revoked ∧ Effect m (m.reconnectOne sid) sid (some lease) none
          [lease.event .heldPresumedLost .revoked (some .nodeDisconnect) false] := by
  unfold reconnectOne
  split
  · rename_i lease hcur
    split_ifs with hstate
    · right
      have hcancel := effect_cancelPresumedLost m sid
      rw [hcur] at hcancel
      have hemit := effect_emit_current (hfit sid lease hcur).sessionId .heldPresumedLost .revoked
        (some .nodeDisconnect) false hcancel.current_self
      rw [hcancel.pending_self] at hemit
      exact ⟨lease, hcur, hstate, hcancel.trans hemit⟩
    · exact .inl (Effect.refl m sid)
  · exact .inl (Effect.refl m sid)

theorem firePresumedLost_effect (h : m.firePresumedLost sid = some m') : ∃ lease reason, m.pending sid = some (lease, reason) ∧
      Effect m m' sid (m.current sid) none [m.publication lease .heldUncertain .heldPresumedLost (some reason) false] := by
  obtain ⟨⟨lease, reason⟩, hpending, rfl⟩ := Option.map_eq_some_iff.1 h
  have hcancel := effect_cancelPresumedLost m sid
  have hemit := effect_emit (m.cancelPresumedLost sid) sid lease .heldUncertain .heldPresumedLost (some reason) false
  have hpub : (m.cancelPresumedLost sid).publication lease .heldUncertain .heldPresumedLost (some reason) false =
      m.publication lease .heldUncertain .heldPresumedLost (some reason) false := by
    unfold publication
    rw [hcancel.current]
    split
    · rename_i hs
      rw [hs]
    · rfl
  rw [hcancel.current_self, hcancel.pending_self, hpub] at hemit
  exact ⟨lease, reason, hpending, hcancel.trans hemit⟩

/-- Nobody holds a session who did not hold it before, and the sweep stays armed. -/
structure Tame (m m' : LeaseManager) : Prop where
  held : ∀ s lease', m'.current s = some lease' → lease'.state.Held →
    ∃ lease, m.current s = some lease ∧ lease.state.Held ∧ lease'.leaseId = lease.leaseId
  fit : m.Fit → m'.Fit
  armed : m.sweepTimer.isSome → m'.sweepTimer.isSome

theorem Tame.refl (m : LeaseManager) : Tame m m :=
  ⟨fun _ lease' hcur hheld => ⟨lease', hcur, hheld, rfl⟩, id, id⟩

theorem Tame.trans (h : Tame m m') (h' : Tame m' m'') : Tame m m'' := by
  refine ⟨?_, h'.fit ∘ h.fit, h'.armed ∘ h.armed⟩
  intro s lease'' hcur'' hheld''
  obtain ⟨lease', hcur', hheld', hid'⟩ := h'.held s lease'' hcur'' hheld''
  obtain ⟨lease, hcur, hheld, hid⟩ := h.held s lease' hcur' hheld'
  exact ⟨lease, hcur, hheld, hid'.trans hid⟩

theorem Moved.tame (h : Moved m m' sid) : Tame m m' := by
  refine ⟨?_, h.fit, h.armed⟩
  intro s lease' hcur' hheld'
  obtain ⟨lease, hcur, hsame, hstate⟩ := h.current_cases hcur'
  refine ⟨lease, hcur, ?_, hsame.leaseId⟩
  rcases hstate with heq | hrev | ⟨hheld, -⟩
  · rwa [← heq]
  · rw [hrev] at hheld'
    exact absurd hheld' (by decide)
  · exact hheld

theorem tame_of_current (hcur : ∀ s, m'.current s = m.current s) (harmed : m.sweepTimer.isSome → m'.sweepTimer.isSome) :
    Tame m m' := by
  refine ⟨?_, ?_, harmed⟩
  · intro s lease' hcur' hheld'
    rw [hcur] at hcur'
    exact ⟨lease', hcur', hheld', rfl⟩
  · intro hfit s lease' hcur'
    rw [hcur] at hcur'
    exact hfit s lease' hcur'

theorem Effect.tame {timer : Option (ControllerLease × LeaseRevocationReason)} {pubs : List Publication}
    (h : Effect m m' sid (m.current sid) timer pubs) : Tame m m' := by
  apply tame_of_current _ h.armed
  intro s
  rw [h.current]
  split
  · rename_i hs
    rw [hs]
  · rfl

theorem Created.tame {lease : ControllerLease} {timer : Option (ControllerLease × LeaseRevocationReason)}
    (h : Created m m' sid lease timer) (hlocal : ¬ lease.state.Held) : Tame m m' := by
  refine ⟨?_, h.fit, h.effect.armed⟩
  intro s lease' hcur' hheld'
  rw [h.effect.current] at hcur'
  split at hcur'
  · cases hcur'
    exact absurd hheld' hlocal
  · exact ⟨lease', hcur', hheld', rfl⟩

theorem reconnectOne_tame (hfit : m.Fit) (sid : String) : Tame m (m.reconnectOne sid) := by
  rcases reconnectOne_cases hfit sid with heffect | ⟨lease, hcur, -, heffect⟩
  · exact heffect.tame
  · rw [← hcur] at heffect
    exact heffect.tame

theorem Tame.foldl (hf : ∀ m k, m.Fit → Tame m (f m k)) (keys : List String) (hfit : m.Fit) : Tame m (keys.foldl f m) := by
  induction keys generalizing m with
  | nil => exact Tame.refl m
  | cons k keys ih =>
    have hone := hf m k hfit
    exact hone.trans (ih (hone.fit hfit))

theorem foldl_current_of_not_mem
    (hf : ∀ m k s, m.Fit → s ≠ k → (f m k).current s = m.current s) (hfits : ∀ m k, m.Fit → (f m k).Fit)
    {keys : List String} (hs : s ∉ keys) (hfit : m.Fit) : (keys.foldl f m).current s = m.current s := by
  induction keys generalizing m with
  | nil => rfl
  | cons k keys ih =>
    rw [List.mem_cons, not_or] at hs
    rw [List.foldl_cons, ih hs.2 (hfits m k hfit), hf m k s hfit hs.1]

theorem foldl_current_at (hf : ∀ m k s, m.Fit → s ≠ k → (f m k).current s = m.current s) (hfits : ∀ m k, m.Fit → (f m k).Fit)
    {keys : List String} (hnodup : keys.Nodup) (hs : s ∈ keys) (hfit : m.Fit) :
    ∃ m₁ : LeaseManager, m₁.Fit ∧ m₁.current s = m.current s ∧ (keys.foldl f m).current s = (f m₁ s).current s := by
  induction keys generalizing m with
  | nil => cases hs
  | cons k keys ih =>
    rw [List.nodup_cons] at hnodup
    by_cases hk : s = k
    · subst hk
      exact ⟨m, hfit, rfl, foldl_current_of_not_mem hf hfits hnodup.1 (hfits m s hfit)⟩
    · obtain ⟨m₁, hfit₁, hcur₁, hfold⟩ := ih hnodup.2 (List.mem_of_ne_of_mem hk hs) (hfits m k hfit)
      exact ⟨m₁, hfit₁, hcur₁.trans (hf m k s hfit hk), hfold⟩

theorem mem_keys_of_current {lease : ControllerLease} (h : m.current s = some lease) : s ∈ m.sessions.keys := by
  obtain ⟨record, hget, -⟩ := Option.bind_eq_some_iff.1 h
  rw [← OrderedMap.get_isSome_iff, hget]
  rfl

theorem sweepStaleRemoteLeases_tame (opts : LeaseOptions) (hfit : m.Fit) :
    Tame { m with sweepTimer := none, reads := m.reads + 1 } (m.sweepStaleRemoteLeases opts) := by
  have hfit₀ : ({ m with sweepTimer := none, reads := m.reads + 1 } : LeaseManager).Fit := hfit
  have hfold := Tame.foldl (fun m' k hfit => (sweepOne_moved opts hfit (opts.now m.reads) k).tame) m.sessions.keys hfit₀
  exact hfold.trans (effect_scheduleSweep opts _ "").tame

/-- A step makes a remote lease, or is tame; the sweep timer is cleared by the sweep and by
`dispose` only. -/
theorem step_cases (hfit : m.Fit) {e : LeaseEvent} (h : m.step opts e = some m') :
    (∃ m₀, (∀ s, m₀.current s = m.current s) ∧ (e ≠ .sweepFires → e ≠ .dispose → m₀ = m) ∧ Tame m₀ m') ∨
      ∃ input epoch leaseId generated lease, e = .acquireRemote input epoch leaseId generated ∧
        (m.acquireRemote opts input epoch leaseId generated).1 = .ok lease ∧
        Created m m' input.sessionId lease none ∧ m'.sweepTimer.isSome := by
  have htame : Tame m m' → ∃ m₀, (∀ s, m₀.current s = m.current s) ∧ (e ≠ .sweepFires → e ≠ .dispose → m₀ = m) ∧
      Tame m₀ m' := fun h => ⟨m, fun _ => rfl, fun _ _ => rfl, h⟩
  cases e with
  | acquireRemote input epoch leaseId generated =>
    cases h
    rcases acquireRemote_cases hfit input epoch leaseId generated with hmoved | ⟨lease, hok, -, -, -, hnew, harmed⟩
    · exact .inl (htame hmoved.tame)
    · exact .inr ⟨input, epoch, leaseId, generated, lease, rfl, hok, hnew, harmed⟩
  | acquireLocal sid epoch generated =>
    cases h
    left
    apply htame
    rcases acquireLocal_cases hfit sid epoch generated with ⟨hmoved, -⟩ | ⟨m₁, lease, hmoved, -, hstate, -, -, -, hnew⟩
    · exact hmoved.tame
    · apply hmoved.tame.trans (hnew.tame _)
      rw [hstate]
      decide
  | validateRemoteSubmit input epoch leaseId =>
    cases h
    exact .inl (htame (validateRemoteSubmit_moved m input epoch leaseId).tame)
  | recordHeartbeatAck input leaseId =>
    cases h
    exact .inl (htame (recordHeartbeatAck_moved hfit input leaseId).tame)
  | recordHeartbeatMiss input leaseId =>
    cases h
    exact .inl (htame (recordHeartbeatMiss_moved hfit input leaseId).tame)
  | revoke sid reason =>
    cases h
    exact .inl (htame (revoke_moved hfit sid reason).tame)
  | handleRelayDisconnect reason =>
    cases h
    exact .inl (htame (Tame.foldl (fun m k hfit => (disconnectOne_moved opts hfit reason k).tame) _ hfit))
  | handleRelayReconnect =>
    cases h
    exact .inl (htame (Tame.foldl (fun m k hfit => reconnectOne_tame hfit k) _ hfit))
  | sweepFires =>
    simp only [step] at h
    split at h
    · cases h
      exact .inl ⟨{ m with sweepTimer := none, reads := m.reads + 1 }, fun _ => rfl, fun h => absurd rfl h,
        sweepStaleRemoteLeases_tame opts hfit⟩
    · cases h
  | presumedLostFires sid =>
    obtain ⟨lease, reason, -, heffect⟩ := firePresumedLost_effect h
    exact .inl (htame heffect.tame)
  | dispose =>
    cases h
    refine .inl ⟨{ m with sweepTimer := none }, fun _ => rfl, fun _ h => absurd rfl h, ?_⟩
    exact Tame.foldl (fun m k _ => (effect_cancelPresumedLost m k).tame) _ hfit

theorem initial_fit : initial.Fit := by
  intro sid lease h
  cases h

theorem step_fit (hfit : m.Fit) {e : LeaseEvent} (h : m.step opts e = some m') : m'.Fit := by
  rcases step_cases hfit h with ⟨m₀, hcur, -, htame⟩ | ⟨_, _, _, _, _, -, -, hnew, -⟩
  · apply htame.fit
    intro s lease hs
    rw [hcur] at hs
    exact hfit s lease hs
  · exact hnew.fit hfit

end LeaseManager

end Kookr.Remote
