import Kookr.Sanity.Launch.SlotMoves

/-! What each section of a launch and of a promotion does to the slots and the reservations. -/

namespace Kookr.Launch.LaunchState

open Kookr.Lib Slots LaunchState Option Nat

variable {s s' : LaunchState} {p id token : ℕ} {opts : LaunchOptions} {config : LaunchConfig} {ok ownMarker : Bool}

section

variable (h : Leased s)
include h

theorem Leased.gives_launch : Gives s (s.launch config opts) := by
  unfold launch
  dsimp only
  split
  · exact h.gives_call rfl
  · exact h.gives_call rfl

theorem Leased.gives_createTask (o : CreateTaskOptions) : Gives s { s with slots := (s.slots.createTask o).2 } := by
  have hget : ∀ k, k ≠ s.slots.nextTask → (s.slots.createTask o).2.tasks.get k = s.slots.tasks.get k := fun k hk =>
    OrderedMap.get_set_of_ne _ _ (Ne.symm hk)
  refine ⟨⟨h.fresh, ?_, ?_, ?_, h.distinct⟩, fun q => ?_⟩
  · intro k task htask
    by_cases hk : k = s.slots.nextTask
    · exact hk ▸ lt_succ_self _
    · exact lt_succ_of_lt (h.tasks k task ((hget k hk).symm.trans htask))
  · exact fun k r hr => lt_succ_of_lt (h.reservations k r hr)
  · intro p l hl
    obtain ⟨hlt, howned⟩ := h.owned p l hl
    refine ⟨lt_succ_of_lt hlt, fun task htask hlaunch => ?_⟩
    exact howned task ((hget l.id (Nat.ne_of_lt hlt)).symm.trans htask) hlaunch
  · refine OrderedMap.countP_le (fun k task => s.slots.occupiesSlot k task && q task.privileged)
      (fun k task => (s.slots.createTask o).2.occupiesSlot k task && q task.privileged) fun k task htask hp => ?_
    by_cases hk : k = s.slots.nextTask
    · -- the new task is open
      subst hk
      have hnone : s.slots.launchReservations.get s.slots.nextTask = none := by
        cases hr : s.slots.launchReservations.get s.slots.nextTask with
        | none => rfl
        | some r => exact absurd (h.reservations _ r hr) (lt_irrefl _)
      have hopen : (s.slots.createTask o).2.tasks.get s.slots.nextTask = some _ := OrderedMap.get_set_self _ _ _
      obtain rfl := some.inj (hopen.symm.trans htask)
      have hfree : (s.slots.createTask o).2.hasFreshActiveLaunchReservation s.slots.nextTask = false := by
        show (s.slots.launchReservations.get s.slots.nextTask).any _ = false
        rw [hnone]
        rfl
      unfold occupiesSlot at hp
      rw [hfree] at hp
      cases hp
    · exact ⟨task, (hget k hk).symm.trans htask, hp⟩

theorem Leased.gives_persistQueued (honly : OnlyHere s p id) {marker : Option LaunchAdmission} :
    Gives s (s.persistQueued p opts id s.slots marker) := by
  unfold persistQueued
  cases hbegin : s.slots.beginReservationWithToken id false with
  | none => exact h.gives_goto (releases_tryTransition _ id nofun nofun) honly nofun
  | some begun =>
    obtain ⟨token, slots⟩ := begun
    obtain ⟨task, hget, -⟩ := begin_eq_some hbegin
    have hqueued : Releases id slots (slots.tryTransition id .pending) := releases_tryTransition slots id nofun nofun
    have howned : (slots.tryTransition id .pending).Owned id token false := (owned_begin hbegin).tryTransition nofun
    refine h.gives_goto ?_ honly fun l hl => ?_
    · exact ((releases_begin hbegin).trans hqueued).trans (releases_setLaunchAdmission _ id marker)
    · cases hl
      exact ⟨rfl, h.tasks id task hget, howned.setLaunchAdmission marker⟩

theorem Leased.gives_created {claimLost : Bool} : Gives s (s.created config p opts claimLost) := by
  have hcreated := h.gives_createTask ⟨opts.deniedMarker, opts.autoCloseOnSignal, opts.launchSource, opts.privileged config⟩
  have honly : OnlyHere { s with slots := (s.slots.createTask
      ⟨opts.deniedMarker, opts.autoCloseOnSignal, opts.launchSource, opts.privileged config⟩).2 } p s.slots.nextTask :=
    fun p' l _ hl => Nat.ne_of_lt (h.owned p' l hl).1
  unfold created
  generalize hslots : s.slots.createTask
    ⟨opts.deniedMarker, opts.autoCloseOnSignal, opts.launchSource, opts.privileged config⟩ = created at hcreated honly ⊢
  obtain ⟨id, slots⟩ := created
  obtain ⟨rfl, -⟩ := Prod.mk.inj hslots
  dsimp only at hcreated honly ⊢
  split
  · refine hcreated.trans (hcreated.leased.gives_goto ?_ honly nofun)
    cases hdelete : slots.deleteTask s.slots.nextTask with
    | none => exact .refl _ slots
    | some slots' => exact (deleteTask_eq_some hdelete).1
  · split
    · exact hcreated.trans (hcreated.leased.gives_persistQueued honly)
    · split
      · split
        · exact hcreated.trans (hcreated.leased.gives_persistQueued honly)
        · split
          · exact hcreated.trans (hcreated.leased.gives_persistQueued honly)
          · exact hcreated.trans (hcreated.leased.gives_goto (releases_tryTransition slots _ nofun nofun) honly nofun)
      · exact hcreated.trans (hcreated.leased.gives_goto (.refl _ slots) honly nofun)

theorem Leased.gives_persisted (hp : s.leaseAt p = some ⟨id, token, false⟩) :
    Gives s (s.persisted p opts id token ok ownMarker) := by
  refine h.gives_end hp ?_ rfl
  split
  · exact (releases_endLaunch _ id token).trans (releases_tryTransition _ id nofun nofun)
  · exact releases_endLaunch _ id token

section

variable (hp : s.leaseAt p = some ⟨id, token, true⟩)
include hp

theorem Leased.renewReservation {renewed : ℕ × Slots}
    (hrenew : s.renewReservation id token = some renewed) : renewed = (token, s.slots) := by
  unfold LaunchState.renewReservation at hrenew
  split at hrenew
  · exact (some.inj hrenew).symm
  · exact absurd hrenew ((h.owned p _ hp).2.not_begin h.fresh)

theorem Leased.gives_probePersisted {ok ownMarker probeActive : Bool} {refreshed : Option LaunchAdmission} :
    Gives s (s.probePersisted p opts id token ok ownMarker probeActive refreshed) := by
  have howned := (h.owned p _ hp).2
  unfold probePersisted
  split
  · exact h.gives_end hp (releases_launchNotStarted _ id token ownMarker) rfl
  · split
    · refine h.gives_end hp ?_ rfl
      split
      · exact (releases_setLaunchAdmission _ id none).trans (releases_endLaunch _ id token)
      · exact releases_endLaunch _ id token
    · split
      · exact h.gives_end hp (releases_launchNotStarted _ id token ownMarker) rfl
      · rename_i token' slots hrenew
        obtain ⟨rfl, rfl⟩ := Prod.mk.inj (h.renewReservation hp hrenew)
        split
        · exact (h.gives_keep hp (.refl id _) howned rfl).withAdapters _
        · split
          · exact h.gives_end hp (releases_launchNotStarted _ id token' ownMarker) rfl
          · rename_i slots htrans
            refine h.gives_keep hp ?_ ((howned.transition htrans nofun).setLaunchAdmission _) rfl
            exact (releases_transition htrans nofun nofun).trans (releases_setLaunchAdmission _ id _)

theorem Leased.gives_refreshed : Gives s (s.refreshed p opts id token ok ownMarker) := by
  unfold refreshed
  split
  · exact h.gives_end hp (releases_endLaunch _ id token) rfl
  · exact h.gives_end hp (releases_launchNotStarted _ id token ownMarker) rfl

theorem Leased.gives_launchFails : Gives s (s.launchFails p opts id token) := by
  unfold launchFails
  split
  · exact h.gives_keep hp (.refl id _) (h.owned p _ hp).2 rfl
  · exact h.gives_end hp ((releases_endLaunch _ id token).trans (releases_tryTransition _ id nofun nofun)) rfl

theorem Leased.gives_stopped {cleanupFailed : Bool} : Gives s (s.stopped p opts id token cleanupFailed) := by
  unfold stopped
  split
  · obtain ⟨hrel, howned⟩ := releases_keepCleanup (h.owned p _ hp).2 h.fresh
    exact h.gives_keep hp hrel howned rfl
  · exact h.gives_end hp ((releases_endLaunch _ id token).trans (releases_repark _ id)) rfl

end

end

variable {locals : Promotion} {slots : Slots} {before : Option LaunchAdmission} {e : Event}

section

variable (h : Leased s)
include h

theorem Leased.gives_nextRound (hp : s.leaseAt p = some ⟨id, token, true⟩) (hrel : Releases id s.slots slots) :
    Gives s (s.nextRound p locals id token slots) := h.gives_end hp (hrel.trans (releases_endLaunch slots id token)) rfl

theorem Leased.gives_stopLoop (hp : s.leaseAt p = some ⟨id, token, true⟩) (hrel : Releases id s.slots slots) :
    Gives s (s.stopLoop p locals id token slots) := h.gives_end hp (hrel.trans (releases_endLaunch slots id token)) rfl

omit h in
theorem releases_marker (slots : Slots) (id : ℕ) (marker : Option LaunchAdmission) (written : Bool) :
    Releases id slots (if written then slots.setLaunchAdmission id marker else slots) := by
  split
  · exact releases_setLaunchAdmission slots id marker
  · exact .refl id slots

theorem Leased.gives_marker (id : ℕ) (marker : Option LaunchAdmission) (written : Bool) :
    Gives s { s with slots := if written then s.slots.setLaunchAdmission id marker else s.slots } := by
  cases written with
  | false => exact ⟨h, fun _ => le_refl _⟩
  | true =>
    have hrel := releases_setLaunchAdmission s.slots id marker
    refine ⟨h.of_touches hrel.toTouches (fun p l hl => ?_) h.distinct, fun _ => hrel.slotCount_le⟩
    obtain ⟨hlt, howned⟩ := h.owned p l hl
    by_cases hid : l.id = id
    · subst hid
      exact .inr ⟨rfl, hlt, howned.setLaunchAdmission marker⟩
    · exact .inl ⟨hid, hl⟩

theorem Leased.gives_decided (hp : s.leaseAt p = some ⟨id, token, true⟩) {decision : DependencyDecision} :
    Gives s (s.decided p locals id token decision) := by
  have howned := (h.owned p _ hp).2
  unfold decided
  split
  · exact h.gives_nextRound hp (.refl id _)
  · cases decision with
    | denied reason => exact h.gives_keep hp (releases_setLaunchAdmission _ id _) (howned.setLaunchAdmission _) rfl
    | undeclared =>
      dsimp only
      split
      · exact h.gives_stopLoop hp (releases_tryTransition _ id nofun nofun)
      · exact h.gives_keep hp (.refl id _) howned rfl
    | admitted probe =>
      dsimp only
      split
      · refine h.gives_stopLoop hp ?_
        exact (releases_setLaunchAdmission _ id none).trans (releases_tryTransition _ id nofun nofun)
      · exact h.gives_keep hp (releases_setLaunchAdmission _ id none) (howned.setLaunchAdmission none) rfl

theorem Leased.gives_denialPersisted (hp : s.leaseAt p = some ⟨id, token, true⟩) :
    Gives s (s.denialPersisted p locals id token before ok ownMarker) := by
  unfold denialPersisted
  split
  · exact h.gives_nextRound hp (.refl id _)
  · exact h.gives_stopLoop hp (releases_marker _ id before _)

theorem Leased.gives_promotionNotStarted (hp : s.leaseAt p = some ⟨id, token, true⟩) {probe ownMarker : Bool} :
    Gives s (s.promotionNotStarted p locals id token probe ownMarker before) := by
  unfold promotionNotStarted
  split
  · exact h.gives_stopLoop hp (releases_marker _ id _ _)
  · split
    · exact h.gives_nextRound hp (releases_tryTransition _ id nofun nofun)
    · exact h.gives_nextRound hp (.refl id _)

theorem Leased.gives_promotionPrepared (hp : s.leaseAt p = some ⟨id, token, true⟩) {probe ok ownMarker : Bool} :
    Gives s (s.promotionPrepared p locals id token probe ok ownMarker before) := by
  have howned := (h.owned p _ hp).2
  unfold promotionPrepared
  split
  · exact h.gives_promotionNotStarted hp
  · split
    · exact h.gives_keep hp (releases_setLaunchAdmission _ id _) (howned.setLaunchAdmission _) rfl
    · exact h.gives_keep hp (.refl id _) howned rfl

theorem Leased.gives_promotionProbePersisted (hp : s.leaseAt p = some ⟨id, token, true⟩)
    {ok ownMarker probeActive : Bool} {before refreshed : Option LaunchAdmission} :
    Gives s (s.promotionProbePersisted p locals id token ok ownMarker probeActive before refreshed) := by
  have howned := (h.owned p _ hp).2
  unfold promotionProbePersisted
  split
  · exact h.gives_promotionNotStarted hp
  · split
    · exact h.gives_nextRound hp (releases_marker _ id none ownMarker)
    · split
      · exact h.gives_nextRound hp (.refl id _)
      · split
        · exact h.gives_keep hp (releases_setLaunchAdmission _ id _) (howned.setLaunchAdmission _) rfl
        · exact h.gives_keep hp (.refl id _) howned rfl

theorem Leased.gives_promotionRefreshed (hp : s.leaseAt p = some ⟨id, token, true⟩)
    : Gives s (s.promotionRefreshed p locals id token ok ownMarker before) := by
  unfold promotionRefreshed
  split
  · exact h.gives_nextRound hp (.refl id _)
  · exact h.gives_promotionNotStarted hp

theorem Leased.gives_resumed (hp : s.leaseAt p = some ⟨id, token, true⟩) {probe ok ownMarker : Bool}
    : Gives s (s.resumed p locals id token probe ok ownMarker before) := by
  unfold resumed
  split
  · exact (h.gives_keep hp (.refl id _) (h.owned p _ hp).2 rfl).withAdapters _
  · exact h.gives_promotionNotStarted hp

theorem Leased.gives_promotionStopped (hp : s.leaseAt p = some ⟨id, token, true⟩)
    {probe owned cleanupFailed ownMarker replaced : Bool} :
    Gives s (s.promotionStopped p locals id token probe owned cleanupFailed ownMarker replaced) := by
  unfold promotionStopped
  split
  · split
    · obtain ⟨hrel, howned⟩ := releases_keepCleanup (h.owned p _ hp).2 h.fresh
      refine h.gives_keep hp ?_ ?_ rfl
      · split
        · exact hrel
        · exact .refl id _
      · split
        · exact howned
        · exact (h.owned p _ hp).2
    · split
      · exact h.gives_nextRound hp (.refl id _)
      · exact h.gives_nextRound hp (releases_repark _ id)
  · split
    · exact h.gives_nextRound hp (.refl id _)
    · exact h.gives_nextRound hp (releases_tryTransition _ id nofun nofun)

/-- The step keeps the reservations; this task may have taken a slot. -/
structure Takes (id : ℕ) (s s' : LaunchState) : Prop where
  leased : Leased s'
  touches : Touches id s.slots s'.slots

theorem Leased.reserve : Gives s (s.reserve p opts id) ∨
    Takes id s (s.reserve p opts id) ∧ (s.slots.beginReservationWithToken id true).isSome := by
  unfold LaunchState.reserve
  cases hbegin : s.slots.beginReservationWithToken id true with
  | none =>
    refine .inl ⟨h.goto (.refl s.slots.nextTask _) ?_ nofun, fun _ => le_refl _⟩
    exact fun p' l _ hl => Nat.ne_of_lt (h.owned p' l hl).1
  | some begun =>
    obtain ⟨token, slots⟩ := begun
    obtain ⟨task, hget, -, -, htouch, -⟩ := begin_eq_some hbegin
    refine .inr ⟨?_, rfl⟩
    dsimp only
    split
    · have hmarked := htouch.trans (releases_setLaunchAdmission slots id (some .probing)).toTouches
      refine ⟨h.goto hmarked (h.onlyHere_begin hbegin) fun l hl => ?_, hmarked⟩
      cases hl
      exact ⟨rfl, h.tasks id task hget, (owned_begin hbegin).setLaunchAdmission _⟩
    · refine ⟨Leased.withAdapters (h.goto htouch (h.onlyHere_begin hbegin) fun l hl => ?_) _, htouch⟩
      cases hl
      exact ⟨rfl, h.tasks id task hget, owned_begin hbegin⟩

theorem Leased.gives_idle {call : Call} (hcall : call.lease = none) : Gives s (s.goto p call s.slots) := by
  refine ⟨h.goto (.refl s.slots.nextTask _) ?_ fun l hl => ?_, fun _ => le_refl _⟩
  · exact fun p' l _ hl => Nat.ne_of_lt (h.owned p' l hl).1
  · cases hcall.symm.trans hl

theorem Leased.promoteNext : Gives s (s.promoteNext config p locals) ∨
    ∃ id, Takes id s (s.promoteNext config p locals) ∧ s.slots.getActiveCount < config.maxActive ∧
      s.slots.pickNextPendingForPromotion (config.maxActive - s.slots.getActiveCount) locals.blockedByDependency = some id := by
  unfold LaunchState.promoteNext
  dsimp only
  split
  · rename_i hfree
    split
    · exact .inl (h.gives_idle rfl)
    · rename_i id hpick
      split
      · exact .inl (h.gives_idle rfl)
      · rename_i token slots hbegin
        obtain ⟨task, hget, -, -, htouch, -⟩ := begin_eq_some hbegin
        refine .inr ⟨id, ⟨h.goto htouch (h.onlyHere_begin hbegin) fun l hl => ?_, htouch⟩, hfree, hpick⟩
        cases hl
        exact ⟨rfl, h.tasks id task hget, owned_begin hbegin⟩
  · exact .inl (h.gives_idle rfl)

theorem Leased.attach {a : ℕ} (hattach : s.attach a = some s') : Gives s s' ∨
    ∃ adapter task, s.adapters[a]? = some adapter ∧ Takes adapter.id s s' ∧ s.slots.tasks.get adapter.id = some task ∧
      task.status.launchable = true ∧ s.slots.occupiesSlot adapter.id task = false := by
  obtain ⟨adapter, hadapter, hattach⟩ := bind_eq_some_iff.1 hattach
  split at hattach
  · cases hattach
  · split at hattach
    · rename_i slots hadd
      cases hattach
      obtain ⟨task, hget, htouch, hlaunch, hprogress⟩ := addSession_eq_some hadd
      have hleased := (h.withSlots htouch hlaunch).withAdapters (s.adapters.set a { adapter with attached := true })
      by_cases hocc : s.slots.Occupied adapter.id
      · exact .inl ⟨hleased, fun q => htouch.slotCount_le fun _ _ _ _ => hocc⟩
      · refine .inr ⟨adapter, task, hadapter, ⟨hleased, htouch⟩, hget, ?_, ?_⟩
        · cases hl : task.status.launchable with
          | true => rfl
          | false => exact absurd (hprogress hl) hocc
        · cases ho : s.slots.occupiesSlot adapter.id task with
          | false => rfl
          | true => exact absurd ⟨task, hget, ho⟩ hocc
    · cases hattach
      exact .inl ⟨h.withAdapters _, fun _ => le_refl _⟩

/-- No reservation grows old: every launch settles in time. -/
def SettlesInTime (s : LaunchState) : Event → Prop
  | .tick now => ∀ e ∈ s.slots.launchReservations.entries, now - e.2.reservedAt < LAUNCH_RESERVATION_TTL_MS
  | _ => True

instance SettlesInTime.decidable (s : LaunchState) (e : Event) : Decidable (SettlesInTime s e) :=
  match e with
  | .tick now => inferInstanceAs (Decidable
      (∀ e ∈ s.slots.launchReservations.entries, now - e.2.reservedAt < LAUNCH_RESERVATION_TTL_MS))
  | .launch .. | .created .. | .persisted .. | .promote | .promoteNext .. | .decided .. | .denialPersisted ..
  | .prepared .. | .probePersisted .. | .refreshed .. | .resumed .. | .attach .. | .launchSettled .. | .launchFails ..
  | .stopped .. | .fenced .. | .registered .. | .completeTask .. | .terminateTask .. | .cancelTask ..
  | .deleteTask .. => isTrue trivial

/-- The task for which the step may take a slot. -/
def TakesAt (config : LaunchConfig) (s : LaunchState) (e : Event) (id : ℕ) : Prop :=
  (∃ p ownMarker before opts, e = .prepared p true ownMarker before ∧ s.calls[p]? = some (.launch opts (.preparing id)) ∧
    (s.slots.beginReservationWithToken id true).isSome) ∨
  (∃ p locals, e = .promoteNext p ∧ s.calls[p]? = some (.promotion locals .looping) ∧
    s.slots.getActiveCount < config.maxActive ∧
    s.slots.pickNextPendingForPromotion (config.maxActive - s.slots.getActiveCount) locals.blockedByDependency = some id) ∨
  ∃ a adapter task, e = .attach a ∧ s.adapters[a]? = some adapter ∧ adapter.id = id ∧ s.slots.tasks.get id = some task ∧
    task.status.launchable = true ∧ s.slots.occupiesSlot id task = false

omit h in
theorem leaseAt_of_call {call : Call} (hcall : s.calls[p]? = some call) : s.leaseAt p = call.lease := by
  unfold leaseAt
  rw [hcall]
  rfl

theorem Leased.gives_transition {status : TaskStatus} (hterminal : status.isTerminalStatus = true)
    (hslots : s.slots.transition id status = some slots) : Gives s { s with slots } := by
  have hrel : Releases id s.slots slots := by
    refine releases_transition hslots ?_ ?_ <;> rintro rfl <;> cases hterminal
  refine ⟨h.withSlots hrel.toTouches fun task hget => ?_, fun _ => hrel.slotCount_le⟩
  obtain ⟨-, marker, -, -, rfl⟩ := transition_eq_some hslots
  rw [get_update, if_pos rfl] at hget
  obtain ⟨old, -, rfl⟩ := map_eq_some_iff.1 hget
  cases status <;> first | rfl | cases hterminal

theorem Leased.gives_tick {now : ℤ} (hsettles : SettlesInTime s (.tick now)) :
    Gives s { s with slots := { s.slots with now } } := by
  have hfresh : ({ s.slots with now } : Slots).AllFresh := by
    intro id r hr
    exact decide_eq_true (hsettles (id, r) ((OrderedMap.get_eq_some_iff _ _ _).1 hr))
  refine ⟨⟨hfresh, h.tasks, h.reservations, h.owned, h.distinct⟩, fun q => le_of_eq ?_⟩
  have hsame : ∀ id task, ({ s.slots with now } : Slots).occupiesSlot id task = s.slots.occupiesSlot id task := by
    intro id task
    unfold occupiesSlot hasFreshActiveLaunchReservation
    cases hr : s.slots.launchReservations.get id with
    | none => rfl
    | some r => rw [any_some, any_some, h.fresh id r hr, hfresh id r hr]
  unfold slotCount
  simp only [hsame]

theorem Leased.launchStep {stage : LaunchStage} (hcall : s.calls[p]? = some (.launch opts stage))
    (hstep : s.launchStep config p opts stage e = some s') : Gives s s' ∨ ∃ p' ownMarker before id, Takes id s s' ∧
      e = .prepared p' true ownMarker before ∧ stage = .preparing id ∧ (s.slots.beginReservationWithToken id true).isSome := by
  have hp := leaseAt_of_call hcall
  unfold LaunchState.launchStep at hstep
  split at hstep
  · cases hstep
    exact .inl h.gives_created
  · cases hstep
    exact .inl (h.gives_persisted hp)
  · rename_i id p' ok ownMarker before
    cases hstep
    cases ok with
    | false => exact .inl (h.gives_idle rfl)
    | true =>
      have hreserve : Gives s (s.reserve p opts id) ∨ _ := h.reserve
      rcases hreserve with hgives | ⟨htakes, hbegin⟩
      · exact .inl hgives
      · exact .inr ⟨p', ownMarker, before, id, htakes, rfl, rfl, hbegin⟩
  · cases hstep
    exact .inl (h.gives_probePersisted hp)
  · cases hstep
    exact .inl (h.gives_refreshed hp)
  · rename_i id token adapter p'
    split at hstep
    · cases hstep
      exact .inl (h.gives_end hp (.refl id _) rfl)
    · cases hstep
  · cases hstep
    exact .inl (h.gives_launchFails hp)
  · cases hstep
    exact .inl (h.gives_stopped hp)
  · rename_i id token p'
    cases hstep
    exact .inl (h.gives_end hp (releases_endLaunch _ id token) rfl)
  · rename_i id p' liveProbe
    cases hstep
    have hmarked := h.gives_marker id none (opts.decision.probe && liveProbe)
    exact .inl (hmarked.trans (hmarked.leased.gives_idle rfl))
  · cases hstep

theorem Leased.promotionStep {stage : PromotionStage}
    (hcall : s.calls[p]? = some (.promotion locals stage)) (hstep : s.promotionStep config p locals stage e = some s') :
    Gives s s' ∨ ∃ p' id, Takes id s s' ∧ e = .promoteNext p' ∧ stage = .looping ∧ s.slots.getActiveCount < config.maxActive ∧
      s.slots.pickNextPendingForPromotion (config.maxActive - s.slots.getActiveCount) locals.blockedByDependency = some id := by
  have hp := leaseAt_of_call hcall
  unfold LaunchState.promotionStep at hstep
  split at hstep
  · rename_i p'
    cases hstep
    have hnext : Gives s (s.promoteNext config p locals) ∨ _ := h.promoteNext
    rcases hnext with hgives | ⟨id, htakes, hfree, hpick⟩
    · exact .inl hgives
    · exact .inr ⟨p', id, htakes, rfl, rfl, hfree, hpick⟩
  · cases hstep
    exact .inl (h.gives_decided hp)
  · cases hstep
    exact .inl (h.gives_denialPersisted hp)
  · cases hstep
    exact .inl (h.gives_promotionPrepared hp)
  · cases hstep
    exact .inl (h.gives_promotionProbePersisted hp)
  · cases hstep
    exact .inl (h.gives_promotionRefreshed hp)
  · cases hstep
    exact .inl (h.gives_resumed hp)
  · rename_i id token probe adapter p'
    split at hstep
    · cases hstep
      exact .inl (h.gives_keep hp (.refl id _) (h.owned p _ hp).2 rfl)
    · cases hstep
  · rename_i id token probe adapter p'
    cases hstep
    exact .inl (h.gives_keep hp (.refl id _) (h.owned p _ hp).2 rfl)
  · cases hstep
    exact .inl (h.gives_promotionStopped hp)
  · rename_i id token p'
    cases hstep
    exact .inl (h.gives_nextRound hp (.refl id _))
  · rename_i id token p' liveProbe
    cases hstep
    exact .inl (h.gives_nextRound hp (releases_marker _ id none liveProbe))
  · cases hstep

theorem Leased.callStep (hstep : s.callStep config p e = some s') : Gives s s' ∨ ∃ id, Takes id s s' ∧
      ((∃ p' ownMarker before opts, e = .prepared p' true ownMarker before ∧
          s.calls[p]? = some (.launch opts (.preparing id)) ∧ (s.slots.beginReservationWithToken id true).isSome) ∨
        ∃ p' locals, e = .promoteNext p' ∧ s.calls[p]? = some (.promotion locals .looping) ∧
          s.slots.getActiveCount < config.maxActive ∧ s.slots.pickNextPendingForPromotion
            (config.maxActive - s.slots.getActiveCount) locals.blockedByDependency = some id) := by
  obtain ⟨call, hcall, hstep⟩ := bind_eq_some_iff.1 hstep
  cases call with
  | launch opts stage =>
    rcases h.launchStep hcall hstep with hgives | ⟨p', ownMarker, before, id, htakes, he, rfl, hbegin⟩
    · exact .inl hgives
    · exact .inr ⟨id, htakes, .inl ⟨p', ownMarker, before, opts, he, hcall, hbegin⟩⟩
  | promotion locals stage =>
    rcases h.promotionStep hcall hstep with hgives | ⟨p', id, htakes, he, rfl, hfree, hpick⟩
    · exact .inl hgives
    · exact .inr ⟨id, htakes, .inr ⟨p', locals, he, hcall, hfree, hpick⟩⟩

theorem Leased.step (hsettles : SettlesInTime s e) (hstep : s.step config e = some s') :
    Gives s s' ∨ ∃ id, Takes id s s' ∧ TakesAt config s e id := by
  have hother : ∀ p, s.callStep config p e = some s' → (∀ p' ownMarker before, e ≠ .prepared p' true ownMarker before) →
      (∀ p', e ≠ .promoteNext p') → Gives s s' := by
    intro p hcall hprepared hpromote
    rcases h.callStep hcall with hgives | ⟨id, -, ⟨p', ownMarker, before, -, he, -⟩ | ⟨p', -, he, -⟩⟩
    · exact hgives
    · exact absurd he (hprepared p' ownMarker before)
    · exact absurd he (hpromote p')
  cases e with
  | launch opts =>
    cases hstep
    exact .inl h.gives_launch
  | promote =>
    cases hstep
    exact .inl (h.gives_call rfl)
  | attach a =>
    rcases h.attach hstep with hgives | ⟨adapter, task, hadapter, htakes, hget, hlaunch, hocc⟩
    · exact .inl hgives
    · exact .inr ⟨adapter.id, htakes, .inr (.inr ⟨a, adapter, task, rfl, hadapter, rfl, hget, hlaunch, hocc⟩)⟩
  | completeTask id | terminateTask id | cancelTask id =>
    obtain ⟨slots, hslots, rfl⟩ := map_eq_some_iff.1 hstep
    exact .inl (h.gives_transition rfl hslots)
  | deleteTask id =>
    obtain ⟨slots, hslots, rfl⟩ := map_eq_some_iff.1 hstep
    obtain ⟨hrel, hgone⟩ := deleteTask_eq_some hslots
    refine .inl ⟨h.withSlots hrel.toTouches fun task hget => ?_, fun _ => hrel.slotCount_le⟩
    cases hgone.symm.trans hget
  | tick now =>
    cases hstep
    exact .inl (h.gives_tick hsettles)
  | prepared p ok ownMarker before =>
    have hcall : s.callStep config p (.prepared p ok ownMarker before) = some s' := hstep
    rcases h.callStep hcall with hgives | ⟨id, htakes, ⟨p', ownMarker, before, opts, he, hget, hbegin⟩ | ⟨p', -, he, -⟩⟩
    · exact .inl hgives
    · cases he
      exact .inr ⟨id, htakes, .inl ⟨p, _, _, opts, rfl, hget, hbegin⟩⟩
    · cases he
  | promoteNext p =>
    have hcall : s.callStep config p (.promoteNext p) = some s' := hstep
    rcases h.callStep hcall with hgives | ⟨id, htakes, ⟨p', _, _, _, he, -⟩ | ⟨p', locals, he, hget, hfree, hpick⟩⟩
    · exact .inl hgives
    · cases he
    · exact .inr ⟨id, htakes, .inr (.inl ⟨p, locals, rfl, hget, hfree, hpick⟩)⟩
  | created p claimLost | persisted p ok ownMarker | decided p decision | denialPersisted p ok ownMarker
  | probePersisted p ok ownMarker probeActive before refreshed | refreshed p ok ownMarker before | resumed p ok ownMarker before
  | launchSettled p | launchFails p | stopped p cleanupFailed ownMarker replaced | fenced p | registered p liveProbe =>
    exact .inl (hother p hstep nofun nofun)

end

theorem Leased.initial {slots : Slots} (hreservations : slots.launchReservations = .empty)
    (htasks : ∀ id task, slots.tasks.get id = some task → id < slots.nextTask) : Leased (.initial slots) := by
  have hnone : ∀ id r, slots.launchReservations.get id ≠ some r := by
    intro id r hr
    rw [hreservations] at hr
    cases hr
  refine ⟨fun id r hr => absurd hr (hnone id r), htasks, fun id r hr => absurd hr (hnone id r), ?_, ?_⟩
  · intro p l hl
    cases hl
  · intro p p' l l' hl
    cases hl

end Kookr.Launch.LaunchState
