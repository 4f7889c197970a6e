import Kookr.Sanity.Launch.CallSteps

/-! The cap on active tasks holds in every run in which a launch that reserves its slot finds one
free. A promotion looks at the count and reserves in one go; a launch looks at it when it creates
its task, and reserves after it has waited for the loadout and the config epoch. -/

namespace Kookr.Launch.LaunchState

open Kookr.Lib Slots LaunchState Nat

/-- The task that a launch reserves next. -/
def reservingTask : Call → Option ℕ
  | .launch _ (.preparing id) => some id
  | _ => none

/-- There is a free slot when a launch reserves one, and when a session is added to a task that
could be launched but has no slot. -/
def TakesFreeSlot (config : LaunchConfig) (s : LaunchState) : Event → Prop
  | .prepared p ok _ _ => ok = true → ∀ call ∈ s.calls[p]?, ∀ id ∈ reservingTask call,
      (s.slots.beginReservationWithToken id true).isSome → s.slots.getActiveCount < config.maxActive
  | .attach a => ∀ adapter ∈ s.adapters[a]?, ∀ task ∈ s.slots.tasks.get adapter.id, task.status.launchable = true →
      s.slots.occupiesSlot adapter.id task = false → s.slots.getActiveCount < config.maxActive
  | _ => True

variable {config : LaunchConfig} {s s' : LaunchState} {e : Event}

instance TakesFreeSlot.decidable (config : LaunchConfig) (s : LaunchState) (e : Event) :
    Decidable (TakesFreeSlot config s e) :=
  match e with
  | .prepared p ok _ _ => inferInstanceAs (Decidable (ok = true → ∀ call ∈ s.calls[p]?, ∀ id ∈ reservingTask call,
      (s.slots.beginReservationWithToken id true).isSome → s.slots.getActiveCount < config.maxActive))
  | .attach a => inferInstanceAs (Decidable (∀ adapter ∈ s.adapters[a]?, ∀ task ∈ s.slots.tasks.get adapter.id,
      task.status.launchable = true → s.slots.occupiesSlot adapter.id task = false →
        s.slots.getActiveCount < config.maxActive))
  | .launch .. | .created .. | .persisted .. | .promote | .promoteNext .. | .decided .. | .denialPersisted ..
  | .probePersisted .. | .refreshed .. | .resumed .. | .launchSettled .. | .launchFails .. | .stopped .. | .fenced ..
  | .registered .. | .completeTask .. | .terminateTask .. | .cancelTask .. | .deleteTask .. | .tick .. => isTrue trivial

structure WithinCap (config : LaunchConfig) (s : LaunchState) : Prop where
  leased : Leased s
  active : s.slots.getActiveCount ≤ config.maxActive

theorem TakesAt.free {id : ℕ} (h : TakesAt config s e id) (hfree : TakesFreeSlot config s e) :
    s.slots.getActiveCount < config.maxActive := by
  rcases h with ⟨p, ownMarker, before, opts, rfl, hcall, hbegin⟩ | ⟨p, locals, rfl, -, hlt, -⟩ |
    ⟨a, adapter, task, rfl, hadapter, rfl, hget, hlaunch, hocc⟩
  · exact hfree rfl _ hcall id rfl hbegin
  · exact hlt
  · exact hfree adapter hadapter task hget hlaunch hocc

theorem WithinCap.step (h : WithinCap config s) (hok : SettlesInTime s e ∧ TakesFreeSlot config s e)
    (hstep : s.step config e = some s') : WithinCap config s' := by
  rcases h.leased.step hok.1 hstep with hgives | ⟨id, htakes, hat⟩
  · refine ⟨hgives.leased, ?_⟩
    have hle := hgives.slots fun _ => true
    rw [slotCount_true, slotCount_true] at hle
    exact le_trans hle h.active
  · refine ⟨htakes.leased, ?_⟩
    have hle := htakes.touches.slotCount_le_succ (q := fun _ => true)
    rw [slotCount_true, slotCount_true] at hle
    exact le_trans hle (hat.free hok.2)

/-- The run starts with no launch under way and no more tasks in progress than the cap allows. -/
theorem active_within_cap (config : LaunchConfig) {slots : Slots} (hreservations : slots.launchReservations = .empty)
    (htasks : ∀ id task, slots.tasks.get id = some task → id < slots.nextTask)
    (hactive : slots.getActiveCount ≤ config.maxActive) {events : List Event} {s : LaunchState}
    (hsettles : StepsMeet (step config) SettlesInTime (.initial slots) events)
    (hfree : StepsMeet (step config) (TakesFreeSlot config) (.initial slots) events)
    (hrun : exec (step config) (.initial slots) events = some s) : s.slots.getActiveCount ≤ config.maxActive := by
  have hstart : WithinCap config (.initial slots) := ⟨.initial hreservations htasks, hactive⟩
  have hok := exec_invariant (fun _ _ _ h hok hstep => WithinCap.step h hok hstep) hstart (hsettles.and hfree) hrun
  exact hok.active

def oneSlot : LaunchConfig := ⟨1, 50, 0, []⟩

def plainLaunch : LaunchOptions := ⟨none, none, false, false, .undeclared⟩

/-- The second task waits in the queue, and is promoted when the first is done. -/
def queuedRun : List Event :=
  [.launch plainLaunch, .created 0 false, .prepared 0 true true none, .launch plainLaunch, .created 1 false, .attach 0,
    .launchSettled 0, .tick 60000, .completeTask 0, .promote, .promoteNext 2, .decided 2 .undeclared,
    .prepared 2 true true none, .resumed 2 true true none, .attach 1]

theorem active_within_cap_queuedRun : ∃ s, exec (step oneSlot) (.initial (.empty 0)) queuedRun = some s ∧
    (s.slots.tasks.entries.map fun e => e.2.status) = [.completed, .inProgress] ∧ s.slots.getActiveCount ≤ oneSlot.maxActive := by
  have hsettles : StepsMeet (step oneSlot) SettlesInTime (.initial (.empty 0)) queuedRun := by decide +kernel
  have hfree : StepsMeet (step oneSlot) (TakesFreeSlot oneSlot) (.initial (.empty 0)) queuedRun := by
    decide +kernel
  have htasks : ∀ id task, (Slots.empty 0).tasks.get id = some task → id < (Slots.empty 0).nextTask := by
    intro id task hget
    cases hget
  exact ⟨_, rfl, rfl, active_within_cap oneSlot rfl htasks (zero_le _) hsettles hfree rfl⟩

/-- Two launches look at the count before either has reserved its slot. -/
def racingRun : List Event :=
  [.launch plainLaunch, .launch plainLaunch, .created 0 false, .created 1 false, .prepared 0 true true none,
    .prepared 1 true true none]

theorem launches_exceed_cap : ∃ s, exec (step oneSlot) (.initial (.empty 0)) racingRun = some s ∧
    StepsMeet (step oneSlot) SettlesInTime (.initial (.empty 0)) racingRun ∧
    s.slots.getActiveCount = 2 ∧ ¬ s.slots.getActiveCount ≤ oneSlot.maxActive := by
  refine ⟨_, rfl, ?_, rfl, ?_⟩
  · decide +kernel
  · decide +kernel

/-- No two calls launch one task. While a call holds the reservation of a task that can be launched, the reservation on record
is its own, and nobody can reserve the task again. -/
theorem reservations_exclusive (config : LaunchConfig) {slots : Slots} (hreservations : slots.launchReservations = .empty)
    (htasks : ∀ id task, slots.tasks.get id = some task → id < slots.nextTask) {events : List Event} {s : LaunchState}
    (hsettles : StepsMeet (step config) SettlesInTime (.initial slots) events)
    (hrun : exec (step config) (.initial slots) events = some s) :
    (∀ p p' l l', s.leaseAt p = some l → s.leaseAt p' = some l' → l.id = l'.id → p = p') ∧
      ∀ p l, s.leaseAt p = some l → (∀ counts, s.slots.beginReservationWithToken l.id counts = none) ∧
        ∀ task, s.slots.tasks.get l.id = some task → task.status.launchable = true →
          s.slots.ownsLaunchReservation l.id l.token = true ∧ s.slots.hasForeignFreshLaunchReservation l.id l.token = false := by
  have hstep : ∀ s e s', Leased s → SettlesInTime s e → step config s e = some s' → Leased s' := by
    intro s e s' h hok hstep
    rcases h.step hok hstep with hgives | ⟨_, htakes, _⟩
    · exact hgives.leased
    · exact htakes.leased
  have hleased := exec_invariant hstep (.initial hreservations htasks) hsettles hrun
  refine ⟨hleased.distinct, fun p l hl => ⟨fun counts => ?_, fun task hget hlaunch => ?_⟩⟩
  · rw [Option.eq_none_iff_forall_ne_some]
    exact fun begun => (hleased.owned p l hl).2.not_begin hleased.fresh
  · obtain ⟨r, hr, htoken, -⟩ := (hleased.owned p l hl).2 task hget hlaunch
    simp [ownsLaunchReservation, hasForeignFreshLaunchReservation, hr, hleased.fresh _ r hr, htoken]

theorem reservations_exclusive_queuedRun : ∃ s l, exec (step oneSlot) (.initial (.empty 0)) (queuedRun.take 12) = some s ∧
    s.leaseAt 2 = some l ∧ s.slots.beginReservationWithToken l.id true = none := by
  have hsettles : StepsMeet (step oneSlot) SettlesInTime (.initial (.empty 0)) (queuedRun.take 12) := by decide +kernel
  have htasks : ∀ id task, (Slots.empty 0).tasks.get id = some task → id < (Slots.empty 0).nextTask := by
    intro id task hget
    cases hget
  exact ⟨_, _, rfl, rfl, ((reservations_exclusive oneSlot rfl htasks hsettles rfl).2 2 _ rfl).1 true⟩

end Kookr.Launch.LaunchState

/-! The reserved slots stay free of unprivileged tasks, in every run of one call after another in
which the queue keeps them free too. A launch counts against the reduced limit; a promotion counts
against the whole one, and picks without a look at the reservation. -/

namespace Kookr.Launch.LaunchState

open Kookr.Lib Slots

variable {config : LaunchConfig} {s s' : LaunchState} {e : Event} {p id token : ℕ} {opts : LaunchOptions}
  {locals : Promotion}

/-- The slots of the tasks whose launch was not privileged. -/
def unprivilegedCount (s : LaunchState) : ℕ := s.slots.slotCount fun privileged => !privileged

def live : Call → Bool
  | .launch _ .ended => false
  | .promotion _ .ended => false
  | _ => true

/-- The call has the slot of the task. -/
def holdsSlot (id : ℕ) (call : Call) : Bool := call.lease.any fun l => l.id = id && l.countsAsActive

/-- A call starts when every other has ended, and a session is added to the task that a call is
launching. -/
def OneAtATime (s : LaunchState) : Event → Prop
  | .launch _ => ∀ call ∈ s.calls, live call = false
  | .promote => ∀ call ∈ s.calls, live call = false
  | .attach a => ∀ adapter ∈ s.adapters[a]?, ∃ call ∈ s.calls, holdsSlot adapter.id call = true
  | _ => True

/-- The blocked tasks of a promotion at the head of its loop. -/
def loopHead : Call → Option (List ℕ)
  | .promotion locals .looping => some locals.blockedByDependency
  | _ => none

/-- The task that the promotion takes from the queue. -/
def picks (config : LaunchConfig) (s : LaunchState) (p : ℕ) : Option ℕ :=
  (s.calls[p]?.bind loopHead).bind fun blocked =>
    if s.slots.getActiveCount < config.maxActive then
      s.slots.pickNextPendingForPromotion (config.maxActive - s.slots.getActiveCount) blocked
    else none

/-- An unprivileged task leaves the queue when the unprivileged tasks have a slot left. -/
def QueueKeepsReserve (config : LaunchConfig) (s : LaunchState) : Event → Prop
  | .promoteNext p => ∀ id ∈ s.picks config p, ∀ task ∈ s.slots.tasks.get id, task.privileged = false →
      s.unprivilegedCount < config.maxActive - config.reservedActiveSlots
  | _ => True

instance OneAtATime.decidable (s : LaunchState) (e : Event) : Decidable (OneAtATime s e) :=
  match e with
  | .launch _ => inferInstanceAs (Decidable (∀ call ∈ s.calls, live call = false))
  | .promote => inferInstanceAs (Decidable (∀ call ∈ s.calls, live call = false))
  | .attach a => inferInstanceAs (Decidable
      (∀ adapter ∈ s.adapters[a]?, ∃ call ∈ s.calls, holdsSlot adapter.id call = true))
  | .created .. | .persisted .. | .promoteNext .. | .decided .. | .denialPersisted .. | .prepared .. | .probePersisted ..
  | .refreshed .. | .resumed .. | .launchSettled .. | .launchFails .. | .stopped .. | .fenced .. | .registered ..
  | .completeTask .. | .terminateTask .. | .cancelTask .. | .deleteTask .. | .tick .. => isTrue trivial

instance QueueKeepsReserve.decidable (config : LaunchConfig) (s : LaunchState) (e : Event) :
    Decidable (QueueKeepsReserve config s e) :=
  match e with
  | .promoteNext p => inferInstanceAs (Decidable (∀ id ∈ s.picks config p, ∀ task ∈ s.slots.tasks.get id,
      task.privileged = false → s.unprivilegedCount < config.maxActive - config.reservedActiveSlots))
  | .launch .. | .created .. | .persisted .. | .promote | .decided .. | .denialPersisted .. | .prepared ..
  | .probePersisted .. | .refreshed .. | .resumed .. | .attach .. | .launchSettled .. | .launchFails .. | .stopped ..
  | .fenced .. | .registered .. | .completeTask .. | .terminateTask .. | .cancelTask .. | .deleteTask .. | .tick .. =>
    isTrue trivial

/-- The launch has found a slot within its limit, and nothing has taken it since. -/
def Admitted (config : LaunchConfig) (s : LaunchState) (opts : LaunchOptions) (id : ℕ) : Prop :=
  s.slots.getActiveCount < opts.effectiveMaxActive config ∧
    ∀ task, s.slots.tasks.get id = some task → task.privileged = opts.privileged config

/-- One call moves, and is not about to reserve unless it has found a slot. -/
def Moves (config : LaunchConfig) (p : ℕ) (s s' : LaunchState) : Prop :=
  ∃ call, s'.calls = s.calls.set p call ∧ ∀ opts id, call = .launch opts (.preparing id) → Admitted config s' opts id

def preparing : Call → Bool
  | .launch _ (.preparing _) => true
  | _ => false

theorem moves_goto {call : Call} {slots : Slots} (hcall : preparing call = false) : Moves config p s (s.goto p call slots) := by
  refine ⟨call, rfl, ?_⟩
  rintro opts id rfl
  cases hcall

theorem moves_created {claimLost : Bool} : Moves config p s (s.created config p opts claimLost) := by
  unfold created persistQueued
  dsimp only
  split
  · exact moves_goto rfl
  · split
    · split <;> exact moves_goto rfl
    · split
      · split
        · split <;> exact moves_goto rfl
        · split
          · split <;> exact moves_goto rfl
          · exact moves_goto rfl
      · rename_i hfree
        refine ⟨_, rfl, fun opts' id hcall => ?_⟩
        cases hcall
        refine ⟨Nat.lt_of_not_le hfree, fun task hget => ?_⟩
        obtain rfl := Option.some.inj ((OrderedMap.get_set_self _ _ _).symm.trans hget)
        rfl

theorem moves_launchStep {stage : LaunchStage} (hstep : s.launchStep config p opts stage e = some s') :
    Moves config p s s' ∧ stage ≠ .ended := by
  unfold launchStep at hstep
  split at hstep
  · cases hstep
    exact ⟨moves_created, by simp⟩
  · cases hstep
    exact ⟨moves_goto rfl, by simp⟩
  · cases hstep
    refine ⟨?_, by simp⟩
    unfold reserve
    repeat' split
    all_goals exact moves_goto rfl
  · cases hstep
    refine ⟨?_, by simp⟩
    unfold probePersisted
    repeat' split
    all_goals exact moves_goto rfl
  · cases hstep
    refine ⟨?_, by simp⟩
    unfold refreshed
    split <;> exact moves_goto rfl
  · split at hstep
    · cases hstep
      exact ⟨moves_goto rfl, by simp⟩
    · cases hstep
  · cases hstep
    refine ⟨?_, by simp⟩
    unfold launchFails
    split <;> exact moves_goto rfl
  · cases hstep
    refine ⟨?_, by simp⟩
    unfold stopped
    split <;> exact moves_goto rfl
  · cases hstep
    exact ⟨moves_goto rfl, by simp⟩
  · cases hstep
    exact ⟨moves_goto rfl, by simp⟩
  · cases hstep

theorem moves_promotionNotStarted {probe ownMarker : Bool} {before : Option LaunchAdmission} :
    Moves config p s (s.promotionNotStarted p locals id token probe ownMarker before) := by
  unfold promotionNotStarted
  repeat' split
  all_goals exact moves_goto rfl

theorem moves_promotionStep {stage : PromotionStage} (hstep : s.promotionStep config p locals stage e = some s') :
    Moves config p s s' ∧ stage ≠ .ended := by
  unfold promotionStep at hstep
  split at hstep
  · cases hstep
    refine ⟨?_, by simp⟩
    unfold promoteNext
    dsimp only
    repeat' split
    all_goals exact moves_goto rfl
  · cases hstep
    refine ⟨?_, by simp⟩
    unfold decided
    dsimp only
    split
    · exact moves_goto rfl
    · split
      · exact moves_goto rfl
      · split <;> exact moves_goto rfl
  · cases hstep
    refine ⟨?_, by simp⟩
    unfold denialPersisted
    split <;> exact moves_goto rfl
  · cases hstep
    refine ⟨?_, by simp⟩
    unfold promotionPrepared
    split
    · exact moves_promotionNotStarted
    · split <;> exact moves_goto rfl
  · cases hstep
    refine ⟨?_, by simp⟩
    unfold promotionProbePersisted
    split
    · exact moves_promotionNotStarted
    · repeat' split
      all_goals exact moves_goto rfl
  · cases hstep
    refine ⟨?_, by simp⟩
    unfold promotionRefreshed
    split
    · exact moves_goto rfl
    · exact moves_promotionNotStarted
  · cases hstep
    refine ⟨?_, by simp⟩
    unfold resumed
    split
    · exact moves_goto rfl
    · exact moves_promotionNotStarted
  · split at hstep
    · cases hstep
      exact ⟨moves_goto rfl, by simp⟩
    · cases hstep
  · cases hstep
    exact ⟨moves_goto rfl, by simp⟩
  · cases hstep
    refine ⟨?_, by simp⟩
    unfold promotionStopped
    repeat' split
    all_goals exact moves_goto rfl
  · cases hstep
    exact ⟨moves_goto rfl, by simp⟩
  · cases hstep
    exact ⟨moves_goto rfl, by simp⟩
  · cases hstep

theorem moves_callStep (hstep : s.callStep config p e = some s') :
    Moves config p s s' ∧ ∃ call, s.calls[p]? = some call ∧ live call = true := by
  obtain ⟨call, hcall, hstep⟩ := Option.bind_eq_some_iff.1 hstep
  cases call with
  | launch opts stage =>
    obtain ⟨hmoves, hstage⟩ := moves_launchStep hstep
    refine ⟨hmoves, _, hcall, ?_⟩
    cases stage <;> first | rfl | exact absurd rfl hstage
  | promotion locals stage =>
    obtain ⟨hmoves, hstage⟩ := moves_promotionStep hstep
    refine ⟨hmoves, _, hcall, ?_⟩
    cases stage <;> first | rfl | exact absurd rfl hstage

/-- One call is live, it has found its slot before it reserves it, and the reserve is kept. -/
structure Reserve (config : LaunchConfig) (s : LaunchState) : Prop where
  leased : Leased s
  bounded : s.unprivilegedCount ≤ config.maxActive - config.reservedActiveSlots
  single : ∀ (p p' : ℕ) call call', s.calls[p]? = some call → live call = true → s.calls[p']? = some call' → live call' = true → p = p'
  admitted : ∀ (p : ℕ) opts id, s.calls[p]? = some (.launch opts (.preparing id)) → Admitted config s opts id

theorem unprivilegedCount_le (s : LaunchState) : s.unprivilegedCount ≤ s.slots.getActiveCount := by
  refine List.countP_mono_left fun e _ he => ?_
  exact ((Bool.and_eq_true _ _).mp he).1

theorem Takes.privileged (h : Takes id s s') (hpriv : ∀ task, s.slots.tasks.get id = some task → task.privileged = true) :
    s'.unprivilegedCount ≤ s.unprivilegedCount := by
  refine h.touches.slotCount_le fun task' hget' hq => ?_
  obtain ⟨task, hget, heq⟩ := h.touches.kept task' hget'
  rw [heq, hpriv task hget] at hq
  cases hq

theorem OneAtATime.occupied {a : ℕ} {adapter : Adapter} {task : Task} (h : OneAtATime s (.attach a)) (hleased : Leased s)
    (hadapter : s.adapters[a]? = some adapter) (hget : s.slots.tasks.get adapter.id = some task)
    (hlaunch : task.status.launchable = true) : s.slots.occupiesSlot adapter.id task = true := by
  obtain ⟨call, hmem, hholds⟩ := h adapter hadapter
  obtain ⟨p, hp⟩ := List.mem_iff_getElem?.1 hmem
  obtain ⟨l, hl, hid⟩ := (Option.any_eq_true _ _).1 hholds
  simp only [Bool.and_eq_true, decide_eq_true_eq] at hid
  have howned := (hleased.owned p l ((leaseAt_of_call hp).trans hl)).2
  rw [hid.1, hid.2] at howned
  obtain ⟨task', hget', hocc⟩ := howned.occupied hleased.fresh hget hlaunch
  obtain rfl := Option.some.inj (hget.symm.trans hget')
  exact hocc

theorem Reserve.bounded_takes (h : Reserve config s) (hreserved : 0 < config.reservedActiveSlots)
    (hturn : OneAtATime s e) (hqueue : QueueKeepsReserve config s e) (htakes : Takes id s s') (hat : TakesAt config s e id) :
    s'.unprivilegedCount ≤ config.maxActive - config.reservedActiveSlots := by
  have hsucc : s'.unprivilegedCount ≤ s.unprivilegedCount + 1 := htakes.touches.slotCount_le_succ
  rcases hat with ⟨p, ownMarker, before, opts, rfl, hcall, -⟩ | ⟨p, locals, rfl, hcall, hfree, hpick⟩ |
    ⟨a, adapter, task, rfl, hadapter, rfl, hget, hlaunch, hocc⟩
  · obtain ⟨hlt, htask⟩ := h.admitted p opts id hcall
    cases hpriv : opts.privileged config with
    | true => exact le_trans (htakes.privileged fun task hget => (htask task hget).trans hpriv) h.bounded
    | false =>
      unfold LaunchOptions.effectiveMaxActive at hlt
      rw [if_neg (ne_of_gt hreserved), hpriv, if_neg Bool.false_ne_true] at hlt
      have hle := unprivilegedCount_le s
      omega
  · have hpicks : s.picks config p = some id := by
      unfold picks
      rw [hcall]
      show (if s.slots.getActiveCount < config.maxActive then _ else none) = _
      rw [if_pos hfree]
      exact hpick
    cases hpriv : ((s.slots.tasks.get id).any fun task => !task.privileged) with
    | true =>
      obtain ⟨task, hget, hnot⟩ := (Option.any_eq_true _ _).1 hpriv
      have hlt := hqueue id hpicks task hget ((Bool.not_eq_true' _).mp hnot)
      omega
    | false =>
      refine le_trans (htakes.privileged fun task hget => ?_) h.bounded
      rw [hget] at hpriv
      exact (Bool.not_eq_false' _).mp hpriv
  · rw [hturn.occupied h.leased hadapter hget hlaunch] at hocc
    cases hocc

theorem Reserve.bounded_step (h : Reserve config s) (hreserved : 0 < config.reservedActiveSlots)
    (hsettles : SettlesInTime s e) (hturn : OneAtATime s e) (hqueue : QueueKeepsReserve config s e)
    (hstep : s.step config e = some s') : Leased s' ∧ s'.unprivilegedCount ≤ config.maxActive - config.reservedActiveSlots := by
  rcases h.leased.step hsettles hstep with hgives | ⟨id, htakes, hat⟩
  · exact ⟨hgives.leased, le_trans (hgives.slots _) h.bounded⟩
  · exact ⟨htakes.leased, h.bounded_takes hreserved hturn hqueue htakes hat⟩

theorem Reserve.calls_moved (h : Reserve config s) (hstep : s.callStep config p e = some s') :
    (∀ (p₁ p₂ : ℕ) call₁ call₂, s'.calls[p₁]? = some call₁ → live call₁ = true → s'.calls[p₂]? = some call₂ →
      live call₂ = true → p₁ = p₂) ∧
    ∀ (p' : ℕ) opts id, s'.calls[p']? = some (.launch opts (.preparing id)) → Admitted config s' opts id := by
  obtain ⟨⟨call', hcalls, hadmitted⟩, call, hcall, hlive⟩ := moves_callStep hstep
  have hothers : ∀ {p' : ℕ} {other}, s'.calls[p']? = some other → live other = true → p' = p := by
    intro p' other hget hother
    by_cases hp : p = p'
    · exact hp.symm
    · rw [hcalls, List.getElem?_set_ne hp] at hget
      exact h.single p' p other call hget hother hcall hlive
  refine ⟨fun p₁ p₂ _ _ h₁ hl₁ h₂ hl₂ => (hothers h₁ hl₁).trans (hothers h₂ hl₂).symm, fun p' opts id hget => ?_⟩
  obtain rfl := hothers hget rfl
  rw [hcalls, List.getElem?_set] at hget
  rw [if_pos rfl] at hget
  split at hget
  · exact hadmitted opts id (Option.some.inj hget)
  · cases hget

theorem Reserve.admitted_kept (h : Reserve config s) {slots : Slots} (hle : slots.getActiveCount ≤ s.slots.getActiveCount)
    (hkept : ∀ id task', slots.tasks.get id = some task' → ∃ task, s.slots.tasks.get id = some task ∧
      task'.privileged = task.privileged) (p : ℕ) (opts : LaunchOptions) (id : ℕ)
    (hcall : s.calls[p]? = some (.launch opts (.preparing id))) : Admitted config { s with slots } opts id := by
  obtain ⟨hlt, htask⟩ := h.admitted p opts id hcall
  refine ⟨lt_of_le_of_lt hle hlt, fun task' hget' => ?_⟩
  obtain ⟨task, hget, heq⟩ := hkept id task' hget'
  exact heq.trans (htask task hget)

theorem calls_started (call : Call) (hended : ∀ call ∈ s.calls, live call = false)
    (hcall : ∀ opts id, call ≠ .launch opts (.preparing id)) :
    (∀ (p₁ p₂ : ℕ) call₁ call₂, (s.calls ++ [call])[p₁]? = some call₁ → live call₁ = true →
      (s.calls ++ [call])[p₂]? = some call₂ → live call₂ = true → p₁ = p₂) ∧
    ∀ (p' : ℕ) opts id, (s.calls ++ [call])[p']? ≠ some (.launch opts (.preparing id)) := by
  have hlast : ∀ {p' : ℕ} {other}, (s.calls ++ [call])[p']? = some other → live other = true →
      p' = s.calls.length ∧ other = call := by
    intro p' other hget hlive
    rcases lt_or_ge p' s.calls.length with hlt | hge
    · rw [List.getElem?_append_left hlt] at hget
      rw [hended other (List.mem_of_getElem? hget)] at hlive
      cases hlive
    · have hlt := (List.getElem?_eq_some_iff.1 hget).1
      rw [List.length_append, List.length_singleton] at hlt
      obtain rfl : p' = s.calls.length := by omega
      rw [List.getElem?_concat_length] at hget
      exact ⟨rfl, (Option.some.inj hget).symm⟩
  refine ⟨fun p₁ p₂ _ _ h₁ hl₁ h₂ hl₂ => (hlast h₁ hl₁).1.trans (hlast h₂ hl₂).1.symm, fun p' opts id hget => ?_⟩
  exact hcall opts id (hlast hget rfl).2.symm

theorem Touches.all_kept {s s' : Slots} (h : Touches id s s') (k : ℕ) (task' : Task) (hget' : s'.tasks.get k = some task') :
    ∃ task, s.tasks.get k = some task ∧ task'.privileged = task.privileged := by
  by_cases hk : k = id
  · subst hk
    exact h.kept task' hget'
  · exact ⟨task', (h.tasks k hk).symm.trans hget', rfl⟩

theorem Reserve.step (hreserved : 0 < config.reservedActiveSlots) (h : Reserve config s)
    (hok : SettlesInTime s e ∧ OneAtATime s e ∧ QueueKeepsReserve config s e) (hstep : s.step config e = some s') :
    Reserve config s' := by
  obtain ⟨hleased, hbounded⟩ := h.bounded_step hreserved hok.1 hok.2.1 hok.2.2 hstep
  -- a call that goes on, or a task that ends
  have hcall : ∀ p, s.callStep config p e = some s' → Reserve config s' := fun p hcall =>
    ⟨hleased, hbounded, (h.calls_moved hcall).1, (h.calls_moved hcall).2⟩
  have hends : ∀ id status slots, status.isTerminalStatus = true → s.slots.transition id status = some slots →
      s' = { s with slots } → Reserve config s' := by
    intro id status slots hterminal hslots heq
    have hle := (h.leased.gives_transition hterminal hslots).slots fun _ => true
    rw [slotCount_true, slotCount_true] at hle
    have hrel : Releases id s.slots slots := by
      refine releases_transition hslots ?_ ?_ <;> rintro rfl <;> cases hterminal
    subst heq
    exact ⟨hleased, hbounded, h.single, h.admitted_kept hle (Touches.all_kept hrel.toTouches)⟩
  cases e with
  | launch opts =>
    cases hstep
    unfold launch at hleased hbounded ⊢
    dsimp only at hleased hbounded ⊢
    split at hleased
    · rename_i hfull
      rw [if_pos hfull] at hbounded ⊢
      obtain ⟨hsingle, hnone⟩ := calls_started (.launch opts .ended) hok.2.1 fun _ _ h => (by cases h)
      exact ⟨hleased, hbounded, hsingle, fun p' opts id hget => absurd hget (hnone p' opts id)⟩
    · rename_i hfull
      rw [if_neg hfull] at hbounded ⊢
      obtain ⟨hsingle, hnone⟩ := calls_started (.launch opts .syncing) hok.2.1 fun _ _ h => (by cases h)
      exact ⟨hleased, hbounded, hsingle, fun p' opts id hget => absurd hget (hnone p' opts id)⟩
  | promote =>
    cases hstep
    obtain ⟨hsingle, hnone⟩ := calls_started (.promotion ⟨[], []⟩ .looping) hok.2.1 fun _ _ h => (by cases h)
    exact ⟨hleased, hbounded, hsingle, fun p' opts id hget => absurd hget (hnone p' opts id)⟩
  | attach a =>
    have hcalls : s'.calls = s.calls := by
      obtain ⟨adapter, -, hattach⟩ := Option.bind_eq_some_iff.1 hstep
      split at hattach
      · cases hattach
      · split at hattach <;> obtain rfl := Option.some.inj hattach <;> rfl
    refine ⟨hleased, hbounded, hcalls ▸ h.single, fun p opts id hget => ?_⟩
    -- the call that holds the slot is the live one
    rw [hcalls] at hget
    obtain ⟨adapter, hadapter, -⟩ := Option.bind_eq_some_iff.1 hstep
    obtain ⟨call, hmem, hholds⟩ := hok.2.1 adapter hadapter
    obtain ⟨p', hp'⟩ := List.mem_iff_getElem?.1 hmem
    have hlive : live call = true := by
      cases hlive : live call with
      | true => rfl
      | false =>
        unfold live at hlive
        split at hlive <;> first | cases hholds | cases hlive
    obtain rfl := h.single p p' _ call hget rfl hp' hlive
    cases hget.symm.trans hp'
    cases hholds
  | completeTask id =>
    obtain ⟨slots, hslots, rfl⟩ := Option.map_eq_some_iff.1 hstep
    exact hends id .completed slots rfl hslots rfl
  | terminateTask id =>
    obtain ⟨slots, hslots, rfl⟩ := Option.map_eq_some_iff.1 hstep
    exact hends id .terminated slots rfl hslots rfl
  | cancelTask id =>
    obtain ⟨slots, hslots, rfl⟩ := Option.map_eq_some_iff.1 hstep
    exact hends id .cancelled slots rfl hslots rfl
  | deleteTask id =>
    obtain ⟨slots, hslots, rfl⟩ := Option.map_eq_some_iff.1 hstep
    obtain ⟨hrel, -⟩ := deleteTask_eq_some hslots
    have hle := hrel.slotCount_le (q := fun _ => true)
    rw [slotCount_true, slotCount_true] at hle
    exact ⟨hleased, hbounded, h.single, h.admitted_kept hle (Touches.all_kept hrel.toTouches)⟩
  | tick now =>
    cases hstep
    have hle := (h.leased.gives_tick hok.1).slots fun _ => true
    rw [slotCount_true, slotCount_true] at hle
    exact ⟨hleased, hbounded, h.single, h.admitted_kept hle fun _ task hget => ⟨task, hget, rfl⟩⟩
  | created p claimLost | persisted p ok ownMarker | promoteNext p | decided p decision | denialPersisted p ok ownMarker
  | prepared p ok ownMarker before | probePersisted p ok ownMarker probeActive before refreshed | refreshed p ok ownMarker before
  | resumed p ok ownMarker before | launchSettled p | launchFails p | stopped p cleanupFailed ownMarker replaced | fenced p
  | registered p liveProbe => exact hcall p hstep

theorem reserve_kept (config : LaunchConfig) (hreserved : 0 < config.reservedActiveSlots) {slots : Slots}
    (hreservations : slots.launchReservations = .empty) (htasks : ∀ id task, slots.tasks.get id = some task → id < slots.nextTask)
    (hstart : (initial slots).unprivilegedCount ≤ config.maxActive - config.reservedActiveSlots)
    {events : List Event} {s : LaunchState} (hsettles : StepsMeet (step config) SettlesInTime (.initial slots) events)
    (hturn : StepsMeet (step config) OneAtATime (.initial slots) events)
    (hqueue : StepsMeet (step config) (QueueKeepsReserve config) (.initial slots) events)
    (hrun : exec (step config) (.initial slots) events = some s) :
    s.unprivilegedCount ≤ config.maxActive - config.reservedActiveSlots := by
  have hinitial : Reserve config (.initial slots) := by
    refine ⟨.initial hreservations htasks, hstart, ?_, ?_⟩
    · intro p p' call call' hget
      cases hget
    · intro p opts id hget
      cases hget
  have hok := exec_invariant (fun _ _ _ h hok hstep => Reserve.step hreserved h hok hstep) hinitial
    (hsettles.and (hturn.and hqueue)) hrun
  exact hok.bounded

def oneReserved : LaunchConfig := ⟨2, 50, 1, ["kookr"]⟩

def burstLaunch : LaunchOptions := ⟨some "api", some "lucy", false, false, .undeclared⟩

def maintenanceLaunch : LaunchOptions := ⟨some "api", some " kookr ", false, false, .undeclared⟩

def launched (opts : LaunchOptions) (p adapter : ℕ) : List Event :=
  [.launch opts, .created p false, .prepared p true true none, .attach adapter, .launchSettled p, .registered p false]

/-- The second task of a burst waits; it is promoted when the first is done. -/
def maintainedRun : List Event :=
  launched burstLaunch 0 0 ++ [.launch burstLaunch, .created 1 false] ++ launched maintenanceLaunch 2 1 ++
    [.completeTask 0, .promote, .promoteNext 3]

theorem reserve_kept_maintainedRun : ∃ s, exec (step oneReserved) (.initial (.empty 0)) maintainedRun = some s ∧
    s.slots.getActiveCount = 2 ∧ s.unprivilegedCount ≤ oneReserved.maxActive - oneReserved.reservedActiveSlots := by
  have hsettles : StepsMeet (step oneReserved) SettlesInTime (.initial (.empty 0)) maintainedRun := by decide +kernel
  have hturn : StepsMeet (step oneReserved) OneAtATime (.initial (.empty 0)) maintainedRun := by decide +kernel
  have hqueue : StepsMeet (step oneReserved) (QueueKeepsReserve oneReserved) (.initial (.empty 0)) maintainedRun := by
    decide +kernel
  have htasks : ∀ id task, (Slots.empty 0).tasks.get id = some task → id < (Slots.empty 0).nextTask := by
    intro id task hget
    cases hget
  exact ⟨_, rfl, rfl, reserve_kept oneReserved (by decide) rfl htasks (Nat.zero_le _) hsettles hturn hqueue rfl⟩

def burstRun : List Event := launched burstLaunch 0 0 ++ [.launch burstLaunch, .created 1 false, .promote, .promoteNext 2]

theorem queue_takes_reserve : ∃ s, exec (step oneReserved) (.initial (.empty 0)) burstRun = some s ∧
    StepsMeet (step oneReserved) SettlesInTime (.initial (.empty 0)) burstRun ∧
    StepsMeet (step oneReserved) OneAtATime (.initial (.empty 0)) burstRun ∧ s.unprivilegedCount = 2 ∧
    ¬ s.unprivilegedCount ≤ oneReserved.maxActive - oneReserved.reservedActiveSlots := by
  refine ⟨_, rfl, ?_, ?_, rfl, ?_⟩
  · decide +kernel
  · decide +kernel
  · decide +kernel

end Kookr.Launch.LaunchState
