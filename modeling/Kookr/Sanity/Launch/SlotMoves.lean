import Kookr.Lib.MapRelation
import Kookr.Spec.Launch.LaunchService

/-! What the operations of the store do to its slots. Each touches one task and its reservation;
most of them only give a slot up. The number of slots is counted for the tasks of one kind, which
is all of them or those whose launch was not privileged. -/

namespace Kookr.Launch.Slots

open Kookr.Lib OrderedMap LaunchState Option Bool

variable {s s' s'' : Slots} {id k token : ℕ} {status : TaskStatus} {q : Bool → Bool} {f : Task → Task}

def Occupied (s : Slots) (id : ℕ) : Prop := ∃ task, s.tasks.get id = some task ∧ s.occupiesSlot id task = true

/-- The slots of the tasks of a kind. -/
def slotCount (q : Bool → Bool) (s : Slots) : ℕ := s.tasks.entries.countP fun e => s.occupiesSlot e.1 e.2 && q e.2.privileged

theorem slotCount_true (s : Slots) : s.slotCount (fun _ => true) = s.getActiveCount := by
  unfold slotCount getActiveCount
  simp only [Bool.and_true]

/-- The reservation under the token stands as long as the task can be launched. -/
def Owned (s : Slots) (id token : ℕ) (countsAsActive : Bool) : Prop :=
  ∀ task, s.tasks.get id = some task → task.status.launchable = true →
    ∃ r, s.launchReservations.get id = some r ∧ r.token = token ∧ r.countsAsActive = countsAsActive

/-- Nothing but the task and its reservation changes. A reservation that is made is made now. -/
structure Touches (id : ℕ) (s s' : Slots) : Prop where
  tasks : ∀ k, k ≠ id → s'.tasks.get k = s.tasks.get k
  reservations : ∀ k, k ≠ id → s'.launchReservations.get k = s.launchReservations.get k
  kept : ∀ task', s'.tasks.get id = some task' → ∃ task, s.tasks.get id = some task ∧ task'.privileged = task.privileged
  reserved : ∀ r, s'.launchReservations.get id = some r →
    s.launchReservations.get id = some r ∨ r.reservedAt = s.now ∧ (s.tasks.get id).isSome
  now : s'.now = s.now
  nextTask : s'.nextTask = s.nextTask

/-- The task takes no slot that it did not have. -/
structure Releases (id : ℕ) (s s' : Slots) : Prop extends Touches id s s' where
  occupied : s'.Occupied id → s.Occupied id

theorem Touches.refl (id : ℕ) (s : Slots) : Touches id s s :=
  ⟨fun _ _ => rfl, fun _ _ => rfl, fun task h => ⟨task, h, rfl⟩, fun _ => .inl, rfl, rfl⟩

theorem Touches.trans (h : Touches id s s') (h' : Touches id s' s'') : Touches id s s'' := by
  refine ⟨?_, ?_, ?_, ?_, h'.now.trans h.now, h'.nextTask.trans h.nextTask⟩
  · exact fun k hk => (h'.tasks k hk).trans (h.tasks k hk)
  · exact fun k hk => (h'.reservations k hk).trans (h.reservations k hk)
  · intro task'' hget''
    obtain ⟨task', hget', hp'⟩ := h'.kept task'' hget''
    obtain ⟨task, hget, hp⟩ := h.kept task' hget'
    exact ⟨task, hget, hp'.trans hp⟩
  · intro r hr
    rcases h'.reserved r hr with hr' | ⟨hat, hsome⟩
    · exact h.reserved r hr'
    · refine .inr ⟨hat.trans h.now, ?_⟩
      obtain ⟨task', hget'⟩ := isSome_iff_exists.1 hsome
      obtain ⟨task, hget, -⟩ := h.kept task' hget'
      rw [hget]
      rfl

theorem Releases.refl (id : ℕ) (s : Slots) : Releases id s s := ⟨Touches.refl id s, fun h => h⟩

theorem Releases.trans (h : Releases id s s') (h' : Releases id s' s'') : Releases id s s'' :=
  ⟨h.toTouches.trans h'.toTouches, fun hocc => h.occupied (h'.occupied hocc)⟩

theorem hasFreshActive_congr (hr : s'.launchReservations.get k = s.launchReservations.get k) (hnow : s'.now = s.now) :
    s'.hasFreshActiveLaunchReservation k = s.hasFreshActiveLaunchReservation k := by
  unfold hasFreshActiveLaunchReservation fresh
  rw [hr, hnow]

theorem occupiesSlot_congr (hr : s'.launchReservations.get k = s.launchReservations.get k) (hnow : s'.now = s.now)
    (task : Task) : s'.occupiesSlot k task = s.occupiesSlot k task := by
  unfold occupiesSlot
  rw [hasFreshActive_congr hr hnow]

theorem Touches.slotCount_le (h : Touches id s s')
    (hocc : ∀ task', s'.tasks.get id = some task' → q task'.privileged = true → s'.Occupied id → s.Occupied id) :
    s'.slotCount q ≤ s.slotCount q := by
  refine countP_le (fun k task => s.occupiesSlot k task && q task.privileged)
    (fun k task => s'.occupiesSlot k task && q task.privileged) fun k task' hget' hp => ?_
  obtain ⟨hslot, hq⟩ := (and_eq_true _ _).mp hp
  by_cases hk : k = id
  · subst hk
    obtain ⟨task, hget, hslot⟩ := hocc task' hget' hq ⟨task', hget', hslot⟩
    obtain ⟨task₁, hget₁, hpriv⟩ := h.kept task' hget'
    obtain rfl := some.inj (hget.symm.trans hget₁)
    exact ⟨task, hget, (and_eq_true _ _).mpr ⟨hslot, hpriv ▸ hq⟩⟩
  · refine ⟨task', (h.tasks k hk).symm.trans hget', (and_eq_true _ _).mpr ⟨?_, hq⟩⟩
    rw [← occupiesSlot_congr (h.reservations k hk) h.now]
    exact hslot

theorem Releases.slotCount_le (h : Releases id s s') : s'.slotCount q ≤ s.slotCount q :=
  h.toTouches.slotCount_le fun _ _ _ => h.occupied

theorem Touches.slotCount_le_succ (h : Touches id s s') : s'.slotCount q ≤ s.slotCount q + 1 := by
  refine countP_le_succ (fun k task => s.occupiesSlot k task && q task.privileged)
    (fun k task => s'.occupiesSlot k task && q task.privileged) id fun k task' hget' hp => ?_
  obtain ⟨hslot, hq⟩ := (and_eq_true _ _).mp hp
  by_cases hk : k = id
  · exact .inl hk
  · refine .inr ⟨task', (h.tasks k hk).symm.trans hget', (and_eq_true _ _).mpr ⟨?_, hq⟩⟩
    rw [← occupiesSlot_congr (h.reservations k hk) h.now]
    exact hslot

theorem get_update (s : Slots) (id : ℕ) (f : Task → Task) (k : ℕ) :
    (s.update id f).tasks.get k = if k = id then (s.tasks.get id).map f else s.tasks.get k := by
  unfold update
  cases hget : s.tasks.get id with
  | none =>
    by_cases hk : k = id
    · rw [if_pos hk, hk]
      exact hget
    · rw [if_neg hk]
  | some task =>
    rw [get_set]
    by_cases hk : k = id
    · rw [if_pos hk, if_pos hk.symm]
      rfl
    · rw [if_neg hk, if_neg (Ne.symm hk)]

theorem update_rest (s : Slots) (id : ℕ) (f : Task → Task) :
    (s.update id f).launchReservations = s.launchReservations ∧ (s.update id f).now = s.now ∧
      (s.update id f).nextTask = s.nextTask := by
  unfold update
  split
  · exact ⟨rfl, rfl, rfl⟩
  · exact ⟨rfl, rfl, rfl⟩

theorem Touches.update (hf : ∀ task, (f task).privileged = task.privileged) (s : Slots) (id : ℕ) :
    Touches id s (s.update id f) := by
  obtain ⟨hres, hnow, hnext⟩ := update_rest s id f
  refine ⟨fun k hk => ?_, fun k _ => by rw [hres], fun task' hget' => ?_, fun r hr => .inl (hres ▸ hr), hnow, hnext⟩
  · rw [get_update, if_neg hk]
  · rw [get_update, if_pos rfl] at hget'
    obtain ⟨task, hget, rfl⟩ := map_eq_some_iff.1 hget'
    exact ⟨task, hget, hf task⟩

theorem Releases.update (hf : ∀ task, (f task).privileged = task.privileged)
    (hslot : ∀ task, s.tasks.get id = some task → s.occupiesSlot id (f task) = true → s.occupiesSlot id task = true) :
    Releases id s (s.update id f) := by
  refine ⟨Touches.update hf s id, ?_⟩
  rintro ⟨task', hget', hocc⟩
  obtain ⟨hres, hnow, -⟩ := update_rest s id f
  rw [occupiesSlot_congr (by rw [hres]) hnow] at hocc
  rw [get_update, if_pos rfl] at hget'
  obtain ⟨task, hget, rfl⟩ := map_eq_some_iff.1 hget'
  exact ⟨task, hget, hslot task hget hocc⟩

variable {counts : Bool}

/-- The reservation stands when the task that can be launched could be launched before. -/
theorem Owned.update (h : s.Owned id token counts)
    (hf : ∀ task, s.tasks.get id = some task → (f task).status.launchable = true → task.status.launchable = true) :
    (s.update id f).Owned id token counts := by
  intro task' hget' hlaunch
  rw [get_update, if_pos rfl] at hget'
  obtain ⟨task, hget, rfl⟩ := map_eq_some_iff.1 hget'
  rw [(update_rest s id f).1]
  exact h task hget (hf task hget hlaunch)

theorem releases_setLaunchAdmission (s : Slots) (id : ℕ) (marker : Option LaunchAdmission) :
    Releases id s (s.setLaunchAdmission id marker) := .update (fun _ => rfl) fun _ _ h => h

theorem Owned.setLaunchAdmission (h : s.Owned id token counts) (marker : Option LaunchAdmission) :
    (s.setLaunchAdmission id marker).Owned id token counts := h.update fun _ _ hlaunch => hlaunch

theorem transition_eq_some (h : s.transition id status = some s') : ∃ (task : Task) (marker : Task → Option LaunchAdmission),
    s.tasks.get id = some task ∧ status ∈ VALID_TRANSITIONS task.status ∧
      s' = s.update id fun task => { task with status, launchAdmission := marker task } := by
  unfold transition at h
  split at h
  · cases h
  · rename_i task hget
    split at h
    · rename_i hvalid
      exact ⟨task, _, hget, hvalid, (some.inj h).symm⟩
    · cases h

theorem releases_transition (h : s.transition id status = some s') (hstatus : status ≠ .inProgress)
    (hopen : status ≠ .open) : Releases id s s' := by
  obtain ⟨task, marker, hget, hvalid, rfl⟩ := transition_eq_some h
  refine .update (fun _ => rfl) fun task' hget' hocc => ?_
  unfold occupiesSlot at hocc ⊢
  cases status <;> cases hst : task.status <;> simp_all [VALID_TRANSITIONS, TaskStatus.launchable]

theorem releases_tryTransition (s : Slots) (id : ℕ) (hstatus : status ≠ .inProgress) (hopen : status ≠ .open) :
    Releases id s (s.tryTransition id status) := by
  unfold tryTransition
  cases h : s.transition id status with
  | none => exact .refl id s
  | some s' => exact releases_transition h hstatus hopen

theorem Owned.transition (h : s.Owned id token counts) (htrans : s.transition id status = some s')
    (hopen : status ≠ .open) : s'.Owned id token counts := by
  obtain ⟨task, marker, hget, hvalid, rfl⟩ := transition_eq_some htrans
  refine h.update fun task' hget' hlaunch => ?_
  cases status <;> cases hst : task.status <;> simp_all [VALID_TRANSITIONS, TaskStatus.launchable]

theorem Owned.tryTransition (h : s.Owned id token counts) (hopen : status ≠ .open) :
    (s.tryTransition id status).Owned id token counts := by
  unfold Slots.tryTransition
  cases htrans : s.transition id status with
  | none => exact h
  | some s' => exact h.transition htrans hopen

theorem releases_endLaunch (s : Slots) (id token : ℕ) : Releases id s (s.endLaunch id token) := by
  unfold endLaunch
  split
  · refine ⟨⟨fun _ _ => rfl, fun k hk => ?_, fun task h => ⟨task, h, rfl⟩, fun r hr => ?_, rfl, rfl⟩, ?_⟩
    · rw [get_delete, if_neg (Ne.symm hk)]
    · rw [get_delete, if_pos rfl] at hr
      cases hr
    · rintro ⟨task, hget, hocc⟩
      refine ⟨task, hget, ?_⟩
      unfold occupiesSlot hasFreshActiveLaunchReservation at hocc ⊢
      rw [get_delete, if_pos rfl] at hocc
      simp only [any_none, Bool.and_false, Bool.or_false] at hocc
      rw [hocc, Bool.true_or]
  · exact .refl id s

theorem begin_eq_some (h : s.beginReservationWithToken id counts = some (token, s')) :
    ∃ task, s.tasks.get id = some task ∧ task.status.launchable = true ∧ s.hasFreshLaunchReservation id = false ∧
      Touches id s s' ∧ s'.tasks = s.tasks ∧ s'.launchReservations.get id = some ⟨s.now, token, counts⟩ := by
  unfold beginReservationWithToken at h
  split at h
  · cases h
  · rename_i task hget
    split at h
    · cases h
    · rename_i hlaunch
      split at h
      · cases h
      · rename_i hfree
        obtain ⟨rfl, rfl⟩ := Prod.mk.inj (some.inj h)
        simp only [not_eq_true', not_eq_false, not_eq_true] at hlaunch hfree
        refine ⟨task, hget, hlaunch, hfree, ⟨?_, ?_, ?_, ?_, rfl, rfl⟩, rfl, get_set_self _ _ _⟩
        · exact fun _ _ => rfl
        · exact fun k hk => get_set_of_ne _ _ (Ne.symm hk)
        · exact fun task h => ⟨task, h, rfl⟩
        · intro r hr
          rw [get_set_self] at hr
          cases hr
          exact .inr ⟨rfl, hget ▸ rfl⟩

theorem owned_begin (h : s.beginReservationWithToken id counts = some (token, s')) :
    s'.Owned id token counts := by
  obtain ⟨-, -, -, -, -, -, hget⟩ := begin_eq_some h
  exact fun _ _ _ => ⟨_, hget, rfl, rfl⟩

/-- A reservation for a flush takes no slot. -/
theorem releases_begin (h : s.beginReservationWithToken id false = some (token, s')) : Releases id s s' := by
  obtain ⟨task, hget, hlaunch, -, htouch, htasks, hres⟩ := begin_eq_some h
  refine ⟨htouch, ?_⟩
  rintro ⟨task', hget', hocc⟩
  rw [htasks, hget] at hget'
  cases hget'
  unfold occupiesSlot hasFreshActiveLaunchReservation at hocc
  rw [hres] at hocc
  simp only [any_some, Bool.and_false, Bool.or_false, decide_eq_true_eq] at hocc
  rw [hocc] at hlaunch
  cases hlaunch

def AllFresh (s : Slots) : Prop := ∀ id r, s.launchReservations.get id = some r → s.fresh r = true

theorem Touches.allFresh (h : Touches id s s') (hfresh : s.AllFresh) : s'.AllFresh := by
  intro k r hr
  have hold : s.launchReservations.get k = some r → s'.fresh r = true := by
    intro hget
    have hr := hfresh k r hget
    unfold fresh at hr ⊢
    rw [h.now]
    exact hr
  by_cases hk : k = id
  · subst hk
    rcases h.reserved r hr with hget | ⟨hat, -⟩
    · exact hold hget
    · unfold fresh
      rw [h.now, hat, Int.sub_self]
      decide
  · exact hold ((h.reservations k hk).symm.trans hr)

theorem Owned.occupied (h : s.Owned id token true) (hfresh : s.AllFresh) {task : Task} (hget : s.tasks.get id = some task)
    (hlaunch : task.status.launchable = true) : s.Occupied id := by
  obtain ⟨r, hr, -, hcounts⟩ := h task hget hlaunch
  refine ⟨task, hget, ?_⟩
  unfold occupiesSlot hasFreshActiveLaunchReservation
  rw [hlaunch, hr, any_some, hfresh id r hr, hcounts]
  exact or_true _

theorem Owned.not_begin {counts counts' : Bool} {token' : ℕ} (h : s.Owned id token counts) (hfresh : s.AllFresh) :
    s.beginReservationWithToken id counts' ≠ some (token', s') := by
  intro hbegin
  obtain ⟨task, hget, hlaunch, hfree, -⟩ := begin_eq_some hbegin
  obtain ⟨r, hr, -⟩ := h task hget hlaunch
  unfold hasFreshLaunchReservation at hfree
  rw [hr, any_some, hfresh id r hr] at hfree
  cases hfree

theorem owned_of_not_launchable
    (h : ∀ task, s.tasks.get id = some task → task.status.launchable = false) : s.Owned id token counts := by
  intro task hget hlaunch
  rw [h task hget] at hlaunch
  cases hlaunch

theorem addSession_eq_some (h : s.addSession id = some s') : ∃ task, s.tasks.get id = some task ∧ Touches id s s' ∧
    (∀ task', s'.tasks.get id = some task' → task'.status.launchable = false) ∧
    (task.status.launchable = false → s.Occupied id) := by
  unfold addSession at h
  split at h
  · cases h
  · rename_i task hget
    split at h
    · cases h
    · split at h
      · cases h
      · cases h
        refine ⟨task, hget, ?_, ?_, ?_⟩
        · have hdeleted : Touches id s { s with launchReservations := s.launchReservations.delete id } := by
            refine ⟨fun _ _ => rfl, fun k hk => ?_, fun task h => ⟨task, h, rfl⟩, fun r hr => ?_, rfl, rfl⟩
            · rw [get_delete, if_neg (Ne.symm hk)]
            · rw [get_delete, if_pos rfl] at hr
              cases hr
          refine hdeleted.trans (Touches.update ?_ _ _)
          exact fun _ => rfl
        · intro task' hget'
          rw [get_update, if_pos rfl] at hget'
          obtain ⟨old, -, rfl⟩ := map_eq_some_iff.1 hget'
          cases hlaunch : old.status.launchable with
          | true => rfl
          | false => exact hlaunch
        · intro hlaunch
          refine ⟨task, hget, ?_⟩
          unfold occupiesSlot
          cases hstatus : task.status <;> simp_all [TaskStatus.launchable, TaskStatus.isTerminalStatus]

theorem deleteTask_eq_some (h : s.deleteTask id = some s') : Releases id s s' ∧ s'.tasks.get id = none := by
  unfold deleteTask at h
  split at h
  · cases h
  · split at h
    · cases h
    · cases h
      have hgone : (s.tasks.delete id).get id = none := by
        rw [get_delete, if_pos rfl]
      refine ⟨⟨⟨fun k hk => ?_, fun k hk => ?_, fun task h => ?_, fun r hr => ?_, rfl, rfl⟩, ?_⟩, hgone⟩
      · rw [get_delete, if_neg (Ne.symm hk)]
      · rw [get_delete, if_neg (Ne.symm hk)]
      · cases hgone.symm.trans h
      · rw [get_delete, if_pos rfl] at hr
        cases hr
      · rintro ⟨task, hget, -⟩
        cases hgone.symm.trans hget

theorem statusIs_eq_true {f : TaskStatus → Bool} (h : statusIs s id f = true) :
    ∃ task, s.tasks.get id = some task ∧ f task.status = true := by
  unfold statusIs at h
  cases hget : s.tasks.get id with
  | none =>
    rw [hget] at h
    cases h
  | some task =>
    rw [hget] at h
    exact ⟨task, rfl, h⟩

theorem releases_reopenTask (h : s.reopenTask id = some s') (hstatus : statusIs s id (· = .inProgress) = true) :
    Releases id s s' := by
  obtain ⟨task, hget, hprogress⟩ := statusIs_eq_true hstatus
  unfold reopenTask at h
  split at h
  · cases h
  · obtain ⟨-, marker, -, -, rfl⟩ := transition_eq_some h
    refine .update (fun _ => rfl) fun task' hget' _ => ?_
    obtain rfl := some.inj (hget.symm.trans hget')
    unfold occupiesSlot
    rw [hprogress, Bool.true_or]

theorem releases_repark (s : Slots) (id : ℕ) : Releases id s (reparkAfterFailedProbe s id) := by
  unfold reparkAfterFailedProbe
  split
  · exact releases_setLaunchAdmission s id none
  · refine (releases_setLaunchAdmission s id (some (.parked .dependencyDegraded))).trans ?_
    generalize s.setLaunchAdmission id (some (.parked .dependencyDegraded)) = s₁
    have hreopened : Releases id s₁ (if statusIs s₁ id (· = .inProgress) then (s₁.reopenTask id).getD s₁ else s₁) := by
      split
      · rename_i hprogress
        cases hreopen : s₁.reopenTask id with
        | none => exact .refl id s₁
        | some s₂ => exact releases_reopenTask hreopen hprogress
      · exact .refl id s₁
    dsimp only
    generalize (if statusIs s₁ id (· = .inProgress) then (s₁.reopenTask id).getD s₁ else s₁) = s₂
      at hreopened ⊢
    refine hreopened.trans ?_
    split
    · exact releases_tryTransition _ id nofun nofun
    · exact .refl id _

theorem releases_launchNotStarted (s : Slots) (id token : ℕ) (ownMarker : Bool) :
    Releases id s (launchNotStarted id token s ownMarker) := by
  unfold launchNotStarted
  dsimp only
  generalize (s.tasks.has id && !s.hasForeignFreshLaunchReservation id token && ownMarker) = owns
  have hcleared : Releases id s (if owns then s.setLaunchAdmission id none else s) := by
    split
    · exact releases_setLaunchAdmission s id none
    · exact .refl id s
  have hended := hcleared.trans (releases_endLaunch _ id token)
  split
  · exact hended.trans (releases_tryTransition _ id nofun nofun)
  · exact hended

theorem releases_keepCleanup (howned : s.Owned id token true) (hfresh : s.AllFresh) :
    Releases id s (keepCleanup id s) ∧ (keepCleanup id s).Owned id token true := by
  unfold keepCleanup
  split
  · exact ⟨releases_setLaunchAdmission s id _, howned.setLaunchAdmission _⟩
  · split
    · rename_i hlaunch
      obtain ⟨task, hget, hlaunch⟩ := statusIs_eq_true hlaunch
      refine ⟨?_, howned.tryTransition nofun⟩
      unfold tryTransition
      cases htrans : s.transition id .inProgress with
      | none => exact .refl id s
      | some s' =>
        obtain ⟨-, marker, -, -, rfl⟩ := transition_eq_some htrans
        refine ⟨Touches.update ?_ s id, fun _ => howned.occupied hfresh hget hlaunch⟩
        exact fun _ => rfl
    · exact ⟨.refl id s, howned⟩

end Kookr.Launch.Slots

/-! The reservations that the calls hold. No two calls hold one for the same task, and a call's
reservation stands as long as its task can be launched. All steps keep this, and all but the
reservation of a slot and the attachment of a session take no slot. -/

namespace Kookr.Launch

open Kookr.Lib Slots

structure Lease where
  id : ℕ
  token : ℕ
  countsAsActive : Bool

/-- The reservation a call holds where it stands. -/
def Call.lease : Call → Option Lease
  | .launch _ (.persisting id token) => some ⟨id, token, false⟩
  | .launch _ (.probePersisting id token) => some ⟨id, token, true⟩
  | .launch _ (.refreshing id token) => some ⟨id, token, true⟩
  | .launch _ (.launching id token _) => some ⟨id, token, true⟩
  | .launch _ (.stopping id token) => some ⟨id, token, true⟩
  | .launch _ (.fencing id token) => some ⟨id, token, true⟩
  | .launch _ _ => none
  | .promotion _ (.deciding id token) => some ⟨id, token, true⟩
  | .promotion _ (.denying id token _) => some ⟨id, token, true⟩
  | .promotion _ (.preparing id token _) => some ⟨id, token, true⟩
  | .promotion _ (.probePersisting id token) => some ⟨id, token, true⟩
  | .promotion _ (.refreshing id token) => some ⟨id, token, true⟩
  | .promotion _ (.resuming id token _) => some ⟨id, token, true⟩
  | .promotion _ (.launching id token _ _) => some ⟨id, token, true⟩
  | .promotion _ (.stopping id token _ _) => some ⟨id, token, true⟩
  | .promotion _ (.fencing id token) => some ⟨id, token, true⟩
  | .promotion _ (.registering id token) => some ⟨id, token, true⟩
  | .promotion _ _ => none

namespace LaunchState

variable {s s' s'' : LaunchState} {slots : Slots} {call : Call} {p id token : ℕ} {counts : Bool}

def leaseAt (s : LaunchState) (p : ℕ) : Option Lease := s.calls[p]?.bind Call.lease

structure Leased (s : LaunchState) : Prop where
  fresh : s.slots.AllFresh
  tasks : ∀ id task, s.slots.tasks.get id = some task → id < s.slots.nextTask
  reservations : ∀ id r, s.slots.launchReservations.get id = some r → id < s.slots.nextTask
  owned : ∀ p l, s.leaseAt p = some l → l.id < s.slots.nextTask ∧ s.slots.Owned l.id l.token l.countsAsActive
  distinct : ∀ p p' l l', s.leaseAt p = some l → s.leaseAt p' = some l' → l.id = l'.id → p = p'

/-- No call but this one holds a reservation for the task. -/
def OnlyHere (s : LaunchState) (p id : ℕ) : Prop := ∀ p' l, p' ≠ p → s.leaseAt p' = some l → l.id ≠ id

/-- The step keeps the reservations, and takes no slot. -/
structure Gives (s s' : LaunchState) : Prop where
  leased : Leased s'
  slots : ∀ q, s'.slots.slotCount q ≤ s.slots.slotCount q

theorem Gives.trans (h : Gives s s') (h' : Gives s' s'') : Gives s s'' :=
  ⟨h'.leased, fun q => Nat.le_trans (h'.slots q) (h.slots q)⟩

theorem leaseAt_goto {p' : ℕ} {l : Lease} (h : (s.goto p call slots).leaseAt p' = some l) :
    p' = p ∧ call.lease = some l ∨ p' ≠ p ∧ s.leaseAt p' = some l := by
  unfold leaseAt goto at h
  rw [List.getElem?_set] at h
  by_cases hp : p = p'
  · subst hp
    rw [if_pos rfl] at h
    split at h
    · exact .inl ⟨rfl, h⟩
    · cases h
  · rw [if_neg hp] at h
    exact .inr ⟨Ne.symm hp, h⟩

section

variable (h : Leased s)
include h

theorem Leased.onlyHere (hp : s.leaseAt p = some ⟨id, token, counts⟩) : OnlyHere s p id := by
  intro p' l hne hl heq
  exact hne (h.distinct p' p l _ hl hp heq)

theorem Leased.onlyHere_begin {counts : Bool} {slots : Slots}
    (hbegin : s.slots.beginReservationWithToken id counts = some (token, slots)) : OnlyHere s p id := by
  rintro p' l - hl rfl
  exact (h.owned p' l hl).2.not_begin h.fresh hbegin

/-- The store moves on one task. The reservations for other tasks are held as before. -/
theorem Leased.of_touches (htouch : Touches id s.slots s'.slots)
    (hleases : ∀ p l, s'.leaseAt p = some l → l.id ≠ id ∧ s.leaseAt p = some l ∨
      l.id = id ∧ id < s.slots.nextTask ∧ s'.slots.Owned id l.token l.countsAsActive)
    (hdistinct : ∀ p p' l l', s'.leaseAt p = some l → s'.leaseAt p' = some l' → l.id = l'.id → p = p') : Leased s' := by
  refine ⟨htouch.allFresh h.fresh, ?_, ?_, ?_, hdistinct⟩
  · intro k task hget
    rw [htouch.nextTask]
    by_cases hk : k = id
    · subst hk
      obtain ⟨old, hold, -⟩ := htouch.kept task hget
      exact h.tasks k old hold
    · exact h.tasks k task ((htouch.tasks k hk).symm.trans hget)
  · intro k r hget
    rw [htouch.nextTask]
    by_cases hk : k = id
    · subst hk
      rcases htouch.reserved r hget with hold | ⟨-, hsome⟩
      · exact h.reservations k r hold
      · obtain ⟨task, htask⟩ := Option.isSome_iff_exists.1 hsome
        exact h.tasks k task htask
    · exact h.reservations k r ((htouch.reservations k hk).symm.trans hget)
  · intro p l hl
    rw [htouch.nextTask]
    rcases hleases p l hl with ⟨hid, hl⟩ | ⟨rfl, hlt, howned⟩
    · obtain ⟨hlt, howned⟩ := h.owned p l hl
      refine ⟨hlt, fun task hget hlaunch => ?_⟩
      obtain ⟨r, hr, hfacts⟩ := howned task ((htouch.tasks _ hid).symm.trans hget) hlaunch
      exact ⟨r, (htouch.reservations _ hid).trans hr, hfacts⟩
    · exact ⟨hlt, howned⟩

theorem Leased.goto (htouch : Touches id s.slots slots) (honly : OnlyHere s p id)
    (hlease : ∀ l, call.lease = some l → l.id = id ∧ id < s.slots.nextTask ∧ slots.Owned id l.token l.countsAsActive) :
    Leased (s.goto p call slots) := by
  refine h.of_touches htouch (fun p' l hl => ?_) fun p₁ p₂ l₁ l₂ h₁ h₂ heq => ?_
  · rcases leaseAt_goto hl with ⟨-, hcall⟩ | ⟨hp, hold⟩
    · exact .inr (hlease l hcall)
    · exact .inl ⟨honly p' l hp hold, hold⟩
  · rcases leaseAt_goto h₁ with ⟨hp₁, hcall₁⟩ | ⟨hp₁, hold₁⟩ <;> rcases leaseAt_goto h₂ with ⟨hp₂, hcall₂⟩ | ⟨hp₂, hold₂⟩
    · exact hp₁.trans hp₂.symm
    · exact absurd (heq.symm.trans (hlease l₁ hcall₁).1) (honly p₂ l₂ hp₂ hold₂)
    · exact absurd (heq.trans (hlease l₂ hcall₂).1) (honly p₁ l₁ hp₁ hold₁)
    · exact h.distinct p₁ p₂ l₁ l₂ hold₁ hold₂ heq

theorem Leased.gives_goto (hrel : Releases id s.slots slots) (honly : OnlyHere s p id)
    (hlease : ∀ l, call.lease = some l → l.id = id ∧ id < s.slots.nextTask ∧ slots.Owned id l.token l.countsAsActive) :
    Gives s (s.goto p call slots) := ⟨h.goto hrel.toTouches honly hlease, fun _ => hrel.slotCount_le⟩

theorem Leased.gives_end (hp : s.leaseAt p = some ⟨id, token, counts⟩) (hrel : Releases id s.slots slots)
    (hcall : call.lease = none) : Gives s (s.goto p call slots) := by
  refine h.gives_goto hrel (h.onlyHere hp) fun l hl => ?_
  cases hcall.symm.trans hl

theorem Leased.gives_keep (hp : s.leaseAt p = some ⟨id, token, counts⟩) (hrel : Releases id s.slots slots)
    (howned : slots.Owned id token counts) (hcall : call.lease = some ⟨id, token, counts⟩) : Gives s (s.goto p call slots) := by
  refine h.gives_goto hrel (h.onlyHere hp) fun l hl => ?_
  obtain rfl := Option.some.inj (hcall.symm.trans hl)
  exact ⟨rfl, (h.owned p _ hp).1, howned⟩

theorem Leased.withAdapters (adapters : List Adapter) : Leased { s with adapters } :=
  ⟨h.fresh, h.tasks, h.reservations, h.owned, h.distinct⟩

omit h in
theorem Gives.withAdapters (h : Gives s s') (adapters : List Adapter) : Gives s { s' with adapters } :=
  ⟨h.leased.withAdapters adapters, h.slots⟩

theorem Leased.withCall (hcall : call.lease = none) : Leased { s with calls := s.calls ++ [call] } := by
  have hlease : ∀ p l, ({ s with calls := s.calls ++ [call] } : LaunchState).leaseAt p = some l → s.leaseAt p = some l := by
    intro p l hl
    unfold leaseAt at hl ⊢
    rcases Nat.lt_trichotomy p s.calls.length with hlt | rfl | hgt
    · rwa [List.getElem?_append_left hlt] at hl
    · rw [List.getElem?_concat_length, Option.bind_some, hcall] at hl
      cases hl
    · rw [List.getElem?_eq_none (by simp; omega)] at hl
      cases hl
  exact ⟨h.fresh, h.tasks, h.reservations, fun p l hl => h.owned p l (hlease p l hl),
    fun p p' l l' hl hl' => h.distinct p p' l l' (hlease p l hl) (hlease p' l' hl')⟩

theorem Leased.gives_call (hcall : call.lease = none) : Gives s { s with calls := s.calls ++ [call] } :=
  ⟨h.withCall hcall, fun _ => Nat.le_refl _⟩

theorem Leased.withSlots (htouch : Touches id s.slots slots)
    (hlaunch : ∀ task, slots.tasks.get id = some task → task.status.launchable = false) : Leased { s with slots } := by
  refine h.of_touches htouch (fun p l hl => ?_) h.distinct
  by_cases hid : l.id = id
  · exact .inr ⟨hid, hid ▸ (h.owned p l hl).1, owned_of_not_launchable hlaunch⟩
  · exact .inl ⟨hid, hl⟩

end

end LaunchState

end Kookr.Launch
