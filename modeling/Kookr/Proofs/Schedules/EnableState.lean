import Kookr.Sanity.Schedules.RowChanges

/-! Why a schedule is disabled. The marks of a used up budget may be there on a schedule that an operator
has disabled or that is held, and an edit of the limit reads the marks only. In every run of calls whose
edits resume no such schedule, a disabled schedule stays disabled and an enabled one is ready. -/

namespace Kookr.Schedules

open Kookr.Lib Option

variable {ν : Type}

namespace Schedule

variable {s s' : Schedule ν} {now : ℕ}

/-- An edit of the limit that enables a schedule whose triggers were used up. -/
def resumes (s : Schedule ν) (nextMaxTriggers : Option (Option ℕ)) : Bool :=
  s.wasAutoExhausted &&
    match nextMaxTriggers with
    | none => false
    | some none => true
    | some (some maxTriggers) => s.consumedTriggers < maxTriggers

theorem stopReason_of_wasAutoExhausted (h : s.wasAutoExhausted = true) : s.stopReason ≠ some .consecutiveFailures := by
  intro hpaused
  simp [wasAutoExhausted, hpaused] at h

theorem coherent_created (id : String) (definition : ScheduleDefinition) (enabled : Bool) {maxTriggers : Option ℕ} (now : ℕ)
    (h : maxTriggers.all isValidMaxTriggers = true) : (created id definition enabled maxTriggers now : Schedule ν).Coherent := by
  refine ⟨fun _ => ⟨?_, rfl, rfl, rfl, rfl⟩, nofun⟩
  cases maxTriggers with
  | none => rfl
  | some n =>
    have hpos : 0 < n := by simpa [isValidMaxTriggers] using h
    simp [isTriggerLimitExhausted, created, hpos.ne']

theorem coherent_setEnabled {enabled : Bool} {operatorHold : Option Bool} (h : s.Coherent)
    (hset : s.setEnabled enabled operatorHold now = some s') : s'.enabled = enabled ∧ s'.Coherent := by
  cases enabled with
  | false =>
    obtain ⟨hold, source, heldAt, hfalse⟩ := setEnabled_false (s := s) operatorHold now
    obtain rfl := some.inj (hfalse.symm.trans hset)
    exact ⟨rfl, nofun, h.2⟩
  | true =>
    rw [setEnabled_true, ite_none_left_eq_some, some.injEq] at hset
    obtain ⟨hsome, rfl⟩ := hset
    have hleft : s.isTriggerLimitExhausted = false := eq_false_of_ne_true hsome
    -- a budget that is not used up has no mark
    have hmark : s.stopReason ≠ some .triggerLimitReached := fun hmark => hsome (h.2 hmark)
    have hstop : (if s.stopReason = some .consecutiveFailures then none else s.stopReason) = none := by
      rcases hreason : s.stopReason with _ | _ | _
      · rfl
      · exact absurd hreason hmark
      · rfl
    refine ⟨rfl, fun _ => ⟨hleft, hstop, rfl, rfl, rfl⟩, fun hlimit => ?_⟩
    rw [hstop] at hlimit
    cases hlimit

/-- An edit that leaves the schedule enabled found it enabled or resumes it, and leaves it triggers. -/
theorem computeUpdatedTriggerState_enabled {nextMaxTriggers : Option (Option ℕ)} (h : s.Coherent)
    (henabled : (s.computeUpdatedTriggerState nextMaxTriggers now).enabled = true) :
    (s.enabled = true ∨ s.resumes nextMaxTriggers = true) ∧
      (s.computeUpdatedTriggerState nextMaxTriggers now).isTriggerLimitExhausted = false ∧
      (s.computeUpdatedTriggerState nextMaxTriggers now).stopReason = none := by
  have hnotPaused (hwas : s.wasAutoExhausted = true ∨ s.enabled = true) : s.stopReason ≠ some .consecutiveFailures := by
    rcases hwas with hmarks | hon
    · exact stopReason_of_wasAutoExhausted hmarks
    · simp [(h.1 hon).2.1]
  match nextMaxTriggers with
  | none => exact ⟨.inl henabled, (h.1 henabled).1, (h.1 henabled).2.1⟩
  | some none =>
    have hwas : s.wasAutoExhausted = true ∨ s.enabled = true := by simpa [computeUpdatedTriggerState] using henabled
    refine ⟨?_, rfl, if_neg (hnotPaused hwas)⟩
    exact hwas.symm.imp_right fun hmarks => by simp [resumes, hmarks]
  | some (some maxTriggers) =>
    by_cases hleft : maxTriggers - s.consumedTriggers = 0
    · simp [computeUpdatedTriggerState, hleft] at henabled
    · have hwas : s.wasAutoExhausted = true ∨ s.enabled = true := by
        simpa [computeUpdatedTriggerState, hleft] using henabled
      have hsome : s.consumedTriggers < maxTriggers := by omega
      refine ⟨hwas.symm.imp_right fun hmarks => by simp [resumes, hmarks, hsome], ?_, ?_⟩
      · simp [computeUpdatedTriggerState, hleft, isTriggerLimitExhausted]
      · simp [computeUpdatedTriggerState, hleft, hnotPaused hwas]

theorem computeUpdatedTriggerState_mark {nextMaxTriggers : Option (Option ℕ)} (h : s.Coherent)
    (hmark : (s.computeUpdatedTriggerState nextMaxTriggers now).stopReason = some .triggerLimitReached) :
    (s.computeUpdatedTriggerState nextMaxTriggers now).isTriggerLimitExhausted = true := by
  match nextMaxTriggers with
  | none => exact h.2 hmark
  | some none =>
    simp only [computeUpdatedTriggerState] at hmark
    split_ifs at hmark
    cases hmark
  | some (some maxTriggers) =>
    by_cases hleft : maxTriggers - s.consumedTriggers = 0
    · simp [computeUpdatedTriggerState, hleft, isTriggerLimitExhausted]
    · simp only [computeUpdatedTriggerState, hleft, if_false] at hmark
      split_ifs at hmark
      cases hmark

theorem computeUpdatedTriggerState_id (nextMaxTriggers : Option (Option ℕ)) (now : ℕ) :
    (s.computeUpdatedTriggerState nextMaxTriggers now).id = s.id ∧
      (s.computeUpdatedTriggerState nextMaxTriggers now).operatorHold = s.operatorHold ∧
      (s.computeUpdatedTriggerState nextMaxTriggers now).holdSource = s.holdSource ∧
      (s.computeUpdatedTriggerState nextMaxTriggers now).heldAt = s.heldAt := by
  unfold computeUpdatedTriggerState
  split
  · exact ⟨rfl, rfl, rfl, rfl⟩
  · exact ⟨rfl, rfl, rfl, rfl⟩
  · dsimp only
    split_ifs <;> exact ⟨rfl, rfl, rfl, rfl⟩

theorem coherent_updateDefinition {patch : UpdateScheduleDefinitionInput} (h : s.Coherent)
    (hunheld : s.resumes patch.maxTriggers = true → s.Unheld) (hupdate : s.updateDefinition patch now = some s') :
    s'.id = s.id ∧ s'.Coherent ∧ (s'.enabled = true → s.enabled = true ∨ s.resumes patch.maxTriggers = true) := by
  unfold updateDefinition at hupdate
  rw [ite_none_right_eq_some, some.injEq] at hupdate
  obtain ⟨-, rfl⟩ := hupdate
  obtain ⟨hid, hhold, hsource, hheld⟩ := computeUpdatedTriggerState_id (s := s) patch.maxTriggers now
  refine ⟨hid, ⟨fun henabled => ?_, computeUpdatedTriggerState_mark h⟩, fun henabled => (computeUpdatedTriggerState_enabled h henabled).1⟩
  obtain ⟨hwas, hleft, hstop⟩ := computeUpdatedTriggerState_enabled h henabled
  have hfree : s.Unheld := hwas.elim (fun hon => (h.1 hon).2.2) hunheld
  exact ⟨hleft, hstop, hhold.trans hfree.1, hsource.trans hfree.2.1, hheld.trans hfree.2.2⟩

end Schedule

namespace ScheduleCalls

open ScheduleRows

variable {s s' : ScheduleCalls ν} {e : CallAt ν} {rows : ScheduleRows ν}

/-- An operator's disabled schedules stay so, and what is enabled is ready. -/
structure EnableCoherent (s : ScheduleCalls ν) : Prop where
  disabled : ∀ id ∈ s.disabled, ∀ r, s.schedules.get id = some r → r.enabled = false
  enabled : ∀ id r, s.schedules.get id = some r → r.enabled = true → r.Ready

/-- An edit of the limit resumes no schedule that an operator disabled, and none that is held. -/
def ResumesFree (s : ScheduleCalls ν) (e : CallAt ν) : Prop :=
  match e.call with
  | .updateDefinition id patch => ∀ r ∈ s.schedules.get id, r.resumes patch.maxTriggers = true → id ∉ s.disabled ∧ r.Unheld
  | _ => True

instance ResumesFree.decidable (s : ScheduleCalls ν) (e : CallAt ν) : Decidable (s.ResumesFree e) := by
  unfold ResumesFree
  split <;> infer_instance

structure Inv (s : ScheduleCalls ν) : Prop where
  rows : ∀ id r, s.schedules.get id = some r → r.Coherent
  disabled : ∀ id ∈ s.disabled, ∃ r, s.schedules.get id = some r ∧ r.enabled = false

theorem inv_empty : Inv (empty : ScheduleCalls ν) := ⟨fun _ _ h => (by cases h), fun _ h => (by cases h)⟩

theorem Inv.parks (h : Inv s) (hparks : EachParks s.schedules rows) : Inv { s with schedules := rows } where
  rows id r' hr' := by
    obtain ⟨r, hr, hchange⟩ := hparks.some hr'
    exact hchange.coherent (h.rows id r hr)
  disabled id hid := by
    obtain ⟨r, hr, hoff⟩ := h.disabled id hid
    obtain ⟨r', hr', hchange⟩ := hparks.of_some hr
    refine ⟨r', hr', eq_false_of_ne_true fun hon => ?_⟩
    rw [hchange.enabled hon] at hoff
    cases hoff

theorem Inv.replace (h : Inv s) {r : Schedule ν} {disabled : List String} (hcoherent : r.Coherent) (hoff : r.id ∈ disabled → r.enabled = false)
    (hdisabled : ∀ id ∈ disabled, id ≠ r.id → id ∈ s.disabled) : Inv { s with schedules := s.schedules.replace r, disabled } where
  rows id r' hr' := by
    rw [get_replace] at hr'
    split at hr'
    · cases hr'
      exact hcoherent
    · exact h.rows id r' hr'
  disabled id hid := by
    rw [get_replace]
    split
    · next heq =>
      subst heq
      exact ⟨r, rfl, hoff hid⟩
    · next hne => exact h.disabled id (hdisabled id hid (Ne.symm hne))

theorem Inv.createDefinition (h : Inv s) {id : String} {definition : ScheduleDefinition} {enabled : Bool} {maxTriggers : Option ℕ} {now : ℕ}
    (hnew : s.schedules.get id = none) :
    Inv { s with schedules := s.schedules.createDefinition id definition enabled maxTriggers now } := by
  unfold ScheduleRows.createDefinition
  split
  · exact h
  · next r hr =>
    rw [Schedule.create, ite_none_right_eq_some, some.injEq] at hr
    obtain ⟨hvalid, rfl⟩ := hr
    refine h.replace (Schedule.coherent_created id definition enabled now hvalid) (fun hid => ?_) fun _ hid _ => hid
    obtain ⟨r, hr, -⟩ := h.disabled id hid
    rw [hnew] at hr
    cases hr

theorem Inv.updateDefinition (h : Inv s) {id : String} {patch : Schedule.UpdateScheduleDefinitionInput} {now : ℕ}
    (hfree : ∀ r ∈ s.schedules.get id, r.resumes patch.maxTriggers = true → id ∉ s.disabled ∧ r.Unheld) :
    Inv { s with schedules := s.schedules.updateDefinition id patch now } := by
  rcases update_cases id (fun schedule => schedule.updateDefinition patch now) s.schedules with
    ⟨hsame, -⟩ | ⟨r, r', hr, hupdate, hreplace⟩
  · rw [ScheduleRows.updateDefinition, hsame]
    exact h
  · rw [ScheduleRows.updateDefinition, hreplace]
    obtain ⟨hid, hcoherent, hwas⟩ := Schedule.coherent_updateDefinition (h.rows id r hr) (fun hresumes => (hfree r hr hresumes).2) hupdate
    have hkey : r'.id = id := hid.trans (s.schedules.keyed id r hr)
    refine h.replace hcoherent (fun hmem => eq_false_of_ne_true fun hon => ?_) fun _ hmem _ => hmem
    rw [hkey] at hmem
    rcases hwas hon with hwasOn | hresumes
    · obtain ⟨r₀, hr₀, hoff⟩ := h.disabled id hmem
      obtain rfl := some.inj (hr.symm.trans hr₀)
      rw [hwasOn] at hoff
      cases hoff
    · exact (hfree r hr hresumes).1 hmem

theorem Inv.setEnabled (h : Inv s) (id : String) (enabled : Bool) (operatorHold : Option Bool) (now : ℕ) :
    Inv (s.setEnabled id enabled operatorHold now) := by
  unfold ScheduleCalls.setEnabled
  rcases setEnabled_cases s.schedules id enabled operatorHold now with ⟨hcannot, hsame⟩ | ⟨r, r', hcan, hr, hset, hkey, hreplace⟩
  · rw [if_pos hcannot, hsame]
    exact h
  · rw [if_neg (by simp [hcan]), hreplace]
    obtain ⟨hflag, hcoherent⟩ := Schedule.coherent_setEnabled (h.rows id r hr) hset
    refine h.replace hcoherent (fun hmem => ?_) fun other hmem hne => ?_
    · cases enabled with
      | false => exact hflag
      | true => simp [hkey] at hmem
    · rw [hkey] at hne
      cases enabled with
      | false => exact List.mem_of_ne_of_mem hne hmem
      | true => exact (List.mem_filter.1 hmem).1

theorem inv_step (h : Inv s) (hok : s.ResumesFree e) (hstep : s.step e = some s') : Inv s' := by
  obtain ⟨call, threshold, now⟩ := e
  cases call with
  | createDefinition id definition enabled maxTriggers =>
    simp only [step, ite_none_left_eq_some, some.injEq, Bool.not_eq_true, isSome_eq_false_iff, isNone_iff_eq_none] at hstep
    obtain ⟨hnew, rfl⟩ := hstep
    exact h.createDefinition hnew
  | updateDefinition id patch =>
    cases hstep
    exact h.updateDefinition hok
  | setEnabled id enabled operatorHold =>
    cases hstep
    exact h.setEnabled id enabled operatorHold now
  | archive id =>
    cases hstep
    exact h.parks (eachParks_archive id)
  | unarchive id =>
    cases hstep
    exact h.parks (eachParks_unarchive id)
  | fireWrite id write =>
    cases hstep
    exact h.parks (eachParks_fireWrite id write threshold now)
  | recordTaskTerminalOutcome terminal =>
    cases hstep
    exact h.parks (eachParks_recordTaskTerminalOutcome terminal threshold now)
  | enforceFailureAutoPauses =>
    cases hstep
    exact h.parks (eachParks_enforceFailureAutoPauses threshold now)

theorem enable_state_coherent (calls : List (CallAt ν)) (s : ScheduleCalls ν) (hrun : exec step empty calls = some s)
    (hok : StepsMeet step ResumesFree empty calls) : EnableCoherent s := by
  have h : Inv s := exec_invariant (fun _ _ _ => inv_step) inv_empty hok hrun
  refine ⟨fun id hid r hr => ?_, fun id r hr => (h.rows id r hr).1⟩
  obtain ⟨r₀, hr₀, hoff⟩ := h.disabled id hid
  obtain rfl := some.inj (hr₀.symm.trans hr)
  exact hoff

/-- A schedule runs once, an operator disables it, and its limit is lowered to what is used up and raised again. -/
def limitEdits (resume : List (ScheduleCall ℕ)) : List (CallAt ℕ) :=
  let before : List (ScheduleCall ℕ) :=
    [.createDefinition "s" ⟨"* * * * *", false, false⟩ true (some 2),
      .fireWrite "s" (.reserveExecution 0 .cron .cronDue (some 5)),
      .fireWrite "s" (.markExecutionAccepted ⟨0, .cron, .cronDue, some 5, 5, none, .reserved⟩ "t" false false none),
      .setEnabled "s" false none]
  let edits : List (ScheduleCall ℕ) := [.updateDefinition "s" ⟨none, some (some 1)⟩, .updateDefinition "s" ⟨none, some (some 3)⟩]
  (before ++ resume ++ edits).map fun call => ⟨call, 3, 7⟩

/-- The operator has enabled it again by then. -/
theorem enable_state_coherent_limitEdits : ∃ s : ScheduleCalls ℕ, exec step empty (limitEdits [.setEnabled "s" true none]) = some s ∧
    StepsMeet step ResumesFree empty (limitEdits [.setEnabled "s" true none]) ∧ EnableCoherent s := by
  obtain ⟨s, hrun⟩ : ∃ s, exec step (empty : ScheduleCalls ℕ) (limitEdits [.setEnabled "s" true none]) = some s := ⟨_, rfl⟩
  have hok : StepsMeet step ResumesFree (empty : ScheduleCalls ℕ) (limitEdits [.setEnabled "s" true none]) := by decide +kernel
  exact ⟨s, hrun, hok, enable_state_coherent _ s hrun hok⟩

/-- The higher limit enables the schedule that the operator disabled. -/
theorem limit_edit_enables : ¬∀ (calls : List (CallAt ℕ)) (s : ScheduleCalls ℕ), exec step empty calls = some s → EnableCoherent s := by
  intro h
  obtain ⟨s, hrun⟩ : ∃ s, exec step (empty : ScheduleCalls ℕ) (limitEdits []) = some s := ⟨_, rfl⟩
  have hon : (exec step (empty : ScheduleCalls ℕ) (limitEdits [])).all (fun s =>
      "s" ∈ s.disabled ∧ (s.schedules.get "s").any fun r => r.enabled) = true := by
    decide +kernel
  rw [hrun, all_some, decide_eq_true_eq, any_eq_true] at hon
  obtain ⟨hdisabled, r, hr, hon⟩ := hon
  rw [(h _ s hrun).disabled "s" hdisabled r hr] at hon
  cases hon

end ScheduleCalls

end Kookr.Schedules
