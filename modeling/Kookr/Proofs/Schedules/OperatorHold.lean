import Kookr.Sanity.Schedules.RowChanges

/-! An operator's hold stays. A pass decides on what it has read before its waits, so it may enable a
schedule that an operator has held meanwhile. In every run whose passes re-arm no such schedule, what an
operator holds stays disabled and held until an operator lets it go. -/

namespace Kookr.Schedules

open Kookr.Lib Option

variable {ν : Type}

namespace Schedule

variable {s s' : Schedule ν}

def OperatorHeld (s : Schedule ν) : Prop := s.enabled = false ∧ s.operatorHold = true ∧ s.holdSource = some .operator

theorem Parks.operatorHeld (h : Parks s s') (hheld : s.OperatorHeld) : s'.OperatorHeld := by
  obtain ⟨hoff, hhold, hsource⟩ := hheld
  obtain ⟨hhold', hsource', -⟩ := h.hold hoff
  refine ⟨eq_false_of_ne_true fun hon => ?_, hhold'.trans hhold, hsource'.trans hsource⟩
  rw [h.enabled hon] at hoff
  cases hoff

theorem not_operator_of_rearm {healthOk : Bool} {readyAt : Option ℕ} (h : s.decideTransientFailureRearm healthOk readyAt = .rearm) :
    s.holdSource ≠ some .operator := by
  intro hsource
  simp only [decideTransientFailureRearm, hsource, if_true] at h
  split_ifs at h

theorem setEnabled_held {operatorHold : Option Bool} {now : ℕ}
    (hholds : operatorHold = some true ∨ operatorHold = none ∧ s.definition.criticalAllowlisted = true)
    (h : s.setEnabled false operatorHold now = some s') : s'.OperatorHeld := by
  rcases hholds with rfl | ⟨rfl, hcritical⟩
  · cases h
    exact ⟨rfl, rfl, rfl⟩
  · simp only [setEnabled, storeSetEnabled, hcritical, Bool.false_and, Bool.false_eq_true, if_false, if_true, some.injEq] at h
    obtain rfl := h
    exact ⟨rfl, rfl, rfl⟩

theorem setEnabled_kept {now : ℕ} (hcritical : s.definition.criticalAllowlisted = false) (hheld : s.OperatorHeld)
    (h : s.setEnabled false none now = some s') : s'.OperatorHeld := by
  simp only [setEnabled, storeSetEnabled, hcritical, Bool.false_and, Bool.false_eq_true, if_false, some.injEq] at h
  obtain rfl := h
  exact ⟨rfl, hheld.2⟩

end Schedule

namespace HoldPasses

open ScheduleRows

variable {s s' : HoldPasses ν} {e : HoldEvent ν} {rows : ScheduleRows ν} {id : String} {operatorHold : Option Bool}

/-- What an operator holds is disabled and held. -/
def HoldsKept (s : HoldPasses ν) : Prop := ∀ id ∈ s.held, ∃ r, s.schedules.get id = some r ∧ r.OperatorHeld

/-- A pass that goes on re-arms no schedule that an operator holds by now. -/
def RearmsFree (s : HoldPasses ν) : HoldEvent ν → Prop
  | .resumePass i _ => ∀ pass ∈ s.passes[i]?, ∀ next ∈ pass.kind.next pass.remaining, pass.kind.isOperators = false →
      ∀ r ∈ s.schedules.get next.1.id, r.isTriggerLimitExhausted = false → r.holdSource ≠ some .operator
  | _ => True

instance RearmsFree.decidable (s : HoldPasses ν) (e : HoldEvent ν) : Decidable (s.RearmsFree e) := by
  unfold RearmsFree
  split <;> infer_instance

theorem next_eq_some {kind : HoldPassKind} {rows rest : List (Schedule ν)} {r : Schedule ν} (h : kind.next rows = some (r, rest)) :
    r ∈ rows ∧ kind.selects r = true := by
  induction rows with
  | nil => cases h
  | cons schedule rows ih =>
    unfold HoldPassKind.next at h
    split at h
    · next hselects =>
      cases h
      exact ⟨List.mem_cons_self, hselects⟩
    · obtain ⟨hmem, hselects⟩ := ih h
      exact ⟨List.mem_cons_of_mem _ hmem, hselects⟩

theorem HoldsKept.parks (h : HoldsKept s) (hparks : EachParks s.schedules rows) : HoldsKept { s with schedules := rows } := by
  intro id hid
  obtain ⟨r, hr, hheld⟩ := h id hid
  obtain ⟨r', hr', hchange⟩ := hparks.of_some hr
  exact ⟨r', hr', hchange.operatorHeld hheld⟩

/-- A `setEnabled` that goes through leaves the holds of other schedules, and one that throws leaves all of them. -/
theorem HoldsKept.setEnabled (h : HoldsKept s) {enabled : Bool} {now : ℕ} {held : List String}
    (hthrows : s.schedules.canSetEnabled id enabled = false → held = s.held)
    (hother : ∀ other ∈ held, other ≠ id → other ∈ s.held)
    (hown : id ∈ held → ∀ r r', s.schedules.get id = some r → r.setEnabled enabled operatorHold now = some r' → r'.OperatorHeld) :
    HoldsKept { s with schedules := s.schedules.setEnabled id enabled operatorHold now, held } := by
  rcases setEnabled_cases s.schedules id enabled operatorHold now with ⟨hcannot, hsame⟩ | ⟨r, r', -, hr, hset, hkey, hreplace⟩
  · rw [hsame, hthrows hcannot]
    exact h
  · rw [hreplace]
    intro other hmem
    rw [get_replace, hkey]
    split
    · next heq =>
      subst heq
      exact ⟨r', rfl, hown hmem r r' hr hset⟩
    · next hne => exact h other (hother other hmem (Ne.symm hne))

theorem mem_heldAfter {enabled : Bool} {other : String} (h : other ∈ s.heldAfter id enabled operatorHold)
    (hne : other ≠ id) : other ∈ s.held := by
  unfold heldAfter at h
  split_ifs at h
  · exact h
  · exact (List.mem_filter.1 h).1
  · exact List.mem_of_ne_of_mem hne h
  · exact h

/-- The schedule of a `setEnabled` that goes through is held by it, or was and is left as it is. -/
theorem own_heldAfter {enabled : Bool} (hcan : s.schedules.canSetEnabled id enabled = true)
    (h : id ∈ s.heldAfter id enabled operatorHold) : enabled = false ∧ operatorHold ≠ some false ∧
      (operatorHold = none → (s.schedules.get id).any (fun schedule => schedule.definition.criticalAllowlisted) = false → id ∈ s.held) := by
  unfold heldAfter at h
  rw [if_neg (by simp [hcan])] at h
  split_ifs at h with hlets hholds
  · simp [release] at h
  · simp only [Bool.or_eq_true, decide_eq_true_eq, not_or] at hlets
    refine ⟨eq_false_of_ne_true hlets.1, hlets.2, fun hnone hcritical => ?_⟩
    simp [hnone, hcritical] at hholds
  · simp only [Bool.or_eq_true, decide_eq_true_eq, not_or] at hlets
    exact ⟨eq_false_of_ne_true hlets.1, hlets.2, fun _ _ => h⟩

theorem HoldsKept.operator (h : HoldsKept s) (id : String) (enabled : Bool) (operatorHold : Option Bool) (now : ℕ) :
    HoldsKept { s with
      schedules := s.schedules.setEnabled id enabled operatorHold now
      held := s.heldAfter id enabled operatorHold } := by
  refine h.setEnabled (fun hcannot => if_pos hcannot) (fun other hmem hne => mem_heldAfter hmem hne) fun hmem r r' hr hset => ?_
  have hcan : s.schedules.canSetEnabled id enabled = true := canSetEnabled_iff.2 ⟨r, r', hr, hset⟩
  obtain ⟨rfl, hlets, hwas⟩ := own_heldAfter hcan hmem
  match operatorHold with
  | some false => exact absurd rfl hlets
  | some true => exact Schedule.setEnabled_held (.inl rfl) hset
  | none =>
    by_cases hcritical : r.definition.criticalAllowlisted = true
    · exact Schedule.setEnabled_held (.inr ⟨rfl, hcritical⟩) hset
    · have hheld : id ∈ s.held := hwas rfl (by simpa [hr] using hcritical)
      obtain ⟨r₀, hr₀, hoperator⟩ := h id hheld
      obtain rfl := some.inj (hr.symm.trans hr₀)
      exact Schedule.setEnabled_kept (eq_false_of_ne_true hcritical) hoperator hset

/-- A pass enables what an operator asks for, or a schedule that no operator holds by now. -/
theorem HoldsKept.advance (h : HoldsKept s) {kind : HoldPassKind} {rows : List (Schedule ν)} (now : ℕ)
    (hfree : ∀ next ∈ kind.next rows, kind.isOperators = false →
      ∀ r ∈ s.schedules.get next.1.id, r.isTriggerLimitExhausted = false → r.holdSource ≠ some .operator) :
    HoldsKept (s.advance kind rows now).1 := by
  unfold HoldPasses.advance
  split
  · exact h
  · next schedule rest hnext =>
    split_ifs with hoperators
    · exact h.operator schedule.id true none now
    · refine h.setEnabled (fun _ => rfl) (fun other hmem _ => hmem) fun hmem r r' hr hset => ?_
      have hleft : r.isTriggerLimitExhausted = false := by
        rw [Schedule.setEnabled_true, ite_none_left_eq_some] at hset
        exact eq_false_of_ne_true hset.1
      obtain ⟨r₀, hr₀, hoperator⟩ := h _ hmem
      obtain rfl := some.inj (hr.symm.trans hr₀)
      exact absurd hoperator.2.2 (hfree _ hnext (eq_false_of_ne_true hoperators) r hr hleft)

theorem HoldsKept.startPass (h : HoldsKept s) (kind : HoldPassKind) (now : ℕ) : HoldsKept (s.startPass kind now) := by
  refine h.advance now fun next hnext hdaemon r hr _ => ?_
  obtain ⟨hmem, hselects⟩ := next_eq_some hnext
  obtain rfl := some.inj ((mem_list.1 hmem).1.symm.trans hr)
  cases kind with
  | rearmTransientFailureHolds healthOk readyAt =>
    simp only [HoldPassKind.selects, Bool.and_eq_true, decide_eq_true_eq] at hselects
    exact Schedule.not_operator_of_rearm hselects.1
  | recoverConsecutiveFailureHolds heldBefore => cases hdaemon

theorem holdsKept_step (h : HoldsKept s) (hok : s.RearmsFree e) (hstep : s.step e = some s') : HoldsKept s' := by
  cases e with
  | setEnabled id enabled operatorHold now =>
    cases hstep
    exact h.operator id enabled operatorHold now
  | fireWrite id write threshold now =>
    cases hstep
    exact h.parks (eachParks_fireWrite id write threshold now)
  | taskTerminal terminal threshold now =>
    cases hstep
    exact h.parks (eachParks_recordTaskTerminalOutcome terminal threshold now)
  | enforceFailureAutoPauses threshold now =>
    cases hstep
    exact h.parks (eachParks_enforceFailureAutoPauses threshold now)
  | startPass kind now =>
    cases hstep
    exact h.startPass kind now
  | resumePass i now =>
    obtain ⟨pass, hpass, rfl⟩ := map_eq_some_iff.1 hstep
    exact h.advance now (hok pass hpass)

theorem operator_hold_kept (schedules : ScheduleRows ν) (events : List (HoldEvent ν)) (s : HoldPasses ν)
    (hrun : exec step (start schedules) events = some s) (hok : StepsMeet step RearmsFree (start schedules) events) : HoldsKept s :=
  exec_invariant (fun _ _ _ => holdsKept_step) (fun _ h => (by cases h)) hok hrun

def pausedRows : ScheduleRows ℕ :=
  let paused (id : String) : Schedule ℕ :=
    { (Schedule.created id ⟨"* * * * *", false, false⟩ true none 0).autoPaused 3 with
      consecutiveFailures := 3
      latestExecution := some ⟨some 0, some 2, 2, none, .cron, none, .dispatchFailed, some .launchError⟩ }
  (ScheduleRows.empty.replace (paused "a")).replace (paused "b")

/-- A pass enables the first of them, and while it waits an operator holds one of them. -/
def holdDuringPass (id : String) : List (HoldEvent ℕ) :=
  [.startPass (.rearmTransientFailureHolds true (some 5)) 6, .setEnabled id false (some true) 7, .resumePass 0 8]

/-- The one that is enabled already. -/
theorem operator_hold_kept_first : ∃ s, exec step (start pausedRows) (holdDuringPass "a") = some s ∧
    StepsMeet step RearmsFree (start pausedRows) (holdDuringPass "a") ∧ HoldsKept s := by
  obtain ⟨s, hrun⟩ : ∃ s, exec step (start pausedRows) (holdDuringPass "a") = some s := ⟨_, rfl⟩
  have hok : StepsMeet step RearmsFree (start pausedRows) (holdDuringPass "a") := by decide +kernel
  exact ⟨s, hrun, hok, operator_hold_kept pausedRows _ s hrun hok⟩

/-- The one that the pass enables next. -/
theorem rearm_lifts_operator_hold : ¬∀ (schedules : ScheduleRows ℕ) (events : List (HoldEvent ℕ)) (s : HoldPasses ℕ),
    exec step (start schedules) events = some s → HoldsKept s := by
  intro h
  obtain ⟨s, hrun⟩ : ∃ s, exec step (start pausedRows) (holdDuringPass "b") = some s := ⟨_, rfl⟩
  have hon : (exec step (start pausedRows) (holdDuringPass "b")).all (fun s =>
      "b" ∈ s.held ∧ (s.schedules.get "b").all fun r => r.enabled) = true := by
    decide +kernel
  rw [hrun, all_some, decide_eq_true_eq] at hon
  obtain ⟨r, hr, hoff, -⟩ := h pausedRows _ s hrun "b" hon.1
  rw [hr, all_some, hoff] at hon
  cases hon.2

end HoldPasses

end Kookr.Schedules
