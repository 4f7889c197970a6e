import Kookr.Spec.Server.TaskStateSaveScheduler

/-! What the steps of the save scheduler do to its saves, and what follows from that alone: a save
stays at its number with the requests it covers, its result is final, and the save in flight is
the one started last. -/

namespace Kookr.Server.SaveScheduler

open Kookr.Lib Option

variable {s s' : SaveScheduler} {c k : ℕ} {call : FlushCall} {options : RetryOptions}

theorem requestSave_eq (s : SaveScheduler) (reason : TaskStateSaveReason) : ∃ timer, s.requestSave reason =
      { s with requests := s.requests + 1, dirty := true, latestReason := reason, timer } := by
  unfold requestSave
  dsimp only
  split
  · exact ⟨s.timer, rfl⟩
  · split
    · exact ⟨s.timer, rfl⟩
    · exact ⟨true, rfl⟩

theorem scheduleRetry_eq (s : SaveScheduler) (options : RetryOptions) (now : ℤ) : ∃ retryAttempt retryStartedAtMs retryTimer,
      s.scheduleRetry options now = { s with retryAttempt, retryStartedAtMs, retryTimer } := by
  unfold scheduleRetry
  split
  · exact ⟨_, _, _, rfl⟩
  · split
    · exact ⟨_, _, _, rfl⟩
    · dsimp only
      split
      · exact ⟨_, _, _, rfl⟩
      · exact ⟨_, _, _, rfl⟩

/-- A flush is called: its timers are cleared, and it stands at its first `await` or has ended. -/
theorem flush_eq (s : SaveScheduler) (fromTimer : Bool) (reason : TaskStateSaveReason) (options : FlushTaskStateSaveOptions) :
    ∃ (call : FlushCall) (s₀ : SaveScheduler), call.asked = s.requests ∧ call.options = options ∧ call.stage = .called ∧
      s₀ = { s with timer := false, retryTimer := false, calls := s.calls ++ [call] } ∧
      ((∃ k, s.inFlight = some k ∧ s.flush fromTimer reason options = s₀.setStage s.calls.length (.awaitingInFlight k)) ∨
        s.inFlight = none ∧ s.flush fromTimer reason options = s₀.afterInFlight s.calls.length call) := by
  refine ⟨⟨fromTimer, reason, options, s.requests, .called⟩, _, rfl, rfl, rfl, rfl, ?_⟩
  unfold flush clearPendingTimer
  cases s.inFlight with
  | some k => exact .inl ⟨k, rfl, rfl⟩
  | none => exact .inr ⟨rfl, rfl⟩

theorem wake_cases (h : s.wake c = some s') : ∃ call, s.calls[c]? = some call ∧
    ((∃ p, call.stage = .awaitingInFlight p ∧ s.result p = some true ∧ s' = s.afterInFlight c call) ∨
      (∃ p, call.stage = .saving p ∧ ∃ ok, s.result p = some ok ∧ s' = s.afterSave c call p ok) ∨
      (∃ p, call.stage = .awaitingOther p ∧ s.result p = some true ∧ s' = s.whileDirty c call) ∨
      s' = s.setStage c .rejected) := by
  obtain ⟨call, hcall, h⟩ := bind_eq_some_iff.1 h
  refine ⟨call, hcall, ?_⟩
  cases hstage : call.stage with
  | awaitingInFlight p =>
    rw [hstage] at h
    obtain ⟨ok, hok, rfl⟩ := map_eq_some_iff.1 h
    cases ok with
    | true => exact .inl ⟨p, rfl, hok, rfl⟩
    | false => exact .inr (.inr (.inr rfl))
  | saving p =>
    rw [hstage] at h
    obtain ⟨ok, hok, rfl⟩ := map_eq_some_iff.1 h
    exact .inr (.inl ⟨p, rfl, ok, hok, rfl⟩)
  | awaitingOther p =>
    rw [hstage] at h
    obtain ⟨ok, hok, rfl⟩ := map_eq_some_iff.1 h
    cases ok with
    | true => exact .inr (.inr (.inl ⟨p, rfl, hok, rfl⟩))
    | false => exact .inr (.inr (.inr rfl))
  | called | resolved | rejected | caught =>
    rw [hstage] at h
    cases h

/-- After its own save a flush is rejected, waits for another save, or comes to the end of its
loop. -/
theorem afterSave_cases (s : SaveScheduler) (c : ℕ) (call : FlushCall) (k : ℕ) (ok : Bool) :
    ok = false ∧ s.afterSave c call k ok = (s.saveEnded k ok).setStage c .rejected ∨
      ok = true ∧ (s.saveEnded k ok).inFlight = none ∧ s.afterSave c call k ok = (s.saveEnded k ok).whileDirty c call ∨
      ok = true ∧ ∃ other, s.afterSave c call k ok = (s.saveEnded k ok).setStage c (.awaitingOther other) := by
  unfold afterSave
  cases ok with
  | false => exact .inl ⟨rfl, rfl⟩
  | true =>
    rw [if_pos rfl]
    cases (s.saveEnded k true).inFlight with
    | none => exact .inr (.inl ⟨rfl, rfl, rfl⟩)
    | some other => exact .inr (.inr ⟨rfl, other, rfl⟩)

theorem forall_setStage {P : FlushCall → Prop} {stage : FlushStage} (h : ∀ call ∈ s.calls, P call)
    (hset : ∀ call, s.calls[c]? = some call → P { call with stage }) : ∀ call ∈ (s.setStage c stage).calls, P call := by
  intro call hmem
  obtain ⟨i, hi⟩ := List.mem_iff_getElem?.1 hmem
  have hget : (s.setStage c stage).calls[i]? =
      (fun call => if c = i then { call with stage } else call) <$> s.calls[i]? := List.getElem?_modify _ _ _ _
  rw [hget] at hi
  obtain ⟨old, hold, rfl⟩ := map_eq_some_iff.1 hi
  split
  · rename_i heq
    exact hset old (heq ▸ hold)
  · exact h old (List.mem_of_getElem? hold)

/-- Saves stay at their numbers with what they cover, and a result is final. -/
structure Grows (s s' : SaveScheduler) : Prop where
  requests : s.requests ≤ s'.requests
  saves : ∀ {k : ℕ} {save : Save}, s.saves[k]? = some save → ∃ save', s'.saves[k]? = some save' ∧
    save'.covers = save.covers ∧ (save.result.isSome → save'.result = save.result)

theorem Grows.of_eq (hrequests : s.requests ≤ s'.requests) (hsaves : s'.saves = s.saves) : Grows s s' :=
  ⟨hrequests, fun hsave => ⟨_, hsaves ▸ hsave, rfl, fun _ => rfl⟩⟩

theorem Grows.startSave (s : SaveScheduler) (c : ℕ) (call : FlushCall) : Grows s (s.startSave c call) := by
  refine ⟨Nat.le_refl _, fun {k save} hsave => ⟨save, ?_, rfl, fun _ => rfl⟩⟩
  exact (List.getElem?_append_left (List.getElem?_eq_some_iff.1 hsave).1).trans hsave

theorem Grows.modify {f : Save → Save} {save : Save} (hsave : s.saves[k]? = some save) (hresult : save.result = none)
    (hcovers : ∀ save, (f save).covers = save.covers) (hrequests : s'.requests = s.requests)
    (hsaves : s'.saves = s.saves.modify k f) : Grows s s' := by
  refine ⟨Nat.le_of_eq hrequests.symm, fun {i old} hold => ?_⟩
  rw [hsaves, List.getElem?_modify, hold]
  by_cases hi : k = i
  · subst hi
    obtain rfl := some.inj (hsave.symm.trans hold)
    refine ⟨f save, by simp, hcovers save, ?_⟩
    rw [hresult]
    exact nofun
  · exact ⟨old, by simp [hi], rfl, fun _ => rfl⟩

theorem result_eq_some {ok : Bool} (h : s.result k = some ok) :
    ∃ save, s.saves[k]? = some save ∧ save.result = some ok := bind_eq_some_iff.1 h

/-- The save in flight is the one started last. -/
def InFlightLast (s : SaveScheduler) : Prop := ∀ k, s.inFlight = some k → k + 1 = s.saves.length

theorem InFlightLast.new : InFlightLast .new := by
  intro k hk
  cases hk

theorem InFlightLast.startSave (s : SaveScheduler) (c : ℕ) (call : FlushCall) : InFlightLast (s.startSave c call) := by
  intro k hk
  obtain rfl : s.saves.length = k := some.inj hk
  simp [SaveScheduler.startSave, setStage]

section

variable (h : InFlightLast s)
include h

theorem InFlightLast.afterInFlight (c : ℕ) (call : FlushCall) : InFlightLast (s.afterInFlight c call) := by
  unfold SaveScheduler.afterInFlight
  split
  · exact h
  · exact startSave s c call

theorem InFlightLast.whileDirty (c : ℕ) (call : FlushCall) : InFlightLast (s.whileDirty c call) := by
  unfold SaveScheduler.whileDirty
  split
  · exact startSave s c call
  · exact h

theorem InFlightLast.saveEnded (k : ℕ) (ok : Bool) : InFlightLast (s.saveEnded k ok) := by
  intro i hi
  unfold SaveScheduler.saveEnded at hi
  dsimp only at hi
  split at hi
  · cases hi
  · exact h i hi

theorem InFlightLast.flush (fromTimer : Bool) (reason : TaskStateSaveReason)
    (options : FlushTaskStateSaveOptions) : InFlightLast (s.flush fromTimer reason options) := by
  obtain ⟨call, s₀, -, -, -, rfl, ⟨k, -, heq⟩ | ⟨-, heq⟩⟩ := flush_eq s fromTimer reason options
  · rw [heq]
    exact h
  · rw [heq]
    apply afterInFlight
    exact h

theorem InFlightLast.wake (hwake : s.wake c = some s') : InFlightLast s' := by
  obtain ⟨call, -, ⟨p, -, -, rfl⟩ | ⟨p, -, ok, -, rfl⟩ | ⟨p, -, -, rfl⟩ | rfl⟩ := wake_cases hwake
  · exact h.afterInFlight c call
  · rcases afterSave_cases s c call p ok with ⟨-, heq⟩ | ⟨-, -, heq⟩ | ⟨-, other, heq⟩
    · rw [heq]
      exact h.saveEnded p ok
    · rw [heq]
      exact (h.saveEnded p ok).whileDirty c call
    · rw [heq]
      exact h.saveEnded p ok
  · exact h.whileDirty c call
  · exact h

end

theorem step_rename (h : s.step options (.rename k) = some s') : ∃ save, s.saves[k]? = some save ∧
    save.result = none ∧ save.renamed = false ∧
    s' = { s with saves := s.saves.modify k fun save => { save with renamed := true }, file := s.file ++ [k] } := by
  obtain ⟨save, hsave, h⟩ := bind_eq_some_iff.1 h
  split at h
  · rename_i hready
    exact ⟨save, hsave, hready.1, hready.2, (some.inj h).symm⟩
  · cases h

theorem step_settle {ok : Bool} (h : s.step options (.settle k ok) = some s') : ∃ save, s.saves[k]? = some save ∧
    save.result = none ∧ ∃ retryAttempt retryStartedAtMs,
    s' = { s with
      saves := s.saves.modify k fun save => { save with result := some ok }, retryAttempt, retryStartedAtMs } := by
  obtain ⟨save, hsave, h⟩ := bind_eq_some_iff.1 h
  split at h
  · rename_i hready
    refine ⟨save, hsave, hready.1, ?_⟩
    cases ok with
    | true => exact ⟨0, none, (some.inj h).symm⟩
    | false => exact ⟨s.retryAttempt, s.retryStartedAtMs, (some.inj h).symm⟩
  · cases h

theorem step_timerFires (h : s.step options .timerFires = some s') :
    s' = { s with timer := false }.flush true s.latestReason {} := by
  unfold step at h
  dsimp only at h
  split at h
  · exact (some.inj h).symm
  · cases h

theorem step_retryTimerFires (h : s.step options .retryTimerFires = some s') :
    s' = { s with retryTimer := false }.flush true s.latestReason {} := by
  unfold step at h
  dsimp only at h
  split at h
  · exact (some.inj h).symm
  · cases h

theorem step_catch {now : ℤ} (h : s.step options (.catch c now) = some s') : ∃ retryAttempt retryStartedAtMs retryTimer,
      s' = { s.setStage c .caught with retryAttempt, retryStartedAtMs, retryTimer } := by
  obtain ⟨call, -, h⟩ := bind_eq_some_iff.1 h
  split at h
  · cases h
    exact scheduleRetry_eq _ options now
  · cases h

theorem InFlightLast.step {e : Event} (h : InFlightLast s) (hstep : s.step options e = some s') : InFlightLast s' := by
  cases e with
  | requestSave reason =>
    cases hstep
    obtain ⟨timer, heq⟩ := requestSave_eq s reason
    rw [heq]
    exact h
  | flush reason flushOptions =>
    cases hstep
    exact h.flush false reason flushOptions
  | close =>
    cases hstep
    exact h.flush false .close {}
  | timerFires =>
    obtain rfl := step_timerFires hstep
    exact flush (s := { s with timer := false }) h true s.latestReason {}
  | retryTimerFires =>
    obtain rfl := step_retryTimerFires hstep
    exact flush (s := { s with retryTimer := false }) h true s.latestReason {}
  | rename k =>
    obtain ⟨save, -, -, -, rfl⟩ := step_rename hstep
    exact fun i hi => (h i hi).trans (List.length_modify ..).symm
  | settle k ok =>
    obtain ⟨save, -, -, -, -, rfl⟩ := step_settle hstep
    exact fun i hi => (h i hi).trans (List.length_modify ..).symm
  | wake c => exact h.wake hstep
  | «catch» c now =>
    obtain ⟨-, -, -, rfl⟩ := step_catch hstep
    exact h

end Kookr.Server.SaveScheduler
