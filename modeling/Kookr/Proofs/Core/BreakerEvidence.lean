import Kookr.Spec.Core.ProbeHolders

/-! The breaker closes on successes that were recorded since it became half-open, with no
failure among them, and no call's function is started while it is open. The successes may
come from calls that were started before. -/

namespace Kookr.Core

open Kookr.Lib BreakerEvent

def BreakerEvent.newState : BreakerEvent → Option CircuitBreakerState
  | .changed newState _ => some newState
  | _ => none

def BreakerEvent.isChange (e : BreakerEvent) : Bool := e.newState.isSome

def BreakerEvent.isSuccess : BreakerEvent → Bool
  | .succeeded _ => true
  | _ => false

def stateAfter (history : List BreakerEvent) : CircuitBreakerState :=
  (lastOf newState history).getD .closed

/-- What has happened in the current state. -/
def period (history : List BreakerEvent) : List BreakerEvent := sinceLast isChange history

/-- The breaker closes by itself only when it is half-open, on enough successes of this
period and no failure. -/
def ClosesOnSuccesses (config : CircuitBreakerConfig) (past : List BreakerEvent) (e : BreakerEvent) : Prop :=
  e = .changed .closed false → stateAfter past = .halfOpen ∧ (∀ k, failed k ∉ period past) ∧
    config.halfOpenSuccessThreshold ≤ (period past).countP isSuccess

def StartsUnlessOpen (past : List BreakerEvent) (e : BreakerEvent) : Prop :=
  ∀ k, e = .started k → stateAfter past ≠ .open

variable {config : CircuitBreakerConfig} {history : List BreakerEvent} {b b' : CircuitBreaker} {e : BreakerEvent} {now : ℤ}

theorem stateAfter_concat (history : List BreakerEvent) (e : BreakerEvent) :
    stateAfter (history ++ [e]) = e.newState.getD (stateAfter history) := by
  unfold stateAfter
  rw [lastOf_concat]
  cases e.newState <;> rfl

theorem period_concat (history : List BreakerEvent) (e : BreakerEvent) :
    period (history ++ [e]) = if e.isChange then [] else period history ++ [e] := sinceLast_concat _ _ _

/-- The history says the state of the breaker, and what it has counted in it. -/
structure Explains (history : List BreakerEvent) (b : CircuitBreaker) : Prop where
  state : stateAfter history = b.state
  successes : b.state = .halfOpen → b.halfOpenSuccesses = (period history).countP isSuccess
  failures : b.state = .halfOpen → ∀ k, failed k ∉ period history

/-- The breaker has entered its state, half-open with no success. -/
theorem explains_changed (h : b.state = .halfOpen → b.halfOpenSuccesses = 0) (byRearm : Bool) :
    Explains (history ++ [.changed b.state byRearm]) b := by
  have hperiod : period (history ++ [.changed b.state byRearm]) = [] := period_concat _ _
  refine ⟨stateAfter_concat _ _, ?_, ?_⟩ <;> intro hstate <;> rw [hperiod]
  · exact h hstate
  · exact fun _ => List.not_mem_nil

theorem Explains.concat (h : Explains history b) (hchange : e.newState = none) (hstate : b'.state = b.state)
    (hsuccesses : b.state = .halfOpen → b'.halfOpenSuccesses = b.halfOpenSuccesses + if e.isSuccess then 1 else 0)
    (hfailure : b.state = .halfOpen → ∀ k, e ≠ .failed k) : Explains (history ++ [e]) b' := by
  have hperiod : period (history ++ [e]) = period history ++ [e] := by
    rw [period_concat, isChange, hchange]
    rfl
  refine ⟨?_, ?_, ?_⟩
  · rw [stateAfter_concat, hchange, hstate]
    exact h.state
  · intro hhalf
    rw [hstate] at hhalf
    rw [hperiod, hsuccesses hhalf, h.successes hhalf]
    cases hsuccess : e.isSuccess <;> simp [hsuccess]
  · intro hhalf k hmem
    rw [hstate] at hhalf
    rw [hperiod] at hmem
    rcases List.mem_append.1 hmem with hold | hnew
    · exact h.failures hhalf k hold
    · exact hfailure hhalf k (List.mem_singleton.1 hnew).symm

theorem transition_state (b : CircuitBreaker) (newState : CircuitBreakerState) (now : ℤ) :
    (b.transition config newState now).state = newState := by
  unfold CircuitBreaker.transition
  split
  · assumption
  · cases newState <;> rfl

theorem transition_halfOpen (b : CircuitBreaker) (hstate : b.state ≠ .halfOpen) (now : ℤ) :
    (b.transition config .halfOpen now).halfOpenSuccesses = 0 := by
  unfold CircuitBreaker.transition
  rw [if_neg hstate]
  rfl

theorem recordFailure_state (b : CircuitBreaker) (now : ℤ) :
    (b.recordFailure config now).state = .open ∨ (b.recordFailure config now).state = b.state ∧ b.state = .closed := by
  unfold CircuitBreaker.recordFailure
  cases hstate : b.state with
  | halfOpen => exact .inl (transition_state _ _ _)
  | «open» => exact .inl rfl
  | closed =>
    dsimp only
    split
    · exact .inl (transition_state _ _ _)
    · exact .inr ⟨rfl, rfl⟩

namespace BreakerRun

variable {r r' : BreakerRun}

structure RunOk (config : CircuitBreakerConfig) (r : BreakerRun) : Prop where
  explains : Explains r.history r.breaker
  closes : Along (ClosesOnSuccesses config) r.history
  starts : Along StartsUnlessOpen r.history

theorem update_ok {byRearm : Bool} (hcloses : Along (ClosesOnSuccesses config) r.history)
    (hstarts : Along StartsUnlessOpen r.history) (hsame : b.state = r.breaker.state → Explains r.history b)
    (hhalf : b.state ≠ r.breaker.state → b.state = .halfOpen → b.halfOpenSuccesses = 0)
    (hclose : b.state ≠ r.breaker.state → ClosesOnSuccesses config r.history (.changed b.state byRearm)) :
    RunOk config (r.update b byRearm) := by
  unfold update
  by_cases hstate : b.state = r.breaker.state
  · rw [if_pos hstate]
    exact ⟨hsame hstate, hcloses, hstarts⟩
  · rw [if_neg hstate]
    exact ⟨explains_changed (hhalf hstate) byRearm, hcloses.concat (hclose hstate), hstarts.concat nofun⟩

section

variable (h : RunOk config r)
include h

theorem RunOk.call (hstep : step config r .call = some r') : RunOk config r' := by
  unfold step at hstep
  dsimp only at hstep
  split at hstep
  · cases hstep
    refine ⟨h.explains.concat rfl rfl ?_ nofun, h.closes.concat nofun, h.starts.concat nofun⟩
    exact fun _ => (Int.add_zero _).symm
  · rename_i hopen
    cases hstep
    refine ⟨h.explains.concat rfl rfl ?_ nofun, h.closes.concat nofun, h.starts.concat ?_⟩
    · exact fun _ => (Int.add_zero _).symm
    · intro k _ hstate
      exact hopen (h.explains.state ▸ hstate)

/-- The successes of the period, with this one, have reached the threshold when the breaker
closes. -/
theorem RunOk.success (k : ℕ) (ended : List Bool) (now : ℤ) :
    RunOk config (update { r with ended, history := r.history ++ [.succeeded k] } (r.breaker.recordSuccess config now) false) := by
  have hcloses := h.closes.concat (x := .succeeded k) nofun
  have hstarts := h.starts.concat (x := .succeeded k) nofun
  unfold CircuitBreaker.recordSuccess
  split
  · rename_i hhalf
    have hexplains : Explains (r.history ++ [.succeeded k])
        { r.breaker with halfOpenSuccesses := r.breaker.halfOpenSuccesses + 1 } :=
      h.explains.concat rfl rfl (fun _ => rfl) nofun
    dsimp only
    split
    · rename_i henough
      refine update_ok hcloses hstarts ?_ ?_ ?_
      · intro hstate
        rw [transition_state] at hstate
        cases hstate.trans hhalf
      · intro _ hstate
        rw [transition_state] at hstate
        cases hstate
      · intro _ _
        refine ⟨hexplains.state.trans hhalf, hexplains.failures hhalf, ?_⟩
        rw [← hexplains.successes hhalf]
        exact henough
    · refine update_ok hcloses hstarts (fun _ => hexplains) ?_ ?_
      · exact fun hne => absurd rfl hne
      · exact fun hne => absurd rfl hne
  · rename_i hhalf
    refine update_ok hcloses hstarts (fun _ => ?_) ?_ ?_
    · exact h.explains.concat rfl rfl (fun hstate => absurd hstate hhalf) nofun
    · exact fun hne => absurd rfl hne
    · exact fun hne => absurd rfl hne

theorem RunOk.failure (k : ℕ) (ended : List Bool) (now : ℤ) :
    RunOk config (update { r with ended, history := r.history ++ [.failed k] } (r.breaker.recordFailure config now) false) := by
  have hcloses := h.closes.concat (x := .failed k) nofun
  have hstarts := h.starts.concat (x := .failed k) nofun
  have hnot : (r.breaker.recordFailure config now).state ≠ .halfOpen := by
    rcases recordFailure_state r.breaker now with hopen | ⟨hsame, hclosed⟩
    · rw [hopen]
      exact nofun
    · rw [hsame, hclosed]
      exact nofun
  refine update_ok hcloses hstarts ?_ ?_ ?_
  · intro hstate
    refine ⟨?_, fun hhalf => absurd hhalf hnot, fun hhalf => absurd hhalf hnot⟩
    rw [stateAfter_concat, hstate]
    exact h.explains.state
  · exact fun _ hhalf => absurd hhalf hnot
  · intro hne hclose
    rcases recordFailure_state r.breaker now with hopen | ⟨hsame, -⟩
    · rw [hopen] at hclose
      cases hclose
    · exact absurd hsame hne

theorem RunOk.cooldown (now : ℤ) :
    RunOk config (r.update (CircuitBreaker.transition config { r.breaker with resetTimer := false } .halfOpen now) false) := by
  refine update_ok h.closes h.starts ?_ ?_ ?_
  · intro hstate
    rw [transition_state] at hstate
    unfold CircuitBreaker.transition
    rw [if_pos hstate.symm]
    exact ⟨h.explains.state, h.explains.successes, h.explains.failures⟩
  · intro hne _
    rw [transition_state] at hne
    exact transition_halfOpen { r.breaker with resetTimer := false } (Ne.symm hne) now
  · intro _ hclose
    rw [transition_state] at hclose
    cases hclose

theorem RunOk.rearm (now : ℤ) : RunOk config (r.update (r.breaker.rearm config now) true) := by
  unfold CircuitBreaker.rearm
  split
  · rename_i hopen
    refine update_ok h.closes h.starts ?_ ?_ (fun _ heq => nomatch (changed.inj heq).2)
    · intro hstate
      rw [transition_state] at hstate
      exact absurd hstate.symm hopen
    · intro _ hhalf
      rw [transition_state] at hhalf
      cases hhalf
  · refine update_ok h.closes h.starts (fun _ => h.explains) ?_ (fun _ heq => nomatch (changed.inj heq).2)
    exact fun hne => absurd rfl hne

theorem RunOk.step {a : Action} (hstep : step config r a = some r') : RunOk config r' := by
  cases a with
  | call => exact h.call hstep
  | settle k succeeds now =>
    unfold BreakerRun.step at hstep
    dsimp only at hstep
    split at hstep
    · cases hstep
      cases succeeds with
      | true => exact h.success k _ now
      | false => exact h.failure k _ now
    · cases hstep
  | cooldown now =>
    unfold BreakerRun.step at hstep
    dsimp only at hstep
    split at hstep
    · cases hstep
      exact h.cooldown now
    · cases hstep
  | rearm now =>
    cases hstep
    exact h.rearm now
  | dispose =>
    cases hstep
    exact ⟨⟨h.explains.state, h.explains.successes, h.explains.failures⟩, h.closes, h.starts⟩

end

theorem RunOk.initial (config : CircuitBreakerConfig) (now : ℤ) : RunOk config (.initial now) :=
  ⟨⟨rfl, nofun, nofun⟩, along_nil, along_nil⟩

theorem closes_on_successes (config : CircuitBreakerConfig) (now : ℤ) {actions : List Action} {r : BreakerRun}
    (hrun : exec (step config) (.initial now) actions = some r) :
    stateAfter r.history = r.breaker.state ∧ Along (ClosesOnSuccesses config) r.history ∧ Along StartsUnlessOpen r.history := by
  have hok := exec_preserves (fun _ _ _ h hstep => h.step hstep) (RunOk.initial config now) hrun
  exact ⟨hok.explains.state, hok.closes, hok.starts⟩

/-- Two calls of the half-open period close the breaker, after one call has opened it. -/
def recoveredRun : List Action :=
  [.call, .settle 0 false 1, .cooldown 2, .call, .call, .settle 2 true 3, .settle 1 true 4]

def quickConfig : CircuitBreakerConfig := { name := "quick", failureThreshold := 1 }

theorem closes_on_successes_recoveredRun : ∃ r, exec (step quickConfig) (.initial 0) recoveredRun = some r ∧
    r.breaker.state = .closed ∧ Along (ClosesOnSuccesses quickConfig) r.history ∧ Along StartsUnlessOpen r.history := by
  have hclosed : (exec (step quickConfig) (.initial 0) recoveredRun).map (fun r => r.breaker.state) = some .closed := by
    decide +kernel
  obtain ⟨r, hrun, hr⟩ := Option.map_eq_some_iff.1 hclosed
  exact ⟨r, hrun, hr, (closes_on_successes quickConfig 0 hrun).2⟩

/-- The same when only calls that were started in the period count. -/
def ClosesOnFreshSuccesses (config : CircuitBreakerConfig) (past : List BreakerEvent) (e : BreakerEvent) : Prop :=
  e = .changed .closed false → config.halfOpenSuccessThreshold ≤ (period past).countP fun e =>
    match e with
    | .succeeded k => .started k ∈ period past
    | _ => false

/-- The calls that close the breaker were started before it opened. -/
def staleRun : List Action :=
  [.call, .call, .call, .settle 2 false 1, .cooldown 2, .settle 0 true 3, .settle 1 true 4]

theorem closes_on_stale_successes : ∃ r, exec (step quickConfig) (.initial 0) staleRun = some r ∧
    ¬ Along (ClosesOnFreshSuccesses quickConfig) r.history := by
  refine ⟨_, rfl, fun h => ?_⟩
  have hclosed := h [.started 0, .started 1, .started 2, .failed 2, .changed .open false, .changed .halfOpen false,
    .succeeded 0, .succeeded 1] (.changed .closed false) [] rfl rfl
  exact absurd hclosed (by decide)

end BreakerRun

end Kookr.Core
