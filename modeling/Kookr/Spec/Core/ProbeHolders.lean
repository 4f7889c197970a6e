import Kookr.Lib.Exec
import Kookr.Lib.History
import Kookr.Spec.Core.LaunchDependencyAdmission
import Mathlib.Data.Int.Notation

/-! The circuit breaker (`src/core/circuit-breaker.ts`) with the calls that go through it. A
call is known by its number among those let through; its function ends at any later time.
The pending reset timer is a flag, which its firing clears. Listeners only look at the
snapshot; what taking it does to the failure window is kept. -/

namespace Kookr.Core

open Kookr.Lib

inductive CircuitBreakerState where
  | closed
  | «open»
  | halfOpen
  deriving DecidableEq

structure CircuitBreakerConfig where
  name : String
  failureThreshold : ℤ := 5
  failureWindowMs : ℤ := 60000
  halfOpenSuccessThreshold : ℤ := 2

structure CircuitBreaker where
  state : CircuitBreakerState
  failureTimestamps : List ℤ
  halfOpenSuccesses : ℤ
  rejectedCalls : ℕ
  tripCount : ℕ
  lastFailureTime : Option ℤ
  lastStateChange : ℤ
  resetTimer : Bool

namespace CircuitBreaker

def new (now : ℤ) : CircuitBreaker := ⟨.closed, [], 0, 0, 0, none, now, false⟩

variable (config : CircuitBreakerConfig)

def recentFailureCount (b : CircuitBreaker) (now : ℤ) : ℤ × CircuitBreaker :=
  let failureTimestamps := b.failureTimestamps.filter fun t => t > now - config.failureWindowMs
  (failureTimestamps.length, { b with failureTimestamps })

/-- With the snapshot that is taken for the listeners. -/
def transition (b : CircuitBreaker) (newState : CircuitBreakerState) (now : ℤ) : CircuitBreaker :=
  if b.state = newState then b
  else
    let b := { b with resetTimer := false, state := newState, lastStateChange := now }
    let b := if newState = .open then { b with tripCount := b.tripCount + 1, resetTimer := true } else b
    let b := if newState = .halfOpen then { b with halfOpenSuccesses := 0 } else b
    let b := if newState = .closed then { b with failureTimestamps := [], halfOpenSuccesses := 0 } else b
    (recentFailureCount config b now).2

def recordSuccess (b : CircuitBreaker) (now : ℤ) : CircuitBreaker :=
  if b.state = .halfOpen then
    let b := { b with halfOpenSuccesses := b.halfOpenSuccesses + 1 }
    if b.halfOpenSuccesses ≥ config.halfOpenSuccessThreshold then transition config b .closed now else b
  else b

def recordFailure (b : CircuitBreaker) (now : ℤ) : CircuitBreaker :=
  let b := { b with lastFailureTime := some now, failureTimestamps := b.failureTimestamps ++ [now] }
  match b.state with
  | .halfOpen => transition config b .open now
  | .closed =>
    let (count, b) := recentFailureCount config b now
    if count ≥ config.failureThreshold then transition config b .open now else b
  | .open => b

def rearm (b : CircuitBreaker) (now : ℤ) : CircuitBreaker :=
  if b.state ≠ .closed then transition config b .closed now else b

def dispose (b : CircuitBreaker) : CircuitBreaker := { b with resetTimer := false }

end CircuitBreaker

/-- What has happened, in order. -/
inductive BreakerEvent where
  /-- The call's function is started. -/
  | started (k : ℕ)
  | rejected
  | succeeded (k : ℕ)
  | failed (k : ℕ)
  | changed (newState : CircuitBreakerState) (byRearm : Bool)
  deriving DecidableEq

structure BreakerRun where
  breaker : CircuitBreaker
  /-- Whether each call has ended. -/
  ended : List Bool
  history : List BreakerEvent

namespace BreakerRun

def initial (now : ℤ) : BreakerRun := ⟨.new now, [], []⟩

/-- Take up the breaker after an operation, and that its state has changed. -/
def update (r : BreakerRun) (breaker : CircuitBreaker) (byRearm : Bool) : BreakerRun :=
  { r with
    breaker
    history := if breaker.state = r.breaker.state then r.history else r.history ++ [.changed breaker.state byRearm] }

inductive Action where
  | call
  | settle (k : ℕ) (succeeds : Bool) (now : ℤ)
  | cooldown (now : ℤ)
  | rearm (now : ℤ)
  | dispose

def step (config : CircuitBreakerConfig) (r : BreakerRun) : Action → Option BreakerRun
  | .call =>
    if r.breaker.state = .open then
      some { r with
        breaker := { r.breaker with rejectedCalls := r.breaker.rejectedCalls + 1 }
        history := r.history ++ [.rejected] }
    else some { r with ended := r.ended ++ [false], history := r.history ++ [.started r.ended.length] }
  | .settle k succeeds now =>
    if r.ended[k]? = some false then
      let r := { r with
        ended := r.ended.set k true
        history := r.history ++ [if succeeds then BreakerEvent.succeeded k else .failed k] }
      some (r.update (if succeeds then r.breaker.recordSuccess config now else r.breaker.recordFailure config now) false)
    else none
  | .cooldown now =>
    if r.breaker.resetTimer then
      some (r.update (CircuitBreaker.transition config { r.breaker with resetTimer := false } .halfOpen now) false)
    else none
  | .rearm now => some (r.update (r.breaker.rearm config now) true)
  | .dispose => some { r with breaker := r.breaker.dispose }

end BreakerRun

end Kookr.Core

/-! Calls of the admission one after another, and a record of what was observed, decided and
completed. A probe that is completed is any probe a caller may hold. -/

namespace Kookr.Core

open Kookr.Lib

inductive AdmissionCall where
  | observe (now : ℤ) (dependencies : Option (List String)) (findings : List DependencyFinding)
  | evaluate (now : ℤ) (dependencies : Option (List String))
  | completeProbe (now : ℤ) (probe : Option LaunchDependencyProbe) (healthy : Bool)
  | releaseProbe (now : ℤ) (probe : Option LaunchDependencyProbe)
  | restoreParked (now : ℤ) (dependencies : List TaskLaunchAdmissionDependency)
  | restoreInterruptedProbe (now : ℤ) (dependencies : List TaskLaunchAdmissionDependency) (ownerToken : String)
  | retainProbeCleanup (now : ℤ) (dependencies : List TaskLaunchAdmissionDependency) (ownerToken : String)
  | releaseInterruptedProbe (now : ℤ) (dependencies : List TaskLaunchAdmissionDependency)
  | settleReconciledProbe (now : ℤ) (dependencies : List TaskLaunchAdmissionDependency) (outcome : ProbeOutcome)
  | restoreSuccessfulProbe (now : ℤ) (dependencies : List String) (probeStartedAt : Option ℤ)
      (latestConfirmedAtByDependency : OrderedMap String ℤ)

inductive CircuitRecord where
  | observed (dependencies : Option (List String)) (findings : List DependencyFinding)
  | evaluated (decision : LaunchDependencyAdmissionDecision)
  | completed (probe : LaunchDependencyProbe) (healthy : Bool) (owned : List String)

namespace LaunchDependencyAdmission

/-- The dependencies that the probe still has the token of. -/
def owned (a : LaunchDependencyAdmission) (probe : LaunchDependencyProbe) : List String :=
  probe.dependencies.filter fun dependency =>
    (a.entries.get dependency).any fun entry => entry.probeToken = some probe.token

def call (a : LaunchDependencyAdmission) : AdmissionCall → LaunchDependencyAdmission
  | .observe now dependencies findings => a.observe now dependencies findings
  | .evaluate now dependencies => (a.evaluate now dependencies).2
  | .completeProbe now probe healthy => a.completeProbe now probe healthy
  | .releaseProbe now probe => a.releaseProbe now probe
  | .restoreParked now dependencies => a.restoreParked now dependencies
  | .restoreInterruptedProbe now dependencies ownerToken => a.restoreInterruptedProbe now dependencies ownerToken
  | .retainProbeCleanup now dependencies ownerToken => a.retainProbeCleanup now dependencies ownerToken
  | .releaseInterruptedProbe now dependencies => a.releaseInterruptedProbe now dependencies
  | .settleReconciledProbe now dependencies outcome => a.settleReconciledProbe now dependencies outcome
  | .restoreSuccessfulProbe now dependencies probeStartedAt latest =>
    a.restoreSuccessfulProbe now dependencies probeStartedAt latest

def records (a : LaunchDependencyAdmission) : AdmissionCall → List CircuitRecord
  | .observe _ dependencies findings => [.observed dependencies findings]
  | .evaluate now dependencies => [.evaluated (a.evaluate now dependencies).1]
  | .completeProbe _ (some probe) healthy => [.completed probe healthy (a.owned probe)]
  | _ => []

end LaunchDependencyAdmission

structure CircuitRun where
  admission : LaunchDependencyAdmission
  history : List CircuitRecord

namespace CircuitRun

def start : CircuitRun := ⟨.new, []⟩

def next (s : CircuitRun) (c : AdmissionCall) : CircuitRun :=
  ⟨s.admission.call c, s.history ++ s.admission.records c⟩

def run (calls : List AdmissionCall) : CircuitRun := calls.foldl next start

end CircuitRun

/-- A confirmed finding for the dependency. -/
def CircuitRecord.confirms (dependency : String) : CircuitRecord → Bool
  | .observed dependencies findings =>
    dependency ∈ uniqueDependencies dependencies &&
      findings.any fun finding => finding.dependency = dependency && finding.isConfirmed
  | _ => false

def AdmissionCall.restoresSuccess : AdmissionCall → Bool
  | .restoreSuccessfulProbe .. => true
  | _ => false

end Kookr.Core

/-! The holders of the recovery probes and the owners of their cleanups. A probe that was admitted
is ended once by its holder, who completes it, releases it, or hands what it covers to a cleanup
owner; a cleanup owner settles a dependency once. Which probe a cleanup takes over and which owner
is settled are not arguments of the calls. -/

namespace Kookr.Core

open Kookr.Lib

structure ProbeHolders where
  admission : LaunchDependencyAdmission
  /-- The admitted probes that have not ended. -/
  outstanding : List LaunchDependencyProbe
  /-- The dependencies and their owners that have not been settled. -/
  cleanup : List (String × String)

inductive HolderEvent where
  | observe (now : ℤ) (dependencies : Option (List String)) (findings : List DependencyFinding)
  | evaluate (now : ℤ) (dependencies : Option (List String))
  | completeProbe (now : ℤ) (probe : LaunchDependencyProbe) (healthy : Bool)
  | releaseProbe (now : ℤ) (probe : LaunchDependencyProbe)
  | retainProbeCleanup (now : ℤ) (probe : LaunchDependencyProbe) (dependencies : List TaskLaunchAdmissionDependency)
      (ownerToken : String)
  | restoreInterruptedProbe (now : ℤ) (dependencies : List TaskLaunchAdmissionDependency) (ownerToken : String)
  | settleReconciledProbe (now : ℤ) (dependencies : List TaskLaunchAdmissionDependency) (outcome : ProbeOutcome)
      (ownerToken : String)
  | releaseInterruptedProbe (now : ℤ) (dependencies : List TaskLaunchAdmissionDependency) (ownerToken : String)

namespace ProbeHolders

def start : ProbeHolders := ⟨.new, [], []⟩

variable (s : ProbeHolders)

def owned (dependencies : List TaskLaunchAdmissionDependency) (ownerToken : String) : List (String × String) :=
  dependencies.map fun d => (d.dependency, ownerToken)

/-- The probes that are outstanding when an evaluation has admitted a launch. -/
def admitted : LaunchDependencyAdmissionDecision → List LaunchDependencyProbe
  | .admits (some probe) => [probe]
  | _ => []

def step : HolderEvent → Option ProbeHolders
  | .observe now dependencies findings => some { s with admission := s.admission.observe now dependencies findings }
  | .evaluate now dependencies =>
    let (decision, admission) := s.admission.evaluate now dependencies
    some { s with admission, outstanding := s.outstanding ++ admitted decision }
  | .completeProbe now probe healthy =>
    if probe ∈ s.outstanding then
      some { s with admission := s.admission.completeProbe now probe healthy, outstanding := s.outstanding.erase probe }
    else none
  | .releaseProbe now probe =>
    if probe ∈ s.outstanding then
      some { s with admission := s.admission.releaseProbe now probe, outstanding := s.outstanding.erase probe }
    else none
  | .retainProbeCleanup now probe dependencies ownerToken =>
    if probe ∈ s.outstanding ∧ ∀ d ∈ probe.dependencies, d ∈ dependencies.map (·.dependency) then
      some ⟨s.admission.retainProbeCleanup now dependencies ownerToken, s.outstanding.erase probe,
        s.cleanup ++ owned dependencies ownerToken⟩
    else none
  | .restoreInterruptedProbe now dependencies ownerToken =>
    some { s with
      admission := s.admission.restoreInterruptedProbe now dependencies ownerToken
      cleanup := s.cleanup ++ owned dependencies ownerToken }
  | .settleReconciledProbe now dependencies outcome ownerToken =>
    if ∀ own ∈ owned dependencies ownerToken, own ∈ s.cleanup then
      some { s with
        admission := s.admission.settleReconciledProbe now dependencies outcome
        cleanup := s.cleanup.filter fun own => own ∉ owned dependencies ownerToken }
    else none
  | .releaseInterruptedProbe now dependencies ownerToken =>
    if ∀ own ∈ owned dependencies ownerToken, own ∈ s.cleanup then
      some { s with
        admission := s.admission.releaseInterruptedProbe now dependencies
        cleanup := s.cleanup.filter fun own => own ∉ owned dependencies ownerToken }
    else none

end ProbeHolders

end Kookr.Core
