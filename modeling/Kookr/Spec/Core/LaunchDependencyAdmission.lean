import Mathlib.Data.Int.Notation
import Kookr.Lib.OrderedMap

/-! The circuit of each launch dependency (`src/core/launch-dependency-admission.ts`). A token is
known by its number. A missing set of cleanup owners is an empty one, and a missing invalidation is
`false`. The clock is read once in a call. -/

namespace Kookr.Core

open Kookr.Lib

inductive LaunchDependencyState where
  | healthy
  | unknown
  | degraded
  | halfOpen
  deriving DecidableEq

/-- A finding of the dependency preflight. -/
structure DependencyFinding where
  dependency : String
  category : String
  summary : Option String
  deriving DecidableEq

structure TaskLaunchAdmissionDependency where
  dependency : String
  state : LaunchDependencyState
  reason : Option String
  deriving DecidableEq

structure LaunchDependencyProbe where
  token : ℕ
  dependencies : List String
  deriving DecidableEq

inductive DenialReason where
  | dependencyDegraded
  | halfOpenProbeBusy
  deriving DecidableEq

inductive LaunchDependencyAdmissionDecision where
  | admits (probe : Option LaunchDependencyProbe)
  | deny (reason : DenialReason) (dependencies : List TaskLaunchAdmissionDependency)
  deriving DecidableEq

inductive ProbeOutcome where
  | parked
  | released
  deriving DecidableEq

structure CircuitEntry where
  state : LaunchDependencyState
  lastChangedAt : ℤ
  reason : Option String
  probeToken : Option ℕ
  /-- A confirmed failure has come since the probe was claimed. -/
  probeInvalidated : Bool
  startupRecoveryOwners : List String
  deriving DecidableEq

structure LaunchDependencyCircuitSnapshot where
  dependency : String
  state : LaunchDependencyState
  lastChangedAt : ℤ
  reason : Option String

def DependencyFinding.isConfirmed (finding : DependencyFinding) : Bool := finding.category ≠ "unknown"

namespace CircuitEntry

def new (now : ℤ) : CircuitEntry := ⟨.healthy, now, none, none, false, []⟩

variable (entry : CircuitEntry) (now : ℤ)

def transition (state : LaunchDependencyState) : CircuitEntry :=
  if entry.state = state then entry else { entry with state, lastChangedAt := now }

/-- The findings are those about this dependency. -/
def observe (relevant : List DependencyFinding) : CircuitEntry :=
  let confirmed := relevant.find? DependencyFinding.isConfirmed
  if entry.startupRecoveryOwners ≠ [] then
    match confirmed with
    | some confirmed => { entry with probeInvalidated := true, reason := confirmed.summary }
    | none => entry
  else if relevant = [] then
    let entry :=
      if entry.state = .degraded then entry.transition now .halfOpen
      else if entry.state ≠ .halfOpen then entry.transition now .healthy
      else entry
    { entry with reason := none }
  else
    match confirmed with
    | some confirmed =>
      transition { entry with
        reason := confirmed.summary
        probeInvalidated := entry.probeInvalidated || entry.probeToken.isSome } now .degraded
    | none =>
      let entry := { entry with reason := relevant.head?.bind DependencyFinding.summary }
      if entry.state = .healthy ∨ entry.state = .unknown then entry.transition now .unknown else entry

/-- The entry is claimed by a probe, or fenced by a cleanup owner. -/
def isBusy : Bool := entry.probeToken.isSome || entry.startupRecoveryOwners ≠ []

def claim (token : ℕ) : CircuitEntry := { entry with probeToken := some token, probeInvalidated := false }

def completeProbe (token : ℕ) (healthy : Bool) : CircuitEntry :=
  if entry.probeToken ≠ some token then entry
  else
    let closes := healthy && !entry.probeInvalidated
    transition { entry with
      probeToken := none
      probeInvalidated := false
      reason := if closes then none else some (entry.reason.getD "Recovery probe failed") } now
      (if closes then .healthy else .degraded)

def releaseProbe (token : ℕ) : CircuitEntry :=
  if entry.probeToken ≠ some token then entry
  else
    let released := { entry with probeToken := none, probeInvalidated := false }
    if entry.probeInvalidated then released.transition now .degraded else released

def restoreParked (parked : TaskLaunchAdmissionDependency) : CircuitEntry :=
  let restoredState : LaunchDependencyState := if parked.state = .halfOpen then .halfOpen else .degraded
  let restored :=
    if entry.state ≠ .degraded ∨ restoredState = .degraded then
      { entry with state := restoredState, reason := some (parked.reason.getD "Dependency was parked before restart") }
    else entry
  { restored with lastChangedAt := now, probeToken := none, probeInvalidated := false, startupRecoveryOwners := [] }

/-- `Set.add`. -/
def addOwner (ownerToken : String) : List String :=
  if ownerToken ∈ entry.startupRecoveryOwners then entry.startupRecoveryOwners
  else entry.startupRecoveryOwners ++ [ownerToken]

def cleanupReason : String := "Interrupted recovery probe cleanup is in progress"

def restoreInterruptedProbe (ownerToken : String) : CircuitEntry :=
  let invalidated := entry.state = .degraded || entry.probeInvalidated
  { state := .halfOpen
    lastChangedAt := now
    reason := if invalidated then entry.reason else some cleanupReason
    probeToken := none
    probeInvalidated := invalidated
    startupRecoveryOwners := entry.addOwner ownerToken }

def retainProbeCleanup (ownerToken : String) : CircuitEntry :=
  { entry with
    state := .halfOpen
    lastChangedAt := now
    reason := some (entry.reason.getD cleanupReason)
    probeToken := none
    startupRecoveryOwners := entry.addOwner ownerToken }

def releaseInterruptedProbe : CircuitEntry :=
  { state := if entry.probeInvalidated then .degraded else .halfOpen
    lastChangedAt := now
    reason := if entry.probeInvalidated then entry.reason else none
    probeToken := none
    probeInvalidated := false
    startupRecoveryOwners := [] }

def settleReconciledProbe (outcome : ProbeOutcome) : CircuitEntry :=
  let settled := { entry with probeToken := none, probeInvalidated := false, startupRecoveryOwners := [] }
  if outcome = .parked ∨ entry.probeInvalidated then
    transition { settled with reason := some (entry.reason.getD "Recovery probe ended before successful admission") } now
      .degraded
  else transition { settled with reason := none } now .halfOpen

def restoreSuccessfulProbe : CircuitEntry := new now

def snapshot (dependency : String) : LaunchDependencyCircuitSnapshot :=
  ⟨dependency, entry.state, entry.lastChangedAt, entry.reason.filter fun reason => reason ≠ ""⟩

end CircuitEntry

def toAdmissionDependency (snapshot : LaunchDependencyCircuitSnapshot) : TaskLaunchAdmissionDependency :=
  ⟨snapshot.dependency, snapshot.state, snapshot.reason⟩

def uniqueDependencies (dependencies : Option (List String)) : List String := (dependencies.getD []).eraseDups

structure LaunchDependencyAdmission where
  entries : OrderedMap String CircuitEntry
  probeSequence : ℕ

namespace LaunchDependencyAdmission

def new : LaunchDependencyAdmission := ⟨.empty, 0⟩

variable (a : LaunchDependencyAdmission) (now : ℤ)

/-- A dependency that is not known yet is healthy. -/
def entry (dependency : String) : CircuitEntry := (a.entries.get dependency).getD (.new now)

/-- Change the entry of a dependency, which is made if it is not there. -/
def update (dependency : String) (f : CircuitEntry → CircuitEntry) : LaunchDependencyAdmission :=
  { a with entries := a.entries.set dependency (f (a.entry now dependency)) }

/-- Change the entry of a dependency if it is there. -/
def modify (dependency : String) (f : CircuitEntry → CircuitEntry) : LaunchDependencyAdmission :=
  match a.entries.get dependency with
  | some entry => { a with entries := a.entries.set dependency (f entry) }
  | none => a

def observe (dependencies : Option (List String)) (findings : List DependencyFinding) : LaunchDependencyAdmission :=
  (uniqueDependencies dependencies).foldl (fun a dependency =>
    a.update now dependency fun entry =>
      entry.observe now (findings.filter fun finding => finding.dependency = dependency)) a

/-- Every dependency has an entry. -/
def known (dependencies : List String) : LaunchDependencyAdmission :=
  dependencies.foldl (fun a dependency => a.update now dependency id) a

def inState (state : LaunchDependencyState) (dependencies : List String) : List String :=
  dependencies.filter fun dependency => (a.entry now dependency).state = state

def toAdmissionDependency (dependency : String) : TaskLaunchAdmissionDependency :=
  Core.toAdmissionDependency ((a.entry now dependency).snapshot dependency)

def evaluate (dependencies : Option (List String)) : LaunchDependencyAdmissionDecision × LaunchDependencyAdmission :=
  let required := uniqueDependencies dependencies
  let a := a.known now required
  let degraded := a.inState now .degraded required
  let halfOpen := a.inState now .halfOpen required
  let busy := halfOpen.filter fun dependency => (a.entry now dependency).isBusy
  if degraded ≠ [] then (.deny .dependencyDegraded (degraded.map (a.toAdmissionDependency now)), a)
  else if busy ≠ [] then
    (.deny .halfOpenProbeBusy (busy.map fun dependency =>
      { a.toAdmissionDependency now dependency with reason := some "A recovery probe is already in flight" }), a)
  else if halfOpen = [] then (.admits none, a)
  else
    let token := a.probeSequence + 1
    (.admits (some ⟨token, halfOpen⟩),
      halfOpen.foldl (fun a dependency => a.update now dependency fun entry => entry.claim token)
        { a with probeSequence := token })

def completeProbe (probe : Option LaunchDependencyProbe) (healthy : Bool) : LaunchDependencyAdmission :=
  match probe with
  | none => a
  | some probe =>
    probe.dependencies.foldl (fun a dependency =>
      a.modify dependency fun entry => entry.completeProbe now probe.token healthy) a

def isProbeActive (probe : Option LaunchDependencyProbe) : Bool :=
  match probe with
  | none => false
  | some probe =>
    probe.dependencies ≠ [] && probe.dependencies.all fun dependency =>
      (a.entries.get dependency).any fun entry =>
        entry.state = .halfOpen && entry.probeToken = some probe.token && !entry.probeInvalidated

def releaseProbe (probe : Option LaunchDependencyProbe) : LaunchDependencyAdmission :=
  match probe with
  | none => a
  | some probe =>
    probe.dependencies.foldl (fun a dependency =>
      a.modify dependency fun entry => entry.releaseProbe now probe.token) a

def restoreParked (dependencies : List TaskLaunchAdmissionDependency) : LaunchDependencyAdmission :=
  dependencies.foldl (fun a parked => a.update now parked.dependency fun entry => entry.restoreParked now parked) a

def restoreInterruptedProbe (dependencies : List TaskLaunchAdmissionDependency) (ownerToken : String) :
    LaunchDependencyAdmission :=
  dependencies.foldl (fun a d => a.update now d.dependency fun entry => entry.restoreInterruptedProbe now ownerToken) a

def retainProbeCleanup (dependencies : List TaskLaunchAdmissionDependency) (ownerToken : String) : LaunchDependencyAdmission :=
  dependencies.foldl (fun a d => a.update now d.dependency fun entry => entry.retainProbeCleanup now ownerToken) a

def releaseInterruptedProbe (dependencies : List TaskLaunchAdmissionDependency) : LaunchDependencyAdmission :=
  dependencies.foldl (fun a d => a.update now d.dependency fun entry => entry.releaseInterruptedProbe now) a

def settleReconciledProbe (dependencies : List TaskLaunchAdmissionDependency) (outcome : ProbeOutcome) :
    LaunchDependencyAdmission :=
  dependencies.foldl (fun a d => a.update now d.dependency fun entry => entry.settleReconciledProbe now outcome) a

/-- A probe that has no time of its start began before everything. -/
def restoreSuccessfulProbe (dependencies : List String) (probeStartedAt : Option ℤ)
    (latestConfirmedAtByDependency : OrderedMap String ℤ) : LaunchDependencyAdmission :=
  dependencies.eraseDups.foldl (fun a dependency =>
    if (latestConfirmedAtByDependency.get dependency).any fun latest => probeStartedAt.all fun start => latest ≥ start then a
    else a.update now dependency fun _ => .restoreSuccessfulProbe now) a

end LaunchDependencyAdmission

end Kookr.Core
