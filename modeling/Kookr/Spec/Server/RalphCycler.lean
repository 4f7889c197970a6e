import Kookr.Lib.Exec
import Mathlib.Data.List.Nodup

/-! What a Ralph loop remembers of the targets that stall (`src/core/ralph-cycler.ts`). The events, the iteration records and
the costs are left out: whether a cap on the cost or a streak without a diff ends the loop is said by the call. -/

namespace Kookr.Server

/-- `resolveStallConfig` of a configuration that was accepted. -/
structure StallConfig where
  consecutiveStallsPerTarget : ℕ
  positive : 0 < consecutiveStallsPerTarget
  /-- `loopShape`: with several targets or with one. -/
  multiTarget : Bool
  consecutiveStallsForSingleTargetTermination : ℕ
  declaredTargets : List String
  burnedTargetDecayIterations : Option ℕ

structure BurnedOutTarget where
  target : String
  consecutiveStallCount : ℕ
  totalStallCount : ℕ
  firstStalledAtIteration : ℕ
  lastStallReason : String
  lastStallBlockers : List String
  burned : Bool
  lastAttemptedIteration : ℕ
  permanent : Bool
  deriving DecidableEq

structure BurnLoop where
  running : Bool
  currentIteration : ℕ
  iterationCap : ℕ
  burnedOutTargets : List BurnedOutTarget
  deriving DecidableEq

inductive IterationVerdict where
  | progress (target : Option String)
  | stalled (target reason : String) (blockers : List String) (permanent : Bool)
  | complete
  deriving DecidableEq

structure PredicateResult where
  satisfied : Bool
  timedOut : Bool
  errored : Bool
  deriving DecidableEq

structure StopCall where
  verdict : Option IterationVerdict
  /-- The outcome of the stop predicate, if the loop has one. -/
  predicateOutcome : Option PredicateResult
  stallPredicateSatisfied : Bool
  endsLater : Bool
  deriving DecidableEq

namespace BurnLoop

variable (config : StallConfig) (loop : BurnLoop)

/-- The first row of the target. -/
def row (target : String) : Option BurnedOutTarget := loop.burnedOutTargets.find? fun row => row.target = target

def isBurned (target : String) : Bool := (loop.row target).any fun row => row.burned

/-- The first row of the target is changed. -/
def updateRow (target : String) (f : BurnedOutTarget → BurnedOutTarget) : List BurnedOutTarget → List BurnedOutTarget
  | [] => []
  | row :: rows => if row.target = target then f row :: rows else row :: updateRow target f rows

def unburn (row : BurnedOutTarget) : BurnedOutTarget := { row with consecutiveStallCount := 0, burned := false, permanent := false }

def unburnTarget (target : String) : BurnLoop := { loop with burnedOutTargets := updateRow target unburn loop.burnedOutTargets }

def isStale (row : BurnedOutTarget) : Bool :=
  config.burnedTargetDecayIterations.any fun decay => !row.permanent && decay ≤ loop.currentIteration - row.lastAttemptedIteration

def applyDecay : BurnLoop :=
  (loop.burnedOutTargets.filter (loop.isStale config)).foldl (fun loop row => loop.unburnTarget row.target) loop

/-- One more stall of a row. -/
def stall (reason : String) (blockers : List String) (permanent : Bool) (row : BurnedOutTarget) : BurnedOutTarget :=
  let count := row.consecutiveStallCount + 1
  let justBurned := !row.burned && (permanent || config.consecutiveStallsPerTarget ≤ count)
  { row with
    consecutiveStallCount := count
    totalStallCount := row.totalStallCount + 1
    lastStallReason := reason
    lastStallBlockers := blockers
    lastAttemptedIteration := loop.currentIteration
    burned := row.burned || justBurned
    permanent := row.permanent || (justBurned && permanent) }

def recordStall (target reason : String) (blockers : List String) (permanent : Bool) : BurnLoop :=
  let rows := if (loop.row target).isSome then loop.burnedOutTargets
    else loop.burnedOutTargets ++ [⟨target, 0, 0, loop.currentIteration, reason, blockers, false, loop.currentIteration, false⟩]
  { loop with burnedOutTargets := updateRow target (loop.stall config reason blockers permanent) rows }

variable (canonicalizeTarget : String → String)

def allDeclaredBurned : Bool := config.declaredTargets.all fun declared =>
  (loop.burnedOutTargets.filter fun row => row.burned).any fun row => row.target = canonicalizeTarget declared

/-- The call ends the loop before it comes to the stalls. -/
def endsEarly (call : StopCall) : Bool :=
  (call.predicateOutcome.any fun outcome => outcome.satisfied) || (call.verdict = some .complete &&
    !(call.predicateOutcome.any fun outcome => !outcome.satisfied && !outcome.timedOut && !outcome.errored))

def progressTarget (call : StopCall) : Option String :=
  match call.verdict with
  | some (.progress (some target)) => if target = "" then none else some (canonicalizeTarget target)
  | _ => none

/-- The target that is stalled, the reason, the blockers, and whether it is so for good. -/
def stallOf (call : StopCall) : Option (String × String × List String × Bool) :=
  match call.verdict with
  | some (.stalled target reason blockers permanent) => some (canonicalizeTarget target, reason, blockers, permanent)
  | _ => if call.stallPredicateSatisfied then some ("__stall_predicate__", "stallPredicate exited 0", [], false) else none

def endsStalled (target : String) (permanent : Bool) : Bool :=
  (!config.multiTarget && (permanent ||
      (loop.row target).any fun row => config.consecutiveStallsForSingleTargetTermination ≤ row.consecutiveStallCount)) ||
    (config.multiTarget && config.declaredTargets ≠ [] && loop.allDeclaredBurned config canonicalizeTarget)

def handleStop (call : StopCall) : BurnLoop :=
  if !loop.running then loop
  else if loop.iterationCap ≤ loop.currentIteration then { loop with running := false }
  else
    let decayed := loop.applyDecay config
    if endsEarly call then { decayed with running := false }
    else
      let progressed := ((progressTarget canonicalizeTarget call).map decayed.unburnTarget).getD decayed
      let result := match stallOf canonicalizeTarget call with
        | some (target, reason, blockers, permanent) =>
          let recorded := progressed.recordStall config target reason blockers permanent
          (recorded, recorded.endsStalled config canonicalizeTarget target permanent)
        | none => (progressed, false)
      if result.2 || call.endsLater then { result.1 with running := false }
      else { result.1 with currentIteration := loop.currentIteration + 1 }

end BurnLoop

end Kookr.Server
