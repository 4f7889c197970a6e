import Kookr.Lib.Traced
import Kookr.Spec.Server.ReviewGate

/-! One scan of an umbrella issue (`scanIssue` of `src/server/use-cases/umbrella-chain-advancer.ts`).
What it asks of the remote, of the task registry and of the claim store may be answered in any way,
may fail, and may change from one question to the next. The ledger block of the issue body comes as
it was parsed. The text of a prompt is known by what it is made of. Log lines and the health page are
left out, for nothing of a scan reads them; the rewriting of the issue body is one entry of the log. -/

namespace Kookr.Server

open Kookr.Lib Kookr.Core

inductive UmbrellaChainAdvancerMode where
  | off
  | observe
  | spawn
  deriving DecidableEq

structure UmbrellaChainClaim where
  key : String
  ownerToken : String
  claimedAt : String
  taskId : Option String
  deriving DecidableEq

inductive ClaimAttempt where
  | claimed (claim : UmbrellaChainClaim)
  | busy (claim : UmbrellaChainClaim)
  | error (message : String)
  deriving DecidableEq

inductive ChainPrompt where
  | phase (phaseId chainId : String)
  | reviewCorrection (phaseId : String) (attempt cap : ℕ)
  deriving DecidableEq

structure ChainLaunch where
  prompt : ChainPrompt
  cwd : String
  projectId : String
  idempotencyKey : String
  claimIssue : ℕ × String
  deriving DecidableEq

/-- What a scan asked, and the answer. -/
inductive ChainEvent where
  | isTaskTerminal (taskId : String) (answer : Except String Bool)
  | isPullRequestReachable (prNumber : ℕ) (answer : Except String Bool)
  | getPullRequestHeadSha (prNumber : ℕ) (answer : Except String (Option String))
  | getPullRequestMergedAt (prNumber : ℕ) (answer : Except String (Option String))
  | isReviewTaskIndependent (implementerTaskId reviewerTaskId : String) (answer : Except String Bool)
  | getClaim (key : String) (answer : Except String (Option UmbrellaChainClaim))
  | claim (key : String) (answer : ClaimAttempt)
  | finalize (key taskId ownerToken : String) (answer : Except String Unit)
  | release (key ownerToken : String) (answer : Except String Unit)
  | launch (options : ChainLaunch) (answer : Except String String)
  | now (answer : Timestamp)
  | updateIssueBody (ledger : PhaseLedger)

/-- The surroundings of a scan; what the advancer may have been built without is optional. -/
structure ChainDeps where
  isTaskTerminal : Option (List ChainEvent → String → Except String Bool)
  isReviewTaskIndependent : Option (List ChainEvent → String → String → Except String Bool)
  launch : Option (List ChainEvent → ChainLaunch → Except String String)
  isPullRequestReachable : List ChainEvent → ℕ → Except String Bool
  getPullRequestHeadSha : List ChainEvent → ℕ → Except String (Option String)
  getPullRequestMergedAt : List ChainEvent → ℕ → Except String (Option String)
  getClaim : List ChainEvent → String → Except String (Option UmbrellaChainClaim)
  claim : List ChainEvent → String → ClaimAttempt
  finalize : List ChainEvent → String → String → String → Except String Unit
  release : List ChainEvent → String → String → Except String Unit
  now : List ChainEvent → Timestamp

structure ChainConfig where
  caseMap : CaseMap
  mode : UmbrellaChainAdvancerMode
  graceMs : ℤ
  repo : String
  /-- `undefined` is the repository of the server, and `null` none. -/
  legacyClaimRepo : Option (Option String)
  /-- `KOOKR_SELF_ADVANCING_DISABLED`. -/
  selfAdvancingDisabled : Option String

structure UmbrellaChainProject where
  projectId : String
  repo : String
  repoPath : String

structure UmbrellaIssue where
  number : ℕ
  ledger : Except String PhaseLedger
  comments : List String

structure ChainScan where
  deps : ChainDeps
  config : ChainConfig
  project : UmbrellaChainProject
  issue : UmbrellaIssue

/-- What the remote said of the pull requests. -/
structure ChainProbe where
  reachable : OrderedMap ℕ Bool
  currentHeadByPr : OrderedMap ℕ String
  changed : Bool

/-- A scan that found the chain complete or eligible, with what it goes on with. -/
structure ChainState where
  ledger : PhaseLedger
  currentHeadByPr : OrderedMap ℕ String
  changed : Bool

inductive GateOutcome where
  | ended
  /-- The review of a phase stands in the way; whether a phase was next. -/
  | reviewBlocked (s : ChainState) (blocker : PhaseLedgerPhase) (complete : Bool)
  | eligible (s : ChainState) (phase : PhaseLedgerPhase)

inductive CorrectionOutcome where
  | declined
  /-- The ledger was told of a correction that had been launched before. -/
  | recovered
  | claimed (attempt : ℕ) (key ownerToken : String)
  deriving DecidableEq

abbrev ChainProgram : Type → Type := Traced String ChainEvent

namespace ChainScan

variable (c : ChainScan)

def disabled : Bool := isSelfAdvancingDisabled c.config.caseMap c.config.selfAdvancingDisabled

/-- The host before `owner/repo` is dropped in any case. -/
def normalizeGithubRepo (repo : String) : String :=
  let text := (trimText repo).toList
  let host := "github.com/".toList
  c.config.caseMap.lower (String.ofList (if (text.take host.length).map Char.toLower = host then text.drop host.length else text))

def phaseClaimKey (issueNumber : ℕ) (phaseId : String) : String :=
  "chain:" ++ c.normalizeGithubRepo c.project.repo ++ ":" ++ toString issueNumber ++ ":phase:" ++ phaseId

def legacyPhaseClaimKey (issueNumber : ℕ) (phaseId : String) : String :=
  "chain:" ++ toString issueNumber ++ ":phase:" ++ phaseId

def reviewClaimKey (phaseKey : String) (attempt : ℕ) : String := phaseKey ++ ":review:" ++ toString attempt

def isLegacyClaimRepository : Bool :=
  (c.config.legacyClaimRepo.getD (some c.config.repo)).any fun legacyRepo =>
    c.normalizeGithubRepo c.project.repo = c.normalizeGithubRepo legacyRepo

def isTaskTerminal (taskId : String) : ChainProgram Bool :=
  match c.deps.isTaskTerminal with
  | some answer => Traced.ask (fun log => answer log taskId) (.isTaskTerminal taskId)
  | none => pure false

def isReviewTaskIndependent (implementerTaskId reviewerTaskId : String) : ChainProgram Bool :=
  match c.deps.isReviewTaskIndependent with
  | some answer => Traced.ask (fun log => answer log implementerTaskId reviewerTaskId)
      (.isReviewTaskIndependent implementerTaskId reviewerTaskId)
  | none => pure false

def getClaim (key : String) : ChainProgram (Option UmbrellaChainClaim) :=
  Traced.ask (fun log => c.deps.getClaim log key) (.getClaim key)

/-- A claim under a key of the old form is one of the server's own repository. -/
def getLegacyClaim (key : String) : ChainProgram (Option UmbrellaChainClaim) :=
  if c.isLegacyClaimRepository then c.getClaim key else pure none

def claim (key : String) : ChainProgram ClaimAttempt := Traced.query (fun log => c.deps.claim log key) (.claim key)

def now : ChainProgram Timestamp := Traced.query c.deps.now .now

/-- Only `spawn` writes, and a write that fails is a warning. -/
def persistIfChanged (ledger : PhaseLedger) (changed : Bool) : ChainProgram Unit :=
  if changed && c.config.mode = .spawn then Traced.note (.updateIssueBody ledger) else pure ()

/-- `ledger.blockedReason = reason; ledger.blockedSince ??= now`. -/
def block (ledger : PhaseLedger) (reason : PhaseLedgerBlockedReason) : ChainProgram PhaseLedger :=
  match ledger.blockedSince with
  | some _ => pure { ledger with blockedReason := some reason }
  | none => do
    let now ← c.now
    return { ledger with blockedReason := some reason, blockedSince := some (String.ofList (IsoDate.toISOString now)) }

/-- A phase whose owner has ended since is told so. -/
def probeOwner (phase : PhaseLedgerPhase) : ChainProgram (PhaseLedgerPhase × Bool) :=
  match truthy phase.taskId with
  | some taskId =>
    if phase.ownerTerminal = some true then pure (phase, false)
    else do
      let terminal ← c.isTaskTerminal taskId
      return if terminal then ({ phase with ownerTerminal := some true }, true) else (phase, false)
  | none => pure (phase, false)

def noteHead (heads : OrderedMap ℕ String) (prNumber : ℕ) (headSha : Option String) : OrderedMap ℕ String :=
  match truthy headSha with
  | some sha => heads.set prNumber sha
  | none => heads

/-- A pull request that is reachable is merged, if the time of its merge can be verified. -/
def probePullRequest (phase : PhaseLedgerPhase) (prNumber : ℕ) (probe : ChainProbe) :
    ChainProgram (PhaseLedgerPhase × ChainProbe) := do
  let isReachable ← Traced.ask (fun log => c.deps.isPullRequestReachable log prNumber) (.isPullRequestReachable prNumber)
  if isReachable then
    let headSha ← Traced.ask (fun log => c.deps.getPullRequestHeadSha log prNumber) (.getPullRequestHeadSha prNumber)
    let heads := noteHead probe.currentHeadByPr prNumber headSha
    let mergedAt ← Traced.ask (fun log => c.deps.getPullRequestMergedAt log prNumber) (.getPullRequestMergedAt prNumber)
    match mergedAt with
    | none => return (phase, { probe with reachable := probe.reachable.set prNumber false, currentHeadByPr := heads })
    | some mergedAt =>
      let valid ← Traced.lift (isValidIsoTimestamp mergedAt)
      if valid then
        return ({ phase with status := some .merged, mergedAt := some mergedAt },
          { reachable := probe.reachable.set prNumber true
            currentHeadByPr := heads
            changed := probe.changed || phase.status ≠ some .merged || phase.mergedAt ≠ some mergedAt })
      else return (phase, { probe with reachable := probe.reachable.set prNumber false, currentHeadByPr := heads })
  else return (phase, { probe with reachable := probe.reachable.set prNumber false })

def probePhase (phase : PhaseLedgerPhase) (probe : ChainProbe) : ChainProgram (PhaseLedgerPhase × ChainProbe) := do
  let (phase, changed) ← c.probeOwner phase
  let probe := { probe with changed := probe.changed || changed }
  match phase.prNumber with
  | none => return (phase, probe)
  | some prNumber => c.probePullRequest phase prNumber probe

def probePhases : List PhaseLedgerPhase → ChainProbe → ChainProgram (List PhaseLedgerPhase × ChainProbe)
  | [], probe => pure ([], probe)
  | phase :: phases, probe => do
    let (phase, probe) ← c.probePhase phase probe
    let (phases, probe) ← probePhases phases probe
    return (phase :: phases, probe)

def headOf (heads : OrderedMap ℕ String) (phase : PhaseLedgerPhase) : Option String := phase.prNumber.bind heads.get

/-- A phase whose reviewer the registry does not know to be independent of its owner. -/
def findDependentReview : List PhaseLedgerPhase → ChainProgram (Option PhaseLedgerPhase)
  | [] => pure none
  | phase :: phases =>
    if phase.prNumber.isNone then findDependentReview phases
    else
      match truthy phase.taskId, truthy phase.reviewerTaskId, c.deps.isReviewTaskIndependent with
      | some taskId, some reviewerTaskId, some _ => do
        let independent ← c.isReviewTaskIndependent taskId reviewerTaskId
        if independent then findDependentReview phases else return some phase
      | _, _, _ => pure (some phase)

def findReviewAuditBlocker (phases : List PhaseLedgerPhase) (heads : OrderedMap ℕ String) :
    ChainProgram (Option PhaseLedgerPhase) :=
  match phases.find? fun phase => (auditReviewGate c.config.caseMap phase (headOf heads phase)).flagged with
  | some blocker => pure (some blocker)
  | none => c.findDependentReview phases

/-- The phases before the first one with the id. -/
def predecessors (ledger : PhaseLedger) (phase : PhaseLedgerPhase) : List PhaseLedgerPhase :=
  ledger.phases.takeWhile fun other => other.id ≠ phase.id

def isManualBlock (ledger : PhaseLedger) : Bool :=
  ledger.blockedReason = some .gateRed || ledger.blockedReason = some .stuckClaim

/-- The scan up to the review of the phases that are merged. -/
def gate : ChainProgram GateOutcome :=
  match c.issue.ledger with
  | .error _ => pure .ended
  | .ok original =>
    if c.normalizeGithubRepo original.repo ≠ c.normalizeGithubRepo c.project.repo ∨ original.issueNumber ≠ c.issue.number then
      pure .ended
    else do
      let reconciled ← Traced.lift (PhaseLedger.reconcile c.config.caseMap original c.issue.comments)
      let (phases, probe) ← c.probePhases reconciled.phases ⟨.empty, .empty, reconciled ≠ original⟩
      let ledger := { reconciled with phases }
      let s : ChainState := ⟨ledger, probe.currentHeadByPr, probe.changed⟩
      if isManualBlock ledger then
        c.persistIfChanged ledger probe.changed
        return .ended
      else
        match nextEligiblePhase (fun prNumber => probe.reachable.get prNumber = some true) phases with
        | .blocked _ =>
          if ledger.blockedReason ≠ some .dependencyUnmerged ∨ ledger.blockedSince = none then
            let ledger ← c.block ledger .dependencyUnmerged
            c.persistIfChanged ledger true
            return .ended
          else
            c.persistIfChanged ledger probe.changed
            return .ended
        | .complete => do
          match ← c.findReviewAuditBlocker phases probe.currentHeadByPr with
          | some blocker => return .reviewBlocked s blocker true
          | none =>
            let cleared := { ledger with blockedReason := none, blockedSince := none }
            c.persistIfChanged cleared (probe.changed || ledger.blockedReason.isSome || ledger.blockedSince.isSome)
            return .ended
        | .eligible phase => do
          match ← c.findReviewAuditBlocker (predecessors ledger phase) probe.currentHeadByPr with
          | some blocker => return .reviewBlocked s blocker false
          | none => return .eligible s phase

/-- The phase as the launch of a correction leaves it. -/
def corrected (phase : PhaseLedgerPhase) (taskId : String) (ownerTerminal : Bool) (attempt : ℕ) : PhaseLedgerPhase :=
  { phase with
    status := some .inFlight
    taskId := some taskId
    ownerTerminal := some ownerTerminal
    prNumber := none
    mergedAt := none
    reviewVerdict := none
    reviewedAt := none
    reviewerTaskId := none
    reviewHeadSha := none
    reviewAttempts := some attempt }

def setPhase (ledger : PhaseLedger) (phase : PhaseLedgerPhase) : PhaseLedger :=
  { ledger with phases := ledger.phases.map fun other => if other.id = phase.id then phase else other }

/-- Whether the registry stands against the correction. -/
def correctionIndependent (phase : PhaseLedgerPhase) : ChainProgram Bool :=
  match c.deps.isReviewTaskIndependent, truthy phase.taskId, truthy phase.reviewerTaskId with
  | some _, some taskId, some reviewerTaskId => c.isReviewTaskIndependent taskId reviewerTaskId
  | _, _, _ => pure true

/-- The correction that is due for a phase with a blocking verdict, once it is claimed. -/
def claimCorrection (s : ChainState) (phase : PhaseLedgerPhase) : ChainProgram CorrectionOutcome :=
  if c.config.mode ≠ .spawn ∨ c.deps.launch.isNone ∨ phase.reviewVerdict ≠ some .block ∨ phase.prNumber.isNone then
    pure .declined
  else if (evaluatePhaseReview c.config.caseMap phase (headOf s.currentHeadByPr phase)).decision ≠ .retryReview then
    pure .declined
  else do
    let independent ← c.correctionIndependent phase
    if !independent then return .declined
    else
      let attempt := phase.reviewAttempts.getD 1 + 1
      let preferredKey := reviewClaimKey (c.phaseClaimKey s.ledger.issueNumber phase.id) attempt
      let legacyKey := reviewClaimKey (legacyPhaseClaimKey s.ledger.issueNumber phase.id) attempt
      let preferredClaim ← c.getClaim preferredKey
      let legacyClaim ← c.getLegacyClaim legacyKey
      if preferredClaim.isSome && legacyClaim.isSome then return .declined
      else
        match truthy ((preferredClaim.or legacyClaim).bind UmbrellaChainClaim.taskId) with
        | some taskId => do
          let ownerTerminal ← c.isTaskTerminal taskId
          if ownerTerminal then
            c.persistIfChanged (setPhase s.ledger (corrected phase taskId true attempt)) true
            return .recovered
          else return .declined
        | none => do
          let key := if legacyClaim.isSome then legacyKey else preferredKey
          match ← c.claim key with
          | .claimed claim => return .claimed attempt key claim.ownerToken
          | .busy _ => return .declined
          | .error _ => return .declined

/-- Start a task; nothing is asked when the advancer cannot. -/
def launch (options : ChainLaunch) : ChainProgram (Except String String) :=
  match c.deps.launch with
  | some answer => Traced.attempt (Traced.ask (fun log => answer log options) (.launch options))
  | none => pure (.error "deps.launch is not a function")

def finalize (key taskId ownerToken : String) : ChainProgram (Except String Unit) :=
  Traced.attempt (Traced.ask (fun log => c.deps.finalize log key taskId ownerToken) (.finalize key taskId ownerToken))

def release (key ownerToken : String) : ChainProgram (Except String Unit) :=
  Traced.attempt (Traced.ask (fun log => c.deps.release log key ownerToken) (.release key ownerToken))

def options (prompt : ChainPrompt) (key : String) (issueNumber : ℕ) : ChainLaunch :=
  ⟨prompt, c.project.repoPath, c.project.projectId, key, (issueNumber, c.project.repo)⟩

/-- What the launch of a correction leads to. Whether the scan is over, and the ledger. -/
def correctionLaunched (s : ChainState) (phase : PhaseLedgerPhase) (attempt : ℕ) (key ownerToken : String) :
    Except String String → ChainProgram (Bool × PhaseLedger)
  | .error _ => do
    let _ ← c.release key ownerToken
    return (false, s.ledger)
  | .ok taskId => do
    let ledger := setPhase s.ledger (corrected phase taskId false attempt)
    match ← c.finalize key taskId ownerToken with
    | .error _ => return (false, ledger)
    | .ok () =>
      c.persistIfChanged ledger true
      return (true, ledger)

def launchCorrection (s : ChainState) (phase : PhaseLedgerPhase) (attempt : ℕ) (key ownerToken : String) :
    ChainProgram (Bool × PhaseLedger) := do
  let prompt := ChainPrompt.reviewCorrection phase.id attempt (phase.reviewIterationCap.getD defaultReviewIterationCap)
  let result ← c.launch (c.options prompt key s.ledger.issueNumber)
  c.correctionLaunched s phase attempt key ownerToken result

/-- `launchReviewCorrection`: whether the scan is over, and the ledger. A failure before the launch ends the scan. -/
def launchReviewCorrection (s : ChainState) (phase : PhaseLedgerPhase) : ChainProgram (Bool × PhaseLedger) := do
  match ← c.claimCorrection s phase with
  | .declined => return (false, s.ledger)
  | .recovered => return (true, s.ledger)
  | .claimed attempt key ownerToken => c.launchCorrection s phase attempt key ownerToken

/-- The chain is blocked for the review, unless a correction is on its way. -/
def blockForReview (s : ChainState) (complete isOver : Bool) (ledger : PhaseLedger) : ChainProgram Unit :=
  if isOver then pure ()
  else if complete || ledger.blockedReason ≠ some .reviewBlock || ledger.blockedSince.isNone then do
    let ledger ← c.block ledger .reviewBlock
    c.persistIfChanged ledger true
  else c.persistIfChanged ledger s.changed

def reviewBlocked (s : ChainState) (blocker : PhaseLedgerPhase) (complete : Bool) : ChainProgram Unit := do
  let (isOver, ledger) ← c.launchReviewCorrection s blocker
  c.blockForReview s complete isOver ledger

/-- The claims on the phase, by the key that is tried and the claim that is there. -/
structure PhaseClaims where
  key : String
  existing : Option UmbrellaChainClaim
  conflict : Bool

def phaseClaims (ledger : PhaseLedger) (phase : PhaseLedgerPhase) : ChainProgram PhaseClaims := do
  let preferredKey := c.phaseClaimKey ledger.issueNumber phase.id
  let legacyKey := legacyPhaseClaimKey ledger.issueNumber phase.id
  let preferredClaim ← c.getClaim preferredKey
  let legacyClaim ← c.getLegacyClaim legacyKey
  return ⟨if legacyClaim.isSome && preferredClaim.isNone then legacyKey else preferredKey, preferredClaim.or legacyClaim,
    preferredClaim.isSome && legacyClaim.isSome⟩

/-- The predecessor merged less than the grace time ago. -/
def withinGrace (predecessor : Option PhaseLedgerPhase) : ChainProgram Bool :=
  match predecessor.bind PhaseLedgerPhase.mergedAt with
  | none => pure false
  | some mergedAt => do
    let now ← c.now
    return (IsoTimestamp.dateParse mergedAt.toList).any fun merged => now.ms - merged.ms < c.config.graceMs

/-- The recorded owner of the phase is not known to have ended. -/
def ownerActive (phase : PhaseLedgerPhase) : ChainProgram Bool :=
  match truthy phase.taskId with
  | some taskId => if phase.ownerTerminal = some true then pure false else do return !(← c.isTaskTerminal taskId)
  | none => pure false

/-- Whether the owner of the claim is known to have ended. -/
def claimOwnerTerminal (existing : Option UmbrellaChainClaim) : ChainProgram Bool :=
  match truthy (existing.bind UmbrellaChainClaim.taskId) with
  | some taskId => c.isTaskTerminal taskId
  | none => pure false

/-- What is known of the phase before it is claimed. -/
structure PhaseStanding where
  claims : PhaseClaims
  predecessorTerminal : Bool
  withinGrace : Bool
  ownerActive : Bool
  claimOwnerTerminal : Bool

def phaseStanding (ledger : PhaseLedger) (phase : PhaseLedgerPhase) : ChainProgram PhaseStanding := do
  let claims ← c.phaseClaims ledger phase
  let predecessor := (predecessors ledger phase).getLast?
  let withinGrace ← c.withinGrace predecessor
  let predecessorTerminal := predecessor.all fun predecessor => predecessor.ownerTerminal = some true
  let ownerActive ← c.ownerActive phase
  let claimOwnerTerminal ← c.claimOwnerTerminal claims.existing
  return ⟨claims, predecessorTerminal, withinGrace, ownerActive, claimOwnerTerminal⟩

namespace PhaseStanding

variable (t : PhaseStanding) (phase : PhaseLedgerPhase)

def claimTaskId : Option String := truthy (t.claims.existing.bind UmbrellaChainClaim.taskId)

def claimOwnerActive : Bool := t.claimTaskId.isSome && !t.claimOwnerTerminal

/-- The claim knows of an owner that the ledger lost. -/
def ownerLost : Bool := t.claimOwnerTerminal && t.claimTaskId.isSome && phase.taskId.isNone

def owned : PhaseLedgerPhase :=
  if t.ownerLost phase then { phase with taskId := t.claimTaskId, ownerTerminal := some true } else phase

/-- The ledger without its block, and with the owner. -/
def ledgerOf (ledger : PhaseLedger) : PhaseLedger :=
  let ledger := { ledger with blockedReason := none, blockedSince := none }
  if t.ownerLost phase then setPhase ledger (t.owned phase) else ledger

/-- The owner ended without a pull request. -/
def endedWithoutPr : Bool :=
  (t.owned phase).ownerTerminal = some true && phase.prNumber.isNone && !t.claims.conflict && !t.claimOwnerActive

def safeToAdvance : Bool :=
  !t.claims.conflict && !t.withinGrace && t.predecessorTerminal && !t.ownerActive && !t.claimOwnerActive

end PhaseStanding

structure PhaseClaimed where
  ledger : PhaseLedger
  phase : PhaseLedgerPhase
  key : String
  ownerToken : String

/-- Everything that is checked before the phase is launched, and its claim. -/
def claimPhase (s : ChainState) (phase : PhaseLedgerPhase) : ChainProgram (Option PhaseClaimed) := do
  let t ← c.phaseStanding s.ledger phase
  let ledger := t.ledgerOf phase s.ledger
  let changed := s.changed || s.ledger.blockedReason.isSome || s.ledger.blockedSince.isSome || t.ownerLost phase
  if t.endedWithoutPr phase then
    c.persistIfChanged ledger changed
    return none
  else if !t.safeToAdvance || c.config.mode ≠ .spawn || c.deps.launch.isNone || c.disabled then
    if t.claims.conflict then
      let ledger ← c.block ledger .stuckClaim
      c.persistIfChanged ledger true
      return none
    else
      c.persistIfChanged ledger changed
      return none
  else
    match ← c.claim t.claims.key with
    | .claimed claim => return some ⟨ledger, t.owned phase, t.claims.key, claim.ownerToken⟩
    | .busy _ => return none
    | .error _ =>
      let ledger ← c.block ledger .stuckClaim
      c.persistIfChanged ledger true
      return none

/-- A phase whose launch cannot be recorded keeps its claim. -/
def phaseLaunched (p : PhaseClaimed) : Except String String → ChainProgram Unit
  | .error _ => do
    let _ ← c.release p.key p.ownerToken
    return ()
  | .ok taskId => do
    let phase := { p.phase with status := some .inFlight, taskId := some taskId, ownerTerminal := some false }
    let _ ← c.finalize p.key taskId p.ownerToken
    c.persistIfChanged (setPhase p.ledger phase) true

def launchPhase (p : PhaseClaimed) : ChainProgram Unit := do
  let result ← c.launch (c.options (.phase p.phase.id p.ledger.chainId) p.key p.ledger.issueNumber)
  c.phaseLaunched p result

def advance (s : ChainState) (phase : PhaseLedgerPhase) : ChainProgram Unit := do
  match ← c.claimPhase s phase with
  | none => return ()
  | some claimed => c.launchPhase claimed

def scanIssue : ChainProgram Unit := do
  match ← c.gate with
  | .ended => return ()
  | .reviewBlocked s blocker complete => c.reviewBlocked s blocker complete
  | .eligible s phase => c.advance s phase

/-- What the scan asked and was told. -/
def trace : List ChainEvent := (c.scanIssue.run []).2

end ChainScan

end Kookr.Server
