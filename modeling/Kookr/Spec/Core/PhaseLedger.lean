import Kookr.Lib.JsonNumber
import Kookr.Spec.Remote.TerminalPublicationGate

/-! The phase ledger of an umbrella issue: which phase is next (`src/core/phase-ledger.ts`), what is
a well-formed ledger, what is read of a phase result comment, and how such comments change a ledger
(`src/core/phase-ledger-codec.ts`). The version of a ledger is always 1 and left out. Text that no
`undefined` marks is absent as `none`. -/

namespace Kookr.Core

open Kookr.Lib Kookr.Remote

/-- `String.prototype.toLowerCase`, as a map of which it is known that doing it twice is doing it
once, and that it makes nothing blank. -/
structure CaseMap where
  lower : String → String
  lower_lower : ∀ text, lower (lower text) = lower text
  isBlank_lower : ∀ text, isBlank (lower text) = isBlank text

namespace IsoTimestamp

/-- The milliseconds of a fraction of one to three digits, padded. -/
def fraction : List Char → Option (List Char)
  | ['Z'] => some ['0', '0', '0']
  | ['.', a, 'Z'] => if [a].all Char.isDigit then some [a, '0', '0'] else none
  | ['.', a, b, 'Z'] => if [a, b].all Char.isDigit then some [a, b, '0'] else none
  | ['.', a, b, c, 'Z'] => if [a, b, c].all Char.isDigit then some [a, b, c] else none
  | _ => none

/-- The text with all three digits of the fraction, if it has the shape of a UTC timestamp. -/
def normalized : List Char → Option (List Char)
  | y₁ :: y₂ :: y₃ :: y₄ :: '-' :: m₁ :: m₂ :: '-' :: d₁ :: d₂ :: 'T' :: h₁ :: h₂ :: ':' :: n₁ :: n₂ :: ':' :: s₁ :: s₂ ::
      rest =>
    if [y₁, y₂, y₃, y₄, m₁, m₂, d₁, d₂, h₁, h₂, n₁, n₂, s₁, s₂].all Char.isDigit then
      (fraction rest).map fun ms => [y₁, y₂, y₃, y₄, '-', m₁, m₂, '-', d₁, d₂, 'T', h₁, h₂, ':', n₁, n₂, ':', s₁, s₂, '.'] ++
        ms ++ ['Z']
    else none
  | _ => none

/-- The fields `new Date` accepts; a day may be one the month does not have. -/
def inBounds (text : List Char) : Bool :=
  let field (i : ℕ) : ℕ := IsoDate.readPad ((text.drop i).take 2)
  1 ≤ field 5 && field 5 ≤ 12 && 1 ≤ field 8 && field 8 ≤ 31 && field 14 ≤ 59 && field 17 ≤ 59 &&
    (field 11 ≤ 23 || (field 11 = 24 && field 14 = 0 && field 17 = 0 && text.drop 19 = ".000Z".toList))

/-- `Date.parse` of a text of that shape. -/
def dateParse (text : List Char) : Option Timestamp :=
  (normalized text).bind fun full => if inBounds full then IsoDate.dateParse full else none

end IsoTimestamp

/-- A text of the right shape that is no date throws a `RangeError`. -/
def isValidIsoTimestamp (value : String) : Except String Bool :=
  match IsoTimestamp.normalized value.toList with
  | none => .ok false
  | some full =>
    match IsoTimestamp.dateParse value.toList with
    | none => .error "Invalid time value"
    | some t => .ok (IsoDate.toISOString t = full)

inductive PhaseStatus where
  | pending
  | inFlight
  | blocked
  | merged
  deriving DecidableEq

inductive ReviewVerdict where
  | pass
  | block
  deriving DecidableEq

inductive PhaseLedgerBlockedReason where
  | dependencyUnmerged
  | gateRed
  | reviewBlock
  | stuckClaim
  | malformed
  deriving DecidableEq

structure Phase where
  id : String
  prNumber : Option ℕ
  status : Option PhaseStatus
  deriving DecidableEq

@[ext] structure PhaseLedgerPhase extends Phase where
  dependsOn : List String
  taskId : Option String
  ownerTerminal : Option Bool
  mergedAt : Option String
  reviewVerdict : Option ReviewVerdict
  reviewedAt : Option String
  reviewerTaskId : Option String
  reviewAttempts : Option ℕ
  reviewHeadSha : Option String
  reviewIterationCap : Option ℕ
  deriving DecidableEq

structure PhaseLedger where
  chainId : String
  repo : String
  issueNumber : ℕ
  phases : List PhaseLedgerPhase
  blockedReason : Option PhaseLedgerBlockedReason
  blockedSince : Option String
  deriving DecidableEq

structure PhaseResultComment where
  chainId : String
  issueNumber : ℕ
  phaseId : String
  prNumber : Option ℕ
  status : Option PhaseStatus
  taskId : Option String
  ownerTerminal : Option Bool
  mergedAt : Option String
  reviewVerdict : Option ReviewVerdict
  reviewedAt : Option String
  reviewerTaskId : Option String
  reviewAttempts : Option ℕ
  reviewHeadSha : Option String
  reviewIterationCap : Option ℕ
  deriving DecidableEq

/-- The range of `resolveAutonomousReviewIterationCap` (`src/core/autonomous-review-policy.ts`). -/
def isReviewIterationCap (cap : ℕ) : Bool := 1 ≤ cap && cap ≤ 20

namespace PhaseLedger

def fail {α : Type} (message : String) : Except String α := .error message

def check (ok : Bool) (message : String) : Except String Unit := if ok then .ok () else fail message

def checkTimestamp (value : Option String) (message : String) : Except String Unit :=
  match value with
  | none => .ok ()
  | some text => do check (← isValidIsoTimestamp text) message

def isPositive (n : Option ℕ) : Bool := n.all fun n => 0 < n

def isFilled (text : Option String) : Bool := text.all fun text => !isBlank text

/-- `parsePhase`, on a phase as it is in memory. -/
def parsePhase (caseMap : CaseMap) (phase : PhaseLedgerPhase) (index : ℕ) : Except String PhaseLedgerPhase := do
  check (!isBlank phase.id) ("phase " ++ toString (index + 1) ++ " requires a non-empty id")
  let name := "phase " ++ phase.id
  check (phase.dependsOn.all fun edge => edge ≠ "") (name ++ " requires dependsOn as a string array")
  check (isPositive phase.prNumber) (name ++ " has an invalid prNumber")
  check (isFilled phase.taskId) (name ++ " has an invalid taskId")
  checkTimestamp phase.mergedAt (name ++ " has an invalid mergedAt timestamp")
  checkTimestamp phase.reviewedAt (name ++ " has an invalid reviewedAt timestamp")
  check (phase.reviewedAt.isNone || phase.reviewVerdict.isSome)
    (name ++ " requires reviewVerdict when reviewedAt is present")
  check (isFilled phase.reviewerTaskId) (name ++ " has an invalid reviewerTaskId")
  check (phase.reviewerTaskId.isNone || phase.reviewVerdict.isSome)
    (name ++ " requires reviewVerdict when reviewerTaskId is present")
  check (isPositive phase.reviewAttempts) (name ++ " has an invalid reviewAttempts")
  check (isFilled phase.reviewHeadSha) (name ++ " has an invalid reviewHeadSha")
  check (phase.reviewIterationCap.all isReviewIterationCap) (name ++ " has an invalid reviewIterationCap")
  return { phase with reviewHeadSha := phase.reviewHeadSha.map caseMap.lower }

def parsePhases (caseMap : CaseMap) : List PhaseLedgerPhase → ℕ → Except String (List PhaseLedgerPhase)
  | [], _ => .ok []
  | phase :: phases, index => do
    let parsed ← parsePhase caseMap phase index
    return parsed :: (← parsePhases caseMap phases (index + 1))

/-- A phase that repeats an id or a PR number, or does not depend on the phase before it alone. -/
def checkOrder : List PhaseLedgerPhase → List PhaseLedgerPhase → Except String Unit
  | _, [] => .ok ()
  | before, phase :: phases => do
    check (before.all fun other => other.id ≠ phase.id) ("duplicate phase id: " ++ phase.id)
    check (phase.prNumber.all fun n => before.all fun other => other.prNumber ≠ some n)
      ("duplicate PR number: " ++ toString (phase.prNumber.getD 0))
    check (phase.dependsOn = (before.getLast?.map fun other => other.id).toList)
      ("phase " ++ phase.id ++ " must depend only on its adjacent predecessor")
    checkOrder (before ++ [phase]) phases

def isRepoName (name : List Char) : Bool :=
  name ≠ [] && name.all fun c => c.isAlphanum || c = '_' || c = '.' || c = '-'

/-- `owner/repo`, with the host or without it. -/
def isRepo (repo : String) : Bool :=
  match repo.toList.splitOn '/' with
  | [owner, name] => isRepoName owner && isRepoName name
  | [host, owner, name] => host = "github.com".toList && isRepoName owner && isRepoName name
  | _ => false

/-- `validatePhaseLedger`, on a ledger as it is in memory. -/
def validate (caseMap : CaseMap) (ledger : PhaseLedger) : Except String PhaseLedger := do
  check (!isBlank ledger.chainId) "ledger requires a non-empty chainId"
  check (isRepo ledger.repo) "ledger requires repo in owner/repo or github.com/owner/repo form"
  check (0 < ledger.issueNumber) "ledger requires a positive issueNumber"
  check (ledger.phases ≠ []) "ledger requires at least one phase"
  let phases ← parsePhases caseMap ledger.phases 0
  checkOrder [] phases
  checkTimestamp ledger.blockedSince "blockedSince must be an ISO timestamp"
  check (ledger.blockedSince.isNone || ledger.blockedReason.isSome) "blockedSince requires blockedReason"
  return { ledger with phases }

end PhaseLedger

namespace PhaseResultComment

/-- Drop a prefix, if the text starts with it. -/
def after : List Char → List Char → Option (List Char)
  | [], text => some text
  | p :: pre, c :: cs => if p = c then after pre cs else none
  | _ :: _, [] => none

/-- What stands before the end of the HTML comment. -/
def untilClose : List Char → Option (List Char)
  | [] => none
  | '-' :: '-' :: '>' :: _ => some []
  | c :: cs => (untilClose cs).map fun text => c :: text

/-- The payload of a marker that starts here. -/
def marker (text : List Char) : Option (List Char) := do
  let rest ← after ['<', '!', '-', '-'] text
  let rest ← after "kookr-phase-result".toList (rest.dropWhile isTrimmed)
  if rest.head?.any isTrimmed then
    let payload ← untilClose (rest.dropWhile isTrimmed)
    return (payload.reverse.dropWhile isTrimmed).reverse
  else none

/-- The payload of the first marker. -/
def payload : List Char → Option (List Char)
  | [] => none
  | c :: cs => (marker (c :: cs)).or (payload cs)

def fields : List String :=
  ["version", "chainId", "issueNumber", "phaseId", "prNumber", "status", "taskId", "ownerTerminal", "mergedAt",
    "reviewVerdict", "reviewedAt", "reviewerTaskId", "reviewAttempts", "reviewHeadSha", "reviewIterationCap"]

/-- A member that is absent, or that passes. -/
def optional {α : Type} (value : Json) (name : String) (read : Json → Option α) : Option (Option α) :=
  match value.get name with
  | none => some none
  | some member => (read member).map some

def positiveInteger (value : Json) : Option ℕ := value.asNum.bind NumLit.positiveInteger

def filledText (value : Json) : Option String := value.asStr.filter fun text => !isBlank text

def isoDate (value : Json) : Option String :=
  value.asStr.filter fun text => (isValidIsoTimestamp text).toOption = some true

def boolean : Json → Option Bool
  | .bool b => some b
  | _ => none

def readStatus (value : Json) : Option PhaseStatus :=
  match value.asStr with
  | some "pending" => some .pending
  | some "in-flight" => some .inFlight
  | some "blocked" => some .blocked
  | some "merged" => some .merged
  | _ => none

def readVerdict (value : Json) : Option ReviewVerdict :=
  match value.asStr with
  | some "pass" => some .pass
  | some "block" => some .block
  | _ => none

/-- The checks of a result, and its members. -/
def read (value : Json) : Option PhaseResultComment := do
  let .obj members := value | none
  guard (members.all fun member => member.1 ∈ fields)
  guard ((value.get "version").bind positiveInteger = some 1)
  let chainId ← (value.get "chainId").bind Json.asStr
  let issueNumber ← (value.get "issueNumber").bind positiveInteger
  let phaseId ← (value.get "phaseId").bind Json.asStr
  guard (phaseId ≠ "")
  let prNumber ← optional value "prNumber" positiveInteger
  let status ← optional value "status" readStatus
  let taskId ← optional value "taskId" filledText
  let ownerTerminal ← optional value "ownerTerminal" boolean
  let mergedAt ← optional value "mergedAt" isoDate
  let reviewVerdict ← optional value "reviewVerdict" readVerdict
  let reviewedAt ← optional value "reviewedAt" isoDate
  guard (reviewedAt.isNone || reviewVerdict.isSome)
  let reviewerTaskId ← optional value "reviewerTaskId" filledText
  guard (reviewerTaskId.isNone || reviewVerdict.isSome)
  let reviewAttempts ← optional value "reviewAttempts" positiveInteger
  let reviewHeadSha ← optional value "reviewHeadSha" filledText
  let reviewIterationCap ← optional value "reviewIterationCap" fun cap => (positiveInteger cap).filter isReviewIterationCap
  return ⟨chainId, issueNumber, phaseId, prNumber, status, taskId, ownerTerminal, mergedAt, reviewVerdict, reviewedAt,
    reviewerTaskId, reviewAttempts, reviewHeadSha, reviewIterationCap⟩

/-- The result that is returned has the head in lower case. -/
def ofJson (caseMap : CaseMap) (value : Json) : Option PhaseResultComment :=
  (read value).map fun result => { result with reviewHeadSha := result.reviewHeadSha.map caseMap.lower }

/-- `parsePhaseResultComment`: a comment that is no phase result is ignored. -/
def parse (caseMap : CaseMap) (body : String) : Option PhaseResultComment :=
  (payload body.toList).bind fun text => (Json.parse text).bind (ofJson caseMap)

end PhaseResultComment

namespace PhaseLedgerPhase

variable (phase : PhaseLedgerPhase) (result : PhaseResultComment)

/-- A comment of an earlier review generation is skipped, and so is an owner comment without a
generation once there is one. -/
def isStale : Bool :=
  (result.reviewAttempts.any fun attempts => attempts < phase.reviewAttempts.getD 0) ||
    (result.reviewVerdict.isSome && result.reviewAttempts.getD 1 < phase.reviewAttempts.getD 0) ||
    (result.reviewVerdict.isNone && phase.reviewAttempts.isSome && result.reviewAttempts.isNone)

def write : PhaseLedgerPhase :=
  { phase with
    prNumber := result.prNumber.or phase.prNumber
    status := result.status.or phase.status
    taskId := result.taskId.or phase.taskId
    ownerTerminal := result.ownerTerminal.or phase.ownerTerminal
    mergedAt := result.mergedAt.or phase.mergedAt
    reviewVerdict := result.reviewVerdict.or phase.reviewVerdict
    reviewHeadSha := if result.reviewVerdict.isSome then result.reviewHeadSha else phase.reviewHeadSha
    reviewedAt := result.reviewedAt.or phase.reviewedAt
    reviewerTaskId := result.reviewerTaskId.or phase.reviewerTaskId
    reviewAttempts :=
      if result.reviewVerdict.isSome then some (max (phase.reviewAttempts.getD 0) (result.reviewAttempts.getD 1))
      else phase.reviewAttempts
    reviewIterationCap :=
      match result.reviewIterationCap with
      | some cap => some (min (phase.reviewIterationCap.getD cap) cap)
      | none => phase.reviewIterationCap }

def apply : PhaseLedgerPhase := if phase.isStale result then phase else phase.write result

end PhaseLedgerPhase

namespace PhaseLedger

/-- The phase a map from ids to phases gives is the last one with the id. -/
def changeById (id : String) (f : PhaseLedgerPhase → PhaseLedgerPhase) : List PhaseLedgerPhase → List PhaseLedgerPhase
  | [] => []
  | phase :: phases =>
    if phase.id = id ∧ ∀ other ∈ phases, other.id ≠ id then f phase :: phases else phase :: changeById id f phases

/-- The results that are about this ledger, in the order of the comments. -/
def results (caseMap : CaseMap) (ledger : PhaseLedger) (comments : List String) : List PhaseResultComment :=
  (comments.filterMap (PhaseResultComment.parse caseMap)).filter fun result =>
    result.chainId = ledger.chainId && result.issueNumber = ledger.issueNumber

/-- `reconcilePhaseResultComments`. -/
def reconcile (caseMap : CaseMap) (ledger : PhaseLedger) (comments : List String) : Except String PhaseLedger :=
  let phases := (ledger.results caseMap comments).foldl (fun phases result =>
    changeById result.phaseId (fun phase => phase.apply result) phases) ledger.phases
  validate caseMap { ledger with phases }

end PhaseLedger

inductive PhaseEligibility where
  | eligible (phase : PhaseLedgerPhase)
  | blocked (blockedOn : PhaseLedgerPhase)
  | complete
  deriving DecidableEq

/-- `nextEligiblePhase`: the walk stops at the first phase that is not reachable. -/
def nextEligiblePhase (isMerged : ℕ → Bool) : List PhaseLedgerPhase → PhaseEligibility
  | [] => .complete
  | phase :: phases =>
    if phase.prNumber.any isMerged then nextEligiblePhase isMerged phases
    else if phase.prNumber.isNone then .eligible phase
    else .blocked phase

end Kookr.Core
