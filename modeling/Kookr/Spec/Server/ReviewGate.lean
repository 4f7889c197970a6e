import Kookr.Spec.Core.PhaseLedger

/-! Who may authorise the next phase: the kill switch and the verdict of an independent review
(`src/server/self-advancing-authority.ts`), and the audit of a merged phase
(`src/server/review-gate-audit.ts`). A verdict is one of a ledger; `PASS` is `pass`. -/

namespace Kookr.Server

open Kookr.Lib Kookr.Core

variable (caseMap : CaseMap)

/-- `String.prototype.trim`. -/
def trimText (text : String) : String :=
  String.ofList ((text.toList.dropWhile Remote.isTrimmed).reverse.dropWhile Remote.isTrimmed).reverse

/-- The kill switch, as `KOOKR_SELF_ADVANCING_DISABLED` has it. -/
def isSelfAdvancingDisabled (raw : Option String) : Bool :=
  match raw with
  | none => false
  | some raw =>
    let value := caseMap.lower (trimText raw)
    value ≠ "" && value ∉ ["0", "false", "no", "off"]

/-- A text that is there and not empty. -/
def truthy (text : Option String) : Option String := text.filter fun text => text ≠ ""

def defaultReviewIterationCap : ℕ := 10

structure IndependentReviewInput where
  implementerLineage : List String
  reviewerTaskId : Option String
  reviewerRan : Bool
  verdict : Option ReviewVerdict
  reviewAttempts : ℕ
  maxReviewAttempts : Option ℕ
  reviewHeadSha : Option String
  currentHeadSha : Option String

inductive ReviewDecision where
  | mergeAllowed
  | blocked
  | retryReview
  | humanRequired
  deriving DecidableEq

structure IndependentReviewDecision where
  decision : ReviewDecision
  reason : String
  deriving DecidableEq

/-- The verdict was given for the head the PR has now. -/
def headMatches (reviewHeadSha currentHeadSha : Option String) : Bool :=
  match truthy reviewHeadSha, truthy currentHeadSha with
  | some reviewed, some current => caseMap.lower reviewed = caseMap.lower current
  | _, _ => false

def attemptsOf (attempts cap : ℕ) : String := toString attempts ++ "/" ++ toString cap

/-- The reviewer is known, and is not of the implementer's lineage. -/
def reviewerIdentity (input : IndependentReviewInput) : Except String Unit :=
  if input.reviewerRan then
    match truthy input.reviewerTaskId with
    | none => .error "reviewer ran but reported no task id — cannot verify independence"
    | some reviewer =>
      if reviewer ∈ input.implementerLineage then
        .error ("reviewer task " ++ reviewer ++ " is in the implementer lineage — verdict is not independent")
      else .ok ()
  else .ok ()

def evaluateIndependentReview (input : IndependentReviewInput) : IndependentReviewDecision :=
  let cap := input.maxReviewAttempts.getD defaultReviewIterationCap
  let spent := decide (input.reviewAttempts ≥ cap)
  if !isReviewIterationCap cap then ⟨.humanRequired, "review attempt cap exceeds the shared autonomous review cap"⟩
  else
    match reviewerIdentity input with
    | .error reason => ⟨.humanRequired, reason⟩
    | .ok () =>
      if input.reviewerRan && input.verdict.isSome && !headMatches caseMap input.reviewHeadSha input.currentHeadSha then
        if spent then
          ⟨.humanRequired, "review verdict is not bound to the current PR head after " ++
            attemptsOf input.reviewAttempts cap ++ " attempts"⟩
        else ⟨.retryReview, "review verdict is missing or stale for the current PR head — run a fresh review"⟩
      else if input.reviewerRan && input.verdict = some .block then
        if spent then
          ⟨.humanRequired, "independent reviewer returned BLOCK after " ++ attemptsOf input.reviewAttempts cap ++
            " correction/review attempts"⟩
        else
          ⟨.retryReview, "independent reviewer returned BLOCK — start correction/review attempt " ++
            attemptsOf (input.reviewAttempts + 1) cap⟩
      else if input.reviewerRan && input.verdict = some .pass then
        ⟨.mergeAllowed, "independent reviewer returned PASS"⟩
      else if spent then
        ⟨.humanRequired, "review could not produce a verdict after " ++ attemptsOf input.reviewAttempts cap ++ " attempts"⟩
      else
        ⟨.retryReview, if input.reviewerRan then "reviewer ran but returned no verdict — retry and alert"
          else "reviewer failed to run — retry and alert"⟩

inductive ReviewGateAuditStatus where
  | pass
  | block
  | missing
  | notRequired
  deriving DecidableEq

structure ReviewGateAuditResult where
  status : ReviewGateAuditStatus
  flagged : Bool
  reason : String

variable (phase : PhaseLedgerPhase) (currentHeadSha : Option String)

def reviewerRan : Bool := phase.reviewerTaskId.isSome || phase.reviewVerdict.isSome

/-- `phaseIndependentReviewInput`. -/
def phaseReviewInput : IndependentReviewInput where
  implementerLineage := phase.taskId.toList
  reviewerTaskId := phase.reviewerTaskId
  reviewerRan := reviewerRan phase
  verdict := phase.reviewVerdict
  reviewAttempts := phase.reviewAttempts.getD (if reviewerRan phase then 1 else 0)
  maxReviewAttempts := phase.reviewIterationCap
  reviewHeadSha := phase.reviewHeadSha
  currentHeadSha := currentHeadSha

/-- Both timestamps are dates, and the review is not after the merge. -/
def reviewPredatesMerge (reviewedAt mergedAt : String) : Bool :=
  match IsoTimestamp.dateParse reviewedAt.toList, IsoTimestamp.dateParse mergedAt.toList with
  | some reviewed, some merged => reviewed.ms ≤ merged.ms
  | _, _ => false

def predates : Bool :=
  match phase.mergedAt, phase.reviewedAt with
  | some mergedAt, some reviewedAt => reviewPredatesMerge reviewedAt mergedAt
  | _, _ => false

/-- `auditReviewGate`, on the input that `phaseReviewGateAuditInput` makes of the phase. -/
def auditReviewGate : ReviewGateAuditResult :=
  if phase.prNumber.isNone then ⟨.notRequired, false, "no merged PR to audit"⟩
  else if predates phase then ⟨.missing, true, "independent review predates the merge point"⟩
  else if phase.taskId.isNone || phase.reviewedAt.isNone then ⟨.missing, true, "independent review is missing"⟩
  else
    let decision := evaluateIndependentReview caseMap (phaseReviewInput phase currentHeadSha)
    if decision.decision = .mergeAllowed then ⟨.pass, false, decision.reason⟩
    else ⟨if phase.reviewVerdict = some .block then .block else .missing, true, decision.reason⟩

/-- `evaluatePhaseReview` of the advancer: a phase that lacks an owner or a review needs one. -/
def evaluatePhaseReview : IndependentReviewDecision :=
  if phase.taskId.isNone || phase.reviewedAt.isNone then ⟨.retryReview, "review is missing"⟩
  else evaluateIndependentReview caseMap (phaseReviewInput phase currentHeadSha)

end Kookr.Server
