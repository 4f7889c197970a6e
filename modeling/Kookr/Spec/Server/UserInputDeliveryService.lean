import Mathlib.Data.Int.Notation
import Mathlib.Data.List.DropRight

/-! The deliveries of user messages to one session (`src/server/user-input-delivery-service.ts`). Sessions share nothing
of it. Times are in milliseconds. What the adapter answers, what the pane of the terminal shows, and when, is open; the
interaction log is left out, for nothing of it is read. -/

namespace Kookr.Server

inductive UserInputDeliveryStatus where
  | queued
  | submittedByAgent
  | failed
  deriving DecidableEq

inductive UserInputDeliverySource where
  | respond
  | directReply
  | githubWatcher
  deriving DecidableEq

inductive DeliveryTerminalReason where
  | sessionEndedBeforeSubmitHook
  deriving DecidableEq

structure UserInputDeliverySnapshot where
  deliveryId : String
  deliverySeq : ℕ
  source : UserInputDeliverySource
  text : String
  status : UserInputDeliveryStatus
  createdAt : ℕ
  updatedAt : ℕ
  ptyAcceptedAt : Option ℕ := none
  submittedHookLineId : Option String := none
  terminalReason : Option DeliveryTerminalReason := none
  error : Option String := none
  enterRetries : Option ℕ := none
  lastRetryAt : Option ℕ := none
  deriving DecidableEq

structure UserInputDeliveryRetry where
  confirmTimeoutMs : ℕ := 15000
  maxEnterRetries : ℕ := 2

/-- A captured pane, as far as the retries read it. -/
structure DeliveryPane where
  isBusyOrAwaitingDialog : Bool
  showsUnsubmittedDelivery : String → Bool

inductive RetrySweepStage where
  | capturing (candidates : List String)
  | entering (deliveryId : String)

structure RetrySweep where
  number : ℕ
  stage : RetrySweepStage

/-- What has happened, for the statements about a run. -/
inductive DeliveryLog where
  | created (deliveryId text : String)
  /-- A hook line that was not seen before, with the delivery that it confirms. -/
  | prompted (hookLineId prompt : String) (confirms : Option String)
  deriving DecidableEq

structure UserInputDeliveryService where
  deliveries : List UserInputDeliverySnapshot
  nextSeq : ℕ
  observedHookIds : List String
  /-- The deliveries whose `sendInput` has not settled, as they were created. -/
  sending : List UserInputDeliverySnapshot
  sweeps : List RetrySweep
  swept : ℕ
  log : List DeliveryLog

inductive DeliveryEvent where
  | submitMessage (deliveryId text : String) (source : UserInputDeliverySource) (now : ℕ)
  | inputResolved (deliveryId : String) (now : ℕ)
  | inputRejected (deliveryId error : String) (now : ℕ)
  | observeProviderUserPrompt (prompt hookLineId : String) (observedAtMs now : ℕ)
  | finalizeSession (now : ℕ)
  | sweepUnsubmittedDeliveries (now : ℕ)
  /-- Nothing when the capture fails. -/
  | paneCaptured (sweep : ℕ) (pane : Option DeliveryPane)
  | enterSent (sweep : ℕ) (succeeded : Bool) (now : ℕ)

/-- CRLF and CR become LF. -/
def foldNewlines : List Char → List Char
  | [] => []
  | '\r' :: '\n' :: cs => '\n' :: foldNewlines cs
  | '\r' :: cs => '\n' :: foldNewlines cs
  | c :: cs => c :: foldNewlines cs

/-- `normalizeUserPromptNewlines`. -/
def normalizePrompt (text : String) : String := String.ofList ((foldNewlines text.toList).rdropWhile (· = '\n'))

namespace UserInputDeliveryService

def create : UserInputDeliveryService := ⟨[], 1, [], [], [], 0, []⟩

variable (s : UserInputDeliveryService)

def getDelivery (deliveryId : String) : Option UserInputDeliverySnapshot := s.deliveries.find? fun delivery => delivery.deliveryId = deliveryId

def replaceDelivery (deliveryId : String) (next : UserInputDeliverySnapshot) : UserInputDeliveryService :=
  match s.deliveries.findIdx? fun delivery => delivery.deliveryId = deliveryId with
  | none => s
  | some index => { s with deliveries := s.deliveries.set index next }

/-- `createDelivery`, `appendDelivery` and the call of `sendInput`. -/
def submitMessage (deliveryId text : String) (source : UserInputDeliverySource) (now : ℕ) : UserInputDeliveryService :=
  let delivery : UserInputDeliverySnapshot :=
    { deliveryId, deliverySeq := s.nextSeq, source, text, status := .queued, createdAt := now, updatedAt := now }
  { s with
    deliveries := s.deliveries ++ [delivery]
    nextSeq := s.nextSeq + 1
    sending := s.sending ++ [delivery]
    log := s.log ++ [.created deliveryId text] }

def settleInput (deliveryId : String) : UserInputDeliveryService :=
  { s with sending := s.sending.eraseP fun delivery => delivery.deliveryId = deliveryId }

def inputResolved (delivery : UserInputDeliverySnapshot) (acceptedAt : ℕ) : UserInputDeliveryService :=
  match s.getDelivery delivery.deliveryId with
  | none => s
  | some current =>
    if current.status ≠ .queued ∨ current.terminalReason.isSome then s
    else s.replaceDelivery delivery.deliveryId { current with status := .queued, ptyAcceptedAt := some acceptedAt, updatedAt := acceptedAt }

/-- The delivery as it was created, failed. -/
def inputRejected (delivery : UserInputDeliverySnapshot) (error : String) (failedAt : ℕ) : UserInputDeliveryService :=
  s.replaceDelivery delivery.deliveryId { delivery with status := .failed, updatedAt := failedAt, error := some error }

def confirms (prompt : String) (observedAtMs : ℕ) (delivery : UserInputDeliverySnapshot) : Bool :=
  delivery.status = .queued && delivery.ptyAcceptedAt.isSome && delivery.submittedHookLineId.isNone &&
    delivery.createdAt < observedAtMs && normalizePrompt delivery.text = normalizePrompt prompt

def observeProviderUserPrompt (prompt hookLineId : String) (observedAtMs now : ℕ) : UserInputDeliveryService :=
  if hookLineId ∈ s.observedHookIds then s
  else
    let s := { s with observedHookIds := s.observedHookIds ++ [hookLineId] }
    match s.deliveries.find? (confirms prompt observedAtMs) with
    | none => { s with log := s.log ++ [.prompted hookLineId prompt none] }
    | some delivery => { s.replaceDelivery delivery.deliveryId
        { delivery with status := .submittedByAgent, submittedHookLineId := some hookLineId, updatedAt := now } with
      log := s.log ++ [.prompted hookLineId prompt (some delivery.deliveryId)] }

def finalizeSession (now : ℕ) : UserInputDeliveryService :=
  { s with deliveries := s.deliveries.map fun delivery =>
      if delivery.status = .queued then { delivery with status := .failed, updatedAt := now, terminalReason := some .sessionEndedBeforeSubmitHook }
      else delivery }

def needsRetry (retry : UserInputDeliveryRetry) (now : ℕ) (delivery : UserInputDeliverySnapshot) : Bool :=
  match delivery.ptyAcceptedAt with
  | none => false
  | some ptyAcceptedAt =>
    delivery.status = .queued && delivery.submittedHookLineId.isNone && delivery.enterRetries.getD 0 < retry.maxEnterRetries &&
      (retry.confirmTimeoutMs : ℤ) ≤ (now : ℤ) - (delivery.lastRetryAt.getD ptyAcceptedAt : ℕ)

/-- Up to the capture of the pane. -/
def sweepUnsubmittedDeliveries (retry : Option UserInputDeliveryRetry) (now : ℕ) : UserInputDeliveryService :=
  match retry with
  | none => s
  | some retry =>
    let candidates := (s.deliveries.filter (needsRetry retry now)).map UserInputDeliverySnapshot.deliveryId
    if candidates = [] then s
    else { s with sweeps := s.sweeps ++ [⟨s.swept, .capturing candidates⟩], swept := s.swept + 1 }

def setSweep (number : ℕ) (stage : Option RetrySweepStage) : UserInputDeliveryService :=
  { s with sweeps := s.sweeps.filterMap fun sweep => if sweep.number = number then stage.map (⟨number, ·⟩) else some sweep }

/-- The candidate is still queued, and its text is what the pane shows. -/
def getsEnter (pane : DeliveryPane) (deliveryId : String) : Bool :=
  match s.getDelivery deliveryId with
  | none => false
  | some delivery => delivery.status = .queued && delivery.submittedHookLineId.isNone && pane.showsUnsubmittedDelivery delivery.text

def paneCaptured (number : ℕ) (candidates : List String) (pane : Option DeliveryPane) : UserInputDeliveryService :=
  match pane with
  | none => s.setSweep number none
  | some pane =>
    if pane.isBusyOrAwaitingDialog then s.setSweep number none
    else s.setSweep number ((candidates.find? (s.getsEnter pane)).map .entering)

def enterSent (number : ℕ) (deliveryId : String) (succeeded : Bool) (now : ℕ) : UserInputDeliveryService :=
  let s := s.setSweep number none
  if !succeeded then s
  else
    match s.getDelivery deliveryId with
    | none => s
    | some afterEnter =>
      if afterEnter.status ≠ .queued then s
      else s.replaceDelivery deliveryId
        { afterEnter with enterRetries := some (afterEnter.enterRetries.getD 0 + 1), lastRetryAt := some now, updatedAt := now }

/-- A delivery gets an id of its own. -/
def step (retry : Option UserInputDeliveryRetry) : UserInputDeliveryService → DeliveryEvent → Option UserInputDeliveryService
  | s, .submitMessage deliveryId text source now =>
    if (s.getDelivery deliveryId).isSome then none else some (s.submitMessage deliveryId text source now)
  | s, .inputResolved deliveryId now =>
    (s.sending.find? fun delivery => delivery.deliveryId = deliveryId).map fun delivery => (s.settleInput deliveryId).inputResolved delivery now
  | s, .inputRejected deliveryId error now =>
    (s.sending.find? fun delivery => delivery.deliveryId = deliveryId).map fun delivery => (s.settleInput deliveryId).inputRejected delivery error now
  | s, .observeProviderUserPrompt prompt hookLineId observedAtMs now => some (s.observeProviderUserPrompt prompt hookLineId observedAtMs now)
  | s, .finalizeSession now => some (s.finalizeSession now)
  | s, .sweepUnsubmittedDeliveries now => some (s.sweepUnsubmittedDeliveries retry now)
  | s, .paneCaptured number pane =>
    (s.sweeps.find? fun sweep => sweep.number = number).bind fun sweep =>
      match sweep.stage with
      | .capturing candidates => some (s.paneCaptured number candidates pane)
      | .entering _ => none
  | s, .enterSent number succeeded now =>
    (s.sweeps.find? fun sweep => sweep.number = number).bind fun sweep =>
      match sweep.stage with
      | .capturing _ => none
      | .entering deliveryId => some (s.enterSent number deliveryId succeeded now)

end UserInputDeliveryService

end Kookr.Server
