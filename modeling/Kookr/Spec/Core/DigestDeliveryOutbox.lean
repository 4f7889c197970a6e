import Kookr.Spec.Core.LessonWriteSpool

/-! The outbox of digests (`src/core/digest-delivery-outbox.ts`). A call of its one writer is the durable steps that it takes:
whole writes of the records file, and posts. A crash leaves the first of these steps. The content hash, the order of texts and
the texts of dates are parameters. -/

namespace Kookr.Core

open Kookr.Lib

def DEFAULT_DIGEST_OUTBOX_MAX_ATTEMPTS : ℕ := 5

def DEFAULT_DIGEST_OUTBOX_MAX_AGE_MS : ℤ := 90 * 24 * 60 * 60 * 1000

inductive DigestDeliveryState where
  | saved | posting | posted | failed
  deriving DecidableEq

structure DigestDeliveryRecord where
  key : String
  reportDay : String
  channel : String
  contentHash : String
  content : String
  state : DigestDeliveryState
  attemptCount : ℕ
  createdAt : String
  updatedAt : String
  lastError : Option String
  lastAttemptAt : Option String
  messageId : Option String
  deriving DecidableEq

inductive ControlRoomPostResult where
  | confirmed (messageId : Option String)
  | timeout (error : Option String)
  | ambiguous (error : Option String)
  | failed (error : Option String)
  deriving DecidableEq

structure ControlRoomPost where
  key : String
  reportDay : String
  channel : String
  content : String
  contentHash : String
  attempt : ℕ
  deriving DecidableEq

inductive DeliverDigestOutcome where
  | posted (record : DigestDeliveryRecord)
  | alreadyPosted (record : DigestDeliveryRecord)
  | failed (reason : ControlRoomPostResult) (record : DigestDeliveryRecord)
  | exhausted (record : DigestDeliveryRecord)
  | notFound (key : String)
  deriving DecidableEq

inductive SaveDigestOutcome where
  | created | exists | alreadyPosted
  deriving DecidableEq

structure ReconcileResult where
  attempted : ℕ
  posted : ℕ
  stillFailed : ℕ
  exhausted : ℕ
  pruned : ℕ
  results : List DeliverDigestOutcome
  deriving DecidableEq

structure ReconcileOpts where
  now : Option ℤ
  maxAttempts : Option ℕ
  maxAgeMs : Option ℤ
  deriving DecidableEq

def ReconcileOpts.attempts (opts : ReconcileOpts) : ℕ := opts.maxAttempts.getD DEFAULT_DIGEST_OUTBOX_MAX_ATTEMPTS

structure DigestInput where
  reportDay : String
  channel : String
  content : String
  deriving DecidableEq

/-- The hash of a digest, `localeCompare`, `toISOString`, and `Date.parse` with the texts that it does not read. -/
structure DigestTexts where
  computeContentHash : String → String
  localeCompare : String → String → Ordering
  toISOString : ℤ → String
  dateParse : String → Option ℤ

/-- What a call meets: the readings of its clock, and what comes of a post, an exception being its text. -/
structure DeliveryWorld where
  clock : ℕ → ℤ
  post : ControlRoomPost → Except String ControlRoomPostResult

/-- What is left of the readings after one delivery. -/
def DeliveryWorld.later (world : DeliveryWorld) : DeliveryWorld := { world with clock := fun i => world.clock (i + 2) }

def deliveryKey (reportDay channel contentHash : String) : String := reportDay ++ "|" ++ channel ++ "|" ++ contentHash

/-- The writes, under the function that makes them, and the posts. `posting` counts an attempt before its post, `settled` has
the result after it. -/
inductive DurableStep where
  | saved (records : List DigestDeliveryRecord)
  | posting (request : ControlRoomPost) (records : List DigestDeliveryRecord)
  | post (request : ControlRoomPost) (result : ControlRoomPostResult)
  | settled (request : ControlRoomPost) (result : ControlRoomPostResult) (records : List DigestDeliveryRecord)
  | pruned (records : List DigestDeliveryRecord)
  deriving DecidableEq

def DurableStep.written : DurableStep → Option (List DigestDeliveryRecord)
  | .saved records | .posting _ records | .settled _ _ records | .pruned records => some records
  | .post _ _ => none

/-- The records file and the durable steps so far. -/
structure DigestOutbox where
  file : List DigestDeliveryRecord
  trace : List DurableStep

namespace DigestOutbox

def start : DigestOutbox := ⟨[], []⟩

def take (outbox : DigestOutbox) (step : DurableStep) : DigestOutbox :=
  ⟨step.written.getD outbox.file, outbox.trace ++ [step]⟩

end DigestOutbox

/-- The file once the steps are taken. -/
def fileAfter (file : List DigestDeliveryRecord) (steps : List DurableStep) : List DigestDeliveryRecord :=
  steps.foldl (fun file step => step.written.getD file) file

namespace DigestTexts

variable (texts : DigestTexts)

def isValidRecord (record : DigestDeliveryRecord) : Bool :=
  record.key ≠ "" && record.contentHash = texts.computeContentHash record.content &&
    record.key = deliveryKey record.reportDay record.channel (texts.computeContentHash record.content)

def readDigestRecords (file : List DigestDeliveryRecord) : OrderedMap String DigestDeliveryRecord :=
  mapBy DigestDeliveryRecord.key (file.filter texts.isValidRecord)

def sortByKey (records : List DigestDeliveryRecord) : List DigestDeliveryRecord :=
  records.insertionSort fun a b => texts.localeCompare a.key b.key ≠ .gt

/-- What `writeDigestRecords` makes the file. -/
def writeDigestRecords (byKey : OrderedMap String DigestDeliveryRecord) : List DigestDeliveryRecord :=
  texts.sortByKey byKey.values

def newDigest (input : DigestInput) (now : ℤ) : DigestDeliveryRecord :=
  let reportDay := String.ofList (trimLine input.reportDay.toList)
  let channel := String.ofList (trimLine input.channel.toList)
  let contentHash := texts.computeContentHash input.content
  { key := deliveryKey reportDay channel contentHash
    reportDay := reportDay
    channel := channel
    contentHash := contentHash
    content := input.content
    state := .saved
    attemptCount := 0
    createdAt := texts.toISOString now
    updatedAt := texts.toISOString now
    lastError := none
    lastAttemptAt := none
    messageId := none }

def saveDigest (file : List DigestDeliveryRecord) (input : DigestInput) (now : ℤ) :
    List DurableStep × Except String (SaveDigestOutcome × DigestDeliveryRecord) :=
  let record := texts.newDigest input now
  if record.reportDay = "" then ([], .error "reportDay is required")
  else if record.channel = "" then ([], .error "channel is required")
  else if trimLine input.content.toList = [] then ([], .error "content is required")
  else
    let byKey := texts.readDigestRecords file
    match byKey.get record.key with
    | some existing => ([], .ok (if existing.state = .posted then .alreadyPosted else .exists, existing))
    | none => ([.saved (texts.writeDigestRecords (byKey.set record.key record))], .ok (.created, record))

def postOf (record : DigestDeliveryRecord) : ControlRoomPost where
  key := record.key
  reportDay := record.reportDay
  channel := record.channel
  content := record.content
  contentHash := record.contentHash
  attempt := record.attemptCount + 1

/-- The record while its next attempt is under way. -/
def postingRecord (record : DigestDeliveryRecord) (now : ℤ) : DigestDeliveryRecord :=
  { record with
    state := .posting
    attemptCount := record.attemptCount + 1
    lastAttemptAt := some (texts.toISOString now)
    updatedAt := texts.toISOString now }

/-- An exception of the chokepoint is a timeout. -/
def postResult : Except String ControlRoomPostResult → ControlRoomPostResult
  | .ok result => result
  | .error message => .timeout (some message)

def lastError : ControlRoomPostResult → String
  | .confirmed _ => "confirmed"
  | .timeout error => error.getD "timeout"
  | .ambiguous error => error.getD "ambiguous"
  | .failed error => error.getD "failed"

/-- The record with the result of its attempt. -/
def settledRecord (posting : DigestDeliveryRecord) (settledAt : ℤ) (result : ControlRoomPostResult) : DigestDeliveryRecord :=
  match result with
  | .confirmed messageId =>
    { posting with
      state := .posted
      updatedAt := texts.toISOString settledAt
      messageId := (messageId.filter fun messageId => messageId ≠ "").or posting.messageId
      lastError := none }
  | result =>
    { posting with
      state := .failed
      updatedAt := texts.toISOString settledAt
      lastError := some (String.ofList (sliceUnits 500 (lastError result).toList)) }

def deliverDigest (file : List DigestDeliveryRecord) (key : String) (opts : ReconcileOpts) (world : DeliveryWorld) :
    List DurableStep × DeliverDigestOutcome :=
  let byKey := texts.readDigestRecords file
  match byKey.get key with
  | none => ([], .notFound key)
  | some record =>
    if record.state = .posted then ([], .alreadyPosted record)
    else if opts.attempts ≤ record.attemptCount then ([], .exhausted record)
    else
      let posting := texts.postingRecord record (opts.now.getD (world.clock 0))
      let request := postOf record
      let result := postResult (world.post request)
      let settled := texts.settledRecord posting (opts.now.getD (world.clock 1)) result
      ([.posting request (texts.writeDigestRecords (byKey.set key posting)), .post request result,
          .settled request result (texts.writeDigestRecords ((byKey.set key posting).set key settled))],
        match result with
        | .confirmed _ => .posted settled
        | result => .failed result settled)

def needsRecovery (record : DigestDeliveryRecord) (maxAttempts : ℕ) : Bool :=
  !(record.state = .posted) && !(record.state = .failed && decide (maxAttempts ≤ record.attemptCount))

def isDead (record : DigestDeliveryRecord) (maxAttempts : ℕ) : Bool :=
  record.state = .failed && decide (maxAttempts ≤ record.attemptCount)

/-- A record that the retention lets go. -/
def isPrunable (opts : ReconcileOpts) (nowMs : ℤ) (record : DigestDeliveryRecord) : Bool :=
  (record.state = .posted || isDead record opts.attempts) &&
    (texts.dateParse record.updatedAt).all fun updated => decide (opts.maxAgeMs.getD DEFAULT_DIGEST_OUTBOX_MAX_AGE_MS < nowMs - updated)

def pruneTerminalRecords (file : List DigestDeliveryRecord) (opts : ReconcileOpts) (world : DeliveryWorld) :
    List DurableStep × ℕ :=
  let byKey := texts.readDigestRecords file
  let nowMs := opts.now.getD (world.clock 0)
  let pruned := (byKey.values.filter (texts.isPrunable opts nowMs)).length
  if 0 < pruned then
    ([.pruned (texts.writeDigestRecords (byKey.filter fun _ record => !texts.isPrunable opts nowMs record))], pruned)
  else ([], 0)

def pendingKeys (file : List DigestDeliveryRecord) (maxAttempts : ℕ) : List String :=
  (texts.sortByKey ((texts.readDigestRecords file).values.filter fun record => needsRecovery record maxAttempts)).map
    DigestDeliveryRecord.key

/-- The loop over the pending keys, then the pruning. -/
def deliverPending (opts : ReconcileOpts) : List String → List DigestDeliveryRecord → DeliveryWorld →
    List DurableStep × List DeliverDigestOutcome × ℕ
  | [], file, world =>
    let pruning := texts.pruneTerminalRecords file opts world
    (pruning.1, [], pruning.2)
  | key :: keys, file, world =>
    let delivery := texts.deliverDigest file key opts world
    let rest := deliverPending opts keys (fileAfter file delivery.1) world.later
    (delivery.1 ++ rest.1, delivery.2 :: rest.2.1, rest.2.2)

def reconcile (file : List DigestDeliveryRecord) (opts : ReconcileOpts) (world : DeliveryWorld) :
    List DurableStep × ReconcileResult :=
  let keys := texts.pendingKeys file opts.attempts
  let delivered := texts.deliverPending opts keys file world
  (delivered.1,
    { attempted := keys.length
      posted := delivered.2.1.countP fun outcome => match outcome with
        | .posted _ | .alreadyPosted _ => true
        | _ => false
      stillFailed := delivered.2.1.countP fun outcome => match outcome with
        | .failed _ _ | .notFound _ => true
        | _ => false
      exhausted := delivered.2.1.countP fun outcome => match outcome with
        | .exhausted _ => true
        | _ => false
      pruned := delivered.2.2
      results := delivered.2.1 })

end DigestTexts

inductive DigestOp where
  | saveDigest (input : DigestInput)
  | deliverDigest (key : String)
  | reconcile
  | pruneTerminalRecords
  deriving DecidableEq

/-- A call, and the number of its durable steps before the process crashes, if it does. -/
structure DigestCall where
  op : DigestOp
  opts : ReconcileOpts
  world : DeliveryWorld
  crash : Option ℕ

/-- The durable steps of the call without a crash. -/
def DigestCall.steps (texts : DigestTexts) (file : List DigestDeliveryRecord) (call : DigestCall) : List DurableStep :=
  match call.op with
  | .saveDigest input => (texts.saveDigest file input (call.opts.now.getD (call.world.clock 0))).1
  | .deliverDigest key => (texts.deliverDigest file key call.opts call.world).1
  | .reconcile => (texts.reconcile file call.opts call.world).1
  | .pruneTerminalRecords => (texts.pruneTerminalRecords file call.opts call.world).1

def DigestCall.taken (texts : DigestTexts) (file : List DigestDeliveryRecord) (call : DigestCall) : List DurableStep :=
  match call.crash with
  | none => call.steps texts file
  | some n => (call.steps texts file).take n

namespace DigestOutbox

def next (texts : DigestTexts) (outbox : DigestOutbox) (call : DigestCall) : DigestOutbox :=
  (call.taken texts outbox.file).foldl take outbox

def step (texts : DigestTexts) (outbox : DigestOutbox) (call : DigestCall) : Option DigestOutbox :=
  some (outbox.next texts call)

def run (texts : DigestTexts) (outbox : DigestOutbox) (calls : List DigestCall) : DigestOutbox :=
  calls.foldl (next texts) outbox

end DigestOutbox

def keyed (key : String) (records : List DigestDeliveryRecord) : Bool := records.any fun record => record.key = key

/-- The posts for the key since its record was last pruned. -/
def postsSince (key : String) (trace : List DurableStep) : ℕ :=
  trace.foldl (fun posts step =>
    match step with
    | .post request _ => if request.key = key then posts + 1 else posts
    | .pruned records => if keyed key records then posts else 0
    | _ => posts) 0

/-- A confirmed post for the key has been written since its record was last pruned. -/
def confirmedSince (key : String) (trace : List DurableStep) : Bool :=
  trace.foldl (fun confirmed step =>
    match step with
    | .settled request (.confirmed _) _ => confirmed || request.key = key
    | .pruned records => confirmed && keyed key records
    | _ => confirmed) false

end Kookr.Core
