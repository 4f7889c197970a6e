import Kookr.Spec.Server.ReviewGate

/-! The ingestion of hook records (`src/server/hook-ingestion.ts`) and its activity ledger below the
rotation size (`src/core/activity-ledger.ts`). The adapters hand back the sequence that they are given
with a record that parsed. A time is a number of milliseconds, and the cache key
`${kookrSessionId}::${contentHash}` is the pair. The lag diagnostics, the audit tail and the HTTP tracker are left out:
nothing here reads them. -/

namespace Kookr.Server

open Kookr.Lib

inductive EventParentage where
  | parent
  | child
  | foreign
  | unknown
  deriving DecidableEq

inductive ParseStatus where
  | ok
  | malformed
  | dropped
  deriving DecidableEq

inductive EventOrigin where
  | live
  | replay
  deriving DecidableEq

inductive HookSource where
  | file
  | http
  deriving DecidableEq

inductive LedgerProjection where
  | parentActivity
  | childActivity
  | diagnosticOnly
  deriving DecidableEq

structure InjectHookEventResult where
  parseStatus : ParseStatus
  agentType : String
  rawSessionId : Option String := none
  rawTurnId : Option String := none
  rawHookEventName : Option String := none
  parentage : Option EventParentage := none
  sequence : Option ℕ := none
  error : Option String := none
  origin : Option EventOrigin := none
  deriving DecidableEq

structure HookEnvelopeV1 where
  kookrSessionId : String
  taskId : Option String
  provider : String
  rawSessionId : Option String
  rawTurnId : Option String
  rawHookEventName : Option String
  source : HookSource
  observedAt : ℕ
  sequence : ℕ
  contentHash : String
  parentage : EventParentage
  parseStatus : ParseStatus
  deriving DecidableEq

structure ActivityLedgerRow where
  envelope : HookEnvelopeV1
  /-- Rows of older versions have none. -/
  rawJson : Option String
  projection : Option LedgerProjection
  error : Option String
  deriving DecidableEq

structure CacheEntry where
  /-- Nothing for `Number.POSITIVE_INFINITY`. -/
  ts : Option ℕ
  result : InjectHookEventResult
  firstSource : HookSource
  hydrated : Bool

structure AgentActivityMeta where
  totalEventsSeen : ℕ := 0
  parentEventCount : ℕ := 0
  childEventCount : ℕ := 0
  foreignEventCount : ℕ := 0
  unknownParentageCount : ℕ := 0
  malformedRecordCount : ℕ := 0
  droppedRecordCount : ℕ := 0
  duplicateRecordCount : ℕ := 0

/-- What the service is built with. -/
structure HookIngestionDeps where
  /-- The adapter's classification of a record; an error is what it throws. -/
  classify : String → Except String InjectHookEventResult
  sha256 : String → String
  findTaskIdBySession : String → Option String
  dedupTtlMs : ℕ

structure HookIngestion where
  cache : OrderedMap (String × String) CacheEntry
  sequenceCounters : OrderedMap String ℕ
  metaByKookrSession : OrderedMap String AgentActivityMeta
  /-- The rows in the ledger's files. -/
  ledger : List ActivityLedgerRow

structure IngestInput where
  kookrSessionId : String
  raw : String
  source : HookSource
  startupReplay : Bool
  /-- The clock. -/
  now : ℕ

structure IngestResult where
  dispatched : Bool
  reason : Option String := none
  contentHash : String
  eventId : String
  origin : EventOrigin
  injectResult : InjectHookEventResult
  deriving DecidableEq

def REPLAY_SESSION_PREFIX : String := "kookr-replay-"

def deriveEventOrigin (kookrSessionId : String) : EventOrigin :=
  if REPLAY_SESSION_PREFIX.toList.isPrefixOf kookrSessionId.toList then .replay else .live

def ledgerProjection (result : InjectHookEventResult) : LedgerProjection :=
  if result.parseStatus ≠ .ok then .diagnosticOnly
  else match result.parentage with
    | some .parent => .parentActivity
    | some .child => .childActivity
    | _ => .diagnosticOnly

namespace AgentActivityMeta

/-- A duplicate has no result of its own. -/
def bump (activityMeta : AgentActivityMeta) : Option InjectHookEventResult → AgentActivityMeta
  | none => { activityMeta with duplicateRecordCount := activityMeta.duplicateRecordCount + 1 }
  | some result =>
    let activityMeta := { activityMeta with totalEventsSeen := activityMeta.totalEventsSeen + 1 }
    match result.parseStatus with
    | .malformed => { activityMeta with malformedRecordCount := activityMeta.malformedRecordCount + 1 }
    | .dropped => { activityMeta with droppedRecordCount := activityMeta.droppedRecordCount + 1 }
    | .ok =>
      match result.parentage with
      | some .parent => { activityMeta with parentEventCount := activityMeta.parentEventCount + 1 }
      | some .child => { activityMeta with childEventCount := activityMeta.childEventCount + 1 }
      | some .foreign => { activityMeta with foreignEventCount := activityMeta.foreignEventCount + 1 }
      | _ => { activityMeta with unknownParentageCount := activityMeta.unknownParentageCount + 1 }

end AgentActivityMeta

namespace HookIngestion

variable (deps : HookIngestionDeps)

def mintEventId (kookrSessionId : String) (sequence : ℕ) : String :=
  "evt_" ++ String.ofList ((deps.sha256 kookrSessionId).toList.take 12) ++ "_" ++ toString sequence

/-- The hash of the trimmed record. -/
def contentHash (raw : String) : String := deps.sha256 (trimText raw)

/-- The adapter's `injectHookEvent`. -/
def injectHookEvent (record : String) (sequence : ℕ) : Except String InjectHookEventResult :=
  (deps.classify record).map fun result =>
    { result with sequence := if result.parseStatus = .ok then some sequence else none }

def start : HookIngestion := ⟨.empty, .empty, .empty, []⟩

/-- The process is gone, and the ledger's files are left. -/
def restart (s : HookIngestion) : HookIngestion := { start with ledger := s.ledger }

variable (s : HookIngestion)

def counter (kookrSessionId : String) : ℕ := (s.sequenceCounters.get kookrSessionId).getD 0

def nextSequence (kookrSessionId : String) : ℕ × HookIngestion :=
  let next := s.counter kookrSessionId + 1
  (next, { s with sequenceCounters := s.sequenceCounters.set kookrSessionId next })

def bumpMeta (kookrSessionId : String) (result : Option InjectHookEventResult) : HookIngestion :=
  { s with
    metaByKookrSession := s.metaByKookrSession.set kookrSessionId
      (((s.metaByKookrSession.get kookrSessionId).getD {}).bump result) }

def gcExpired (now : ℕ) : HookIngestion :=
  { s with cache := s.cache.filter fun _ entry => !entry.ts.any fun ts => ts + deps.dedupTtlMs < now }

def ledgerRow (input : IngestInput) (sequence : ℕ) (result : InjectHookEventResult) (projection : LedgerProjection) :
    ActivityLedgerRow where
  envelope :=
    { kookrSessionId := input.kookrSessionId
      taskId := deps.findTaskIdBySession input.kookrSessionId
      provider := result.agentType
      rawSessionId := result.rawSessionId
      rawTurnId := result.rawTurnId
      rawHookEventName := result.rawHookEventName
      source := input.source
      observedAt := input.now
      sequence
      contentHash := contentHash deps input.raw
      parentage := result.parentage.getD .unknown
      parseStatus := result.parseStatus }
  rawJson := some (trimText input.raw)
  projection := some projection
  error := result.error.filter fun error => error ≠ ""

def writeLedger (input : IngestInput) (sequence : ℕ) (result : InjectHookEventResult) (projection : LedgerProjection) :
    HookIngestion :=
  { s with ledger := s.ledger ++ [ledgerRow deps input sequence result projection] }

def cacheKey (input : IngestInput) : String × String := (input.kookrSessionId, contentHash deps input.raw)

def originOf (input : IngestInput) : EventOrigin :=
  if input.startupReplay then .replay else deriveEventOrigin input.kookrSessionId

/-- A record that the ledger had before the restart. -/
def replayHydrated (input : IngestInput) (existing : CacheEntry) : Except String IngestResult × HookIngestion :=
  match injectHookEvent deps (trimText input.raw) (existing.result.sequence.getD 0) with
  | .error error => (.error error, s)
  | .ok result =>
    let result := { result with origin := some (originOf input) }
    let sequence := (result.sequence.or existing.result.sequence).getD 0
    let s := { s with cache := s.cache.set (cacheKey deps input) ⟨some input.now, result, existing.firstSource, false⟩ }
    let s := (s.bumpMeta input.kookrSessionId (some result)).writeLedger deps input sequence result .diagnosticOnly
    (.ok
      { dispatched := result.parseStatus = .ok
        contentHash := contentHash deps input.raw
        eventId := mintEventId deps input.kookrSessionId sequence
        origin := originOf input
        injectResult := result }, s)

/-- The other source has dispatched the record. -/
def reportDuplicate (input : IngestInput) (existing : CacheEntry) : Except String IngestResult × HookIngestion :=
  let sequence := existing.result.sequence.getD 0
  (.ok
    { dispatched := false
      reason := some "duplicate"
      contentHash := contentHash deps input.raw
      eventId := mintEventId deps input.kookrSessionId sequence
      origin := originOf input
      injectResult := { existing.result with origin := some (originOf input) } },
    (s.bumpMeta input.kookrSessionId none).writeLedger deps input sequence existing.result .diagnosticOnly)

def malformedResult (input : IngestInput) (error : String) : InjectHookEventResult :=
  { parseStatus := .malformed, agentType := "claude-code", error := some error, origin := some (originOf input) }

def dispatchFirst (input : IngestInput) : Except String IngestResult × HookIngestion :=
  let (sequence, s) := s.nextSequence input.kookrSessionId
  match injectHookEvent deps (trimText input.raw) sequence with
  | .error error =>
    let malformed := malformedResult input error
    (.error error, (s.bumpMeta input.kookrSessionId (some malformed)).writeLedger deps input sequence malformed .diagnosticOnly)
  | .ok result =>
    let result := { result with origin := some (originOf input) }
    let s := if result.parseStatus = .ok then
        { s with cache := s.cache.set (cacheKey deps input) ⟨some input.now, result, input.source, false⟩ }
      else s
    let s := (s.bumpMeta input.kookrSessionId (some result)).writeLedger deps input sequence result (ledgerProjection result)
    (.ok
      { dispatched := result.parseStatus = .ok
        contentHash := contentHash deps input.raw
        eventId := mintEventId deps input.kookrSessionId sequence
        origin := originOf input
        injectResult := result }, s)

def ingest (input : IngestInput) : Except String IngestResult × HookIngestion :=
  if trimText input.raw = "" then
    (.ok
      { dispatched := false
        reason := some "empty"
        contentHash := contentHash deps input.raw
        eventId := mintEventId deps input.kookrSessionId 0
        origin := originOf input
        injectResult :=
          { parseStatus := .dropped, agentType := "claude-code", error := some "empty payload", origin := some (originOf input) } },
      s)
  else
    let s := s.gcExpired deps input.now
    match s.cache.get (cacheKey deps input) with
    | some existing => if existing.hydrated then s.replayHydrated deps input existing else s.reportDuplicate deps input existing
    | none => s.dispatchFirst deps input

/-- `ActivityLedger.readAll`. -/
def readAll (kookrSessionId : String) : List ActivityLedgerRow :=
  s.ledger.filter fun row => row.envelope.kookrSessionId = kookrSessionId

/-- A row that parsed and is no diagnosis. -/
def isPrimary (row : ActivityLedgerRow) : Bool :=
  row.envelope.parseStatus = .ok && row.projection ≠ some .diagnosticOnly

def hydratedEntry (row : ActivityLedgerRow) : CacheEntry where
  ts := none
  firstSource := row.envelope.source
  hydrated := true
  result :=
    { parseStatus := .ok
      agentType := row.envelope.provider
      parentage := some row.envelope.parentage
      rawSessionId := row.envelope.rawSessionId
      rawTurnId := row.envelope.rawTurnId
      rawHookEventName := row.envelope.rawHookEventName
      sequence := some row.envelope.sequence }

def hydrateRow (kookrSessionId : String) (s : HookIngestion) (row : ActivityLedgerRow) : HookIngestion :=
  let key := (kookrSessionId, row.envelope.contentHash)
  if isPrimary row && !s.cache.has key then { s with cache := s.cache.set key (hydratedEntry row) } else s

def maxSequence (rows : List ActivityLedgerRow) : ℕ := rows.foldl (fun maxSequence row => max maxSequence row.envelope.sequence) 0

def raiseCounter (kookrSessionId : String) (maxSequence : ℕ) : HookIngestion :=
  if 0 < maxSequence && s.counter kookrSessionId < maxSequence then
    { s with sequenceCounters := s.sequenceCounters.set kookrSessionId maxSequence }
  else s

/-- The raw record of each sequence. -/
def rawBySequence (rows : List ActivityLedgerRow) : OrderedMap ℕ String :=
  rows.foldl (fun raws row =>
    match row.rawJson with
    | some raw => if raw = "" then raws else raws.set row.envelope.sequence raw
    | none => raws) .empty

structure LedgerHydration where
  maxSequence : ℕ
  liveStateReplayed : Bool

/-- One turn of the loop that rebuilds the live state. -/
def replayLive (kookrSessionId : String) (raws : OrderedMap ℕ String) (now : ℕ) (s : HookIngestion) (row : ActivityLedgerRow) :
    Except String (Bool × HookIngestion) :=
  match raws.get row.envelope.sequence with
  | none => .ok (true, s)
  | some raw =>
    (injectHookEvent deps raw row.envelope.sequence).map fun result =>
      let result := { result with origin := some .replay }
      let s := s.bumpMeta kookrSessionId (some result)
      (result.parseStatus = .ok,
        { s with cache := s.cache.set (kookrSessionId, row.envelope.contentHash) ⟨some now, result, row.envelope.source, false⟩ })

def replayLiveRows (kookrSessionId : String) (raws : OrderedMap ℕ String) (now : ℕ) :
    List ActivityLedgerRow → Bool × HookIngestion → Except String Bool × HookIngestion
  | [], (replayed, s) => (.ok replayed, s)
  | row :: rows, (replayed, s) =>
    match replayLive deps kookrSessionId raws now s row with
    | .error error => (.error error, s)
    | .ok (ok, s) => replayLiveRows kookrSessionId raws now rows (replayed && ok, s)

def hydrateFromLedger (kookrSessionId : String) (replayLiveState : Bool) (now : ℕ) : Except String LedgerHydration × HookIngestion :=
  let rows := s.readAll kookrSessionId
  let raws := rawBySequence rows
  let primaryParsedRows := rows.filter isPrimary
  let canReplayLiveState := primaryParsedRows ≠ [] && primaryParsedRows.all fun row => raws.has row.envelope.sequence
  let s := (rows.foldl (hydrateRow kookrSessionId) s).raiseCounter kookrSessionId (maxSequence rows)
  if replayLiveState && canReplayLiveState then
    let (replayed, s) := replayLiveRows deps kookrSessionId raws now primaryParsedRows (true, s)
    (replayed.map fun liveStateReplayed => ⟨maxSequence rows, liveStateReplayed⟩, s)
  else (.ok ⟨maxSequence rows, false⟩, s)

/-- Without the sum of the sizes. -/
structure ActivityLedgerStats where
  kookrSessionId : String
  rawRecordCount : ℕ := 0
  parsedRecordCount : ℕ := 0
  malformedRecordCount : ℕ := 0
  duplicateRecordCount : ℕ := 0
  droppedRecordCount : ℕ := 0
  parentEventCount : ℕ := 0
  childEventCount : ℕ := 0
  foreignEventCount : ℕ := 0
  unknownParentageCount : ℕ := 0

/-- The turn of the loop of `stats` for a row. -/
def ActivityLedgerStats.count (out : ActivityLedgerStats) (row : ActivityLedgerRow) : ActivityLedgerStats :=
  match row.envelope.parseStatus with
  | .malformed => { out with malformedRecordCount := out.malformedRecordCount + 1 }
  | .dropped => { out with droppedRecordCount := out.droppedRecordCount + 1 }
  | .ok =>
    let out := { out with parsedRecordCount := out.parsedRecordCount + 1 }
    if row.projection = some .diagnosticOnly then { out with duplicateRecordCount := out.duplicateRecordCount + 1 }
    else match row.envelope.parentage with
      | .parent => { out with parentEventCount := out.parentEventCount + 1 }
      | .child => { out with childEventCount := out.childEventCount + 1 }
      | .foreign => { out with foreignEventCount := out.foreignEventCount + 1 }
      | .unknown => { out with unknownParentageCount := out.unknownParentageCount + 1 }

/-- `ActivityLedger.stats`. -/
def stats (kookrSessionId : String) : ActivityLedgerStats :=
  { (s.readAll kookrSessionId).foldl ActivityLedgerStats.count { kookrSessionId } with
    rawRecordCount := (s.readAll kookrSessionId).length }

def getActivityMeta (kookrSessionId : String) : Option AgentActivityMeta := s.metaByKookrSession.get kookrSessionId

/-- A record with its first arrival and the one in the replay. -/
structure HookRecord where
  raw : String
  source : HookSource
  firstAt : ℕ
  replayAt : ℕ
  startupReplay : Bool

namespace HookRecord

variable (kookrSessionId : String) (record : HookRecord)

def firstInput : IngestInput := ⟨kookrSessionId, record.raw, record.source, false, record.firstAt⟩

/-- The file watcher hands it over again. -/
def replayInput : IngestInput := ⟨kookrSessionId, record.raw, .file, record.startupReplay, record.replayAt⟩

end HookRecord

def ingestAll (inputs : List IngestInput) : HookIngestion := inputs.foldl (fun s input => (s.ingest deps input).2) s

/-- After the first arrivals. -/
def firstRun (kookrSessionId : String) (records : List HookRecord) : HookIngestion :=
  start.ingestAll deps (records.map (HookRecord.firstInput kookrSessionId))

/-- After the restart, in which the live state is not replayed. -/
def restarted (kookrSessionId : String) (records : List HookRecord) (now : ℕ) : HookIngestion :=
  ((firstRun deps kookrSessionId records).restart.hydrateFromLedger deps kookrSessionId false now).2

/-- After the first ones of the records were replayed. -/
def replayed (kookrSessionId : String) (records : List HookRecord) (now : ℕ) (again : List HookRecord) : HookIngestion :=
  (restarted deps kookrSessionId records now).ingestAll deps (again.map (HookRecord.replayInput kookrSessionId))

end HookIngestion

end Kookr.Server
