import Kookr.Lib.Json
import Kookr.Lib.IsoDate
import Kookr.Lib.OrderedMap
import Mathlib.Data.List.Dedup

/-! Remote commands and the rows, entries and snapshots the command journal keeps of
them (`src/remote/command-journal.ts`). Branded ids are their strings. A field the
source marks optional is an `Option`; `none` is `undefined`. -/

namespace Kookr.Remote

open Kookr.Lib

inductive RemoteCommandAction where
  | presetReply | permissionApprove | skip | snooze | markDone | launch
  | leaseAcquire | leaseHeartbeat | leaseOverride | submitMessage
  deriving DecidableEq, Repr

inductive CommandOutcome where
  | accepted | rejected | rejectedPreAudit | unknownIntentOnly | unknownNeverSeen | nodeOffline
  deriving DecidableEq, Repr

structure IdempotencyTuple where
  nodeId : String
  nodeEpoch : String
  sessionId : String
  sessionEpoch : String
  grantId : String
  idempotencyKey : String
  deriving DecidableEq, Repr

structure CommandEnvelope extends IdempotencyTuple where
  commandId : String
  actorId : String
  clientId : String
  action : RemoteCommandAction
  baseRevision : Option NumLit
  leaseId : Option String
  lastSeenSeq : Option NumLit
  payload : Option Json

/-- `Partial<CommandEnvelope> & Pick<CommandEnvelope, 'commandId' | 'action'>`. -/
structure PartialEnvelope where
  commandId : String
  action : RemoteCommandAction
  nodeId : Option String
  nodeEpoch : Option String
  sessionId : Option String
  sessionEpoch : Option String
  grantId : Option String
  idempotencyKey : Option String
  actorId : Option String
  clientId : Option String
  baseRevision : Option NumLit
  leaseId : Option String
  lastSeenSeq : Option NumLit
  payload : Option Json

def CommandEnvelope.toPartial (c : CommandEnvelope) : PartialEnvelope where
  commandId := c.commandId
  action := c.action
  nodeId := some c.nodeId
  nodeEpoch := some c.nodeEpoch
  sessionId := some c.sessionId
  sessionEpoch := some c.sessionEpoch
  grantId := some c.grantId
  idempotencyKey := some c.idempotencyKey
  actorId := some c.actorId
  clientId := some c.clientId
  baseRevision := c.baseRevision
  leaseId := c.leaseId
  lastSeenSeq := c.lastSeenSeq
  payload := c.payload

def PartialEnvelope.toFull (p : PartialEnvelope) : Option CommandEnvelope := do
  let nodeId ← p.nodeId
  let nodeEpoch ← p.nodeEpoch
  let sessionId ← p.sessionId
  let sessionEpoch ← p.sessionEpoch
  let grantId ← p.grantId
  let idempotencyKey ← p.idempotencyKey
  let actorId ← p.actorId
  let clientId ← p.clientId
  return { nodeId, nodeEpoch, sessionId, sessionEpoch, grantId, idempotencyKey,
           commandId := p.commandId, actorId, clientId, action := p.action,
           baseRevision := p.baseRevision, leaseId := p.leaseId,
           lastSeenSeq := p.lastSeenSeq, payload := p.payload }

structure CommandResult where
  outcome : CommandOutcome
  commandId : String
  action : RemoteCommandAction
  result : Option Json
  reason : Option String

/-- A row of the audit log. Result rows are only ever written from a full envelope. -/
inductive AuditRow where
  | intent (command : CommandEnvelope) (timestamp : Timestamp)
  | result (command : CommandEnvelope) (outcome : CommandOutcome) (reason : Option String)
      (result : Option Json) (timestamp : Timestamp)
  | preAuditReject (command : PartialEnvelope) (outcome : CommandOutcome)
      (reason : Option String) (timestamp : Timestamp)
  | revoke (grantId nodeId nodeEpoch : String) (policyVersion : Option NumLit)
      (timestamp : Timestamp)

structure IdempotencyEntry where
  tupleKey : String
  lastUsedAt : ℤ
  createdAt : ℤ
  commandId : String
  result : Option CommandResult

structure JournalSnapshot where
  auditSizeBytes : ℤ
  createdAt : Timestamp
  intents : List (CommandEnvelope × Timestamp)
  /-- Command id, recorded result, `lastSeenAt`. -/
  results : List (String × CommandResult × ℤ)
  idempotency : List IdempotencyEntry
  tombstones : List String

def DAY_MS : ℤ := 24 * 60 * 60 * 1000
def MAX_IDEMPOTENCY_ENTRIES : ℕ := 100000
def MAX_COMMAND_STATE_ENTRIES : ℕ := MAX_IDEMPOTENCY_ENTRIES

/-- The six fields joined with NUL. -/
def tupleKey (t : IdempotencyTuple) : String :=
  "\x00".intercalate
    [t.nodeId, t.nodeEpoch, t.sessionId, t.sessionEpoch, t.grantId, t.idempotencyKey]

/-- `key.split('\0', 3)[1]`. -/
def keyNodeEpoch (key : String) : Option String :=
  ((key.toList.splitOn '\x00')[1]?).map String.ofList

end Kookr.Remote

/-! `CommandJournal` in memory: the synchronous part of every operation, up to its first
`await`, and the replay of snapshots and audit rows. Each synchronous block reads the
clock once; the reading is an argument. -/

namespace Kookr.Remote

open Kookr.Lib

structure JournalConfig where
  nodeId : String
  nodeEpoch : String
  compactAfterBytes : ℤ
  deriving DecidableEq

structure JournalState where
  intents : OrderedMap String (CommandEnvelope × Timestamp)
  results : OrderedMap String CommandResult
  idempotency : OrderedMap String IdempotencyEntry
  tombstones : OrderedMap String Unit
  commandLastSeenAt : OrderedMap String ℤ
  lastCompactedAuditSize : ℤ
  archiveCounter : ℕ

namespace JournalState

def empty : JournalState := ⟨.empty, .empty, .empty, .empty, .empty, 0, 0⟩

def hasTombstone (s : JournalState) (grantId : String) : Bool := s.tombstones.has grantId

def outcome (s : JournalState) (commandId : String) : CommandResult :=
  match s.results.get commandId with
  | some result => result
  | none =>
    match s.intents.get commandId with
    | some intent => ⟨.unknownIntentOnly, commandId, intent.1.action, none, none⟩
    | none => ⟨.unknownNeverSeen, commandId, .presetReply, none, none⟩

/-- `for (...) { if (keep.size >= MAX) break; keep.add(commandId); }` -/
def fillKeep : List String → List (String × ℤ) → List String
  | keep, [] => keep
  | keep, (commandId, _) :: rest =>
    if MAX_COMMAND_STATE_ENTRIES ≤ keep.length then keep
    else fillKeep (if commandId ∈ keep then keep else keep ++ [commandId]) rest

def pruneCommandState (s : JournalState) : JournalState :=
  if (s.intents.keys ++ s.results.keys).dedup.length ≤ MAX_COMMAND_STATE_ENTRIES then s
  else
    let recent := s.commandLastSeenAt.entries.mergeSort fun a b => decide (b.2 ≤ a.2)
    let keep := fillKeep (s.idempotency.values.map IdempotencyEntry.commandId).dedup recent
    { s with
      intents := s.intents.filter fun c _ => decide (c ∈ keep)
      results := s.results.filter fun c _ => decide (c ∈ keep)
      commandLastSeenAt := s.commandLastSeenAt.filter fun c _ => decide (c ∈ keep) }

/-- The entries `prune` lets stand before it looks at the size. -/
def unexpired (cfg : JournalConfig) (s : JournalState) (now : Timestamp) : OrderedMap String IdempotencyEntry :=
  s.idempotency.filter fun key entry =>
    decide (¬ entry.createdAt < now.ms - DAY_MS ∧ keyNodeEpoch key = some cfg.nodeEpoch)

def prune (cfg : JournalConfig) (s : JournalState) (now : Timestamp) : JournalState :=
  let live := unexpired cfg s now
  if live.size ≤ MAX_IDEMPOTENCY_ENTRIES then { s with idempotency := live }
  else
    let lru := live.values.mergeSort fun a b => decide (a.lastUsedAt ≤ b.lastUsedAt)
    let evicted := (lru.take (live.size - MAX_IDEMPOTENCY_ENTRIES)).map IdempotencyEntry.tupleKey
    pruneCommandState
      { s with idempotency := live.filter fun key _ => decide (key ∉ evicted) }

def revokeGrant (cfg : JournalConfig) (s : JournalState) (grantId : String)
    (policyVersion : Option NumLit) (now : Timestamp) : JournalState × AuditRow :=
  ({ s with tombstones := s.tombstones.set grantId () },
    .revoke grantId cfg.nodeId cfg.nodeEpoch policyVersion now)

/-- Idempotency lookup; `none` is `null`, the command is new. -/
def begin (cfg : JournalConfig) (s : JournalState) (command : CommandEnvelope) (now : Timestamp) :
    JournalState × Option CommandResult :=
  let s := prune cfg s now
  let key := tupleKey command.toIdempotencyTuple
  match s.idempotency.get key with
  | none => (s, none)
  | some existing =>
    let s' := { s with idempotency := s.idempotency.set key { existing with lastUsedAt := now.ms } }
    match existing.result with
    | some result => (s', some { result with commandId := command.commandId })
    | none => (s', some ⟨.unknownIntentOnly, command.commandId, command.action, none,
        some "matching command intent has no result yet"⟩)

def appendIntent (s : JournalState) (command : CommandEnvelope) (now : Timestamp) : JournalState × AuditRow :=
  let key := tupleKey command.toIdempotencyTuple
  ({ s with
      intents := s.intents.set command.commandId (command, now)
      commandLastSeenAt := s.commandLastSeenAt.set command.commandId now.ms
      idempotency := s.idempotency.set key ⟨key, now.ms, now.ms, command.commandId, none⟩ },
    .intent command now)

def appendResult (s : JournalState) (command : CommandEnvelope) (result : CommandResult)
    (now : Timestamp) : JournalState × AuditRow :=
  let key := tupleKey command.toIdempotencyTuple
  ({ s with
      intents := s.intents.delete command.commandId
      results := s.results.set command.commandId result
      commandLastSeenAt := s.commandLastSeenAt.set command.commandId now.ms
      idempotency :=
        match s.idempotency.get key with
        | some entry =>
          s.idempotency.set key { entry with result := some result, lastUsedAt := now.ms }
        | none => s.idempotency },
    .result command result.outcome result.reason result.result now)

def preAuditRejection (command : PartialEnvelope) (reason : String) : CommandResult :=
  ⟨.rejectedPreAudit, command.commandId, command.action, none, some reason⟩

def appendPreAuditReject (s : JournalState) (command : PartialEnvelope) (reason : String)
    (now : Timestamp) : JournalState × AuditRow :=
  ({ s with
      results := s.results.set command.commandId (preAuditRejection command reason)
      commandLastSeenAt := s.commandLastSeenAt.set command.commandId now.ms },
    .preAuditReject command .rejectedPreAudit (some reason) now)

/-- The projection `writeSnapshot` captures, after `pruneCommandState`. -/
def snapshotOf (s : JournalState) (activeAuditSizeBytes : ℤ) (now : Timestamp) : JournalSnapshot where
  auditSizeBytes := activeAuditSizeBytes
  createdAt := now
  intents := s.intents.values.filter fun intent => !s.results.has intent.1.commandId
  results := s.results.entries.map fun e =>
    (e.1, e.2, (s.commandLastSeenAt.get e.1).getD now.ms)
  idempotency := s.idempotency.values
  tombstones := s.tombstones.keys

def applySnapshot (s : JournalState) (snapshot : JournalSnapshot) : JournalState :=
  let s := { s with
    intents := .empty, results := .empty, idempotency := .empty, tombstones := .empty,
    commandLastSeenAt := .empty }
  let s := snapshot.intents.foldl (fun s intent =>
    { s with
      intents := s.intents.set intent.1.commandId intent
      commandLastSeenAt := s.commandLastSeenAt.set intent.1.commandId intent.2.ms }) s
  let s := snapshot.results.foldl (fun s entry =>
    { s with
      results := s.results.set entry.1 entry.2.1
      commandLastSeenAt := s.commandLastSeenAt.set entry.1 entry.2.2 }) s
  let s := snapshot.idempotency.foldl (fun s entry =>
    { s with
      idempotency := s.idempotency.set entry.tupleKey entry
      commandLastSeenAt := s.commandLastSeenAt.set entry.commandId
        (max ((s.commandLastSeenAt.get entry.commandId).getD 0) entry.lastUsedAt) }) s
  snapshot.tombstones.foldl (fun s g => { s with tombstones := s.tombstones.set g () }) s

def applyAuditRow (cfg : JournalConfig) (s : JournalState) : AuditRow → JournalState
  | .revoke grantId _ _ _ _ => { s with tombstones := s.tombstones.set grantId () }
  | .intent command timestamp =>
    let key := tupleKey command.toIdempotencyTuple
    { s with
      commandLastSeenAt := s.commandLastSeenAt.set command.commandId timestamp.ms
      intents := s.intents.set command.commandId (command, timestamp)
      idempotency :=
        if command.nodeEpoch = cfg.nodeEpoch then
          s.idempotency.set key ⟨key, timestamp.ms, timestamp.ms, command.commandId, none⟩
        else s.idempotency }
  | .result command outcome reason result timestamp =>
    let key := tupleKey command.toIdempotencyTuple
    let res : CommandResult := ⟨outcome, command.commandId, command.action, result, reason⟩
    { s with
      commandLastSeenAt := s.commandLastSeenAt.set command.commandId timestamp.ms
      intents := s.intents.delete command.commandId
      results := s.results.set command.commandId res
      idempotency :=
        if command.nodeEpoch = cfg.nodeEpoch then
          s.idempotency.set key ⟨key, timestamp.ms, timestamp.ms, command.commandId, some res⟩
        else s.idempotency }
  | .preAuditReject command outcome reason timestamp =>
    { s with
      commandLastSeenAt := s.commandLastSeenAt.set command.commandId timestamp.ms
      intents := s.intents.delete command.commandId
      results := s.results.set command.commandId
        ⟨outcome, command.commandId, command.action, none, reason⟩ }

def applyAuditRows (cfg : JournalConfig) (s : JournalState) (rows : List AuditRow) : JournalState :=
  pruneCommandState (rows.foldl (applyAuditRow cfg) s)

end JournalState

end Kookr.Remote
