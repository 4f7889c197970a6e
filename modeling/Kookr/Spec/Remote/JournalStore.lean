import Kookr.Spec.Remote.CommandJournal
import Kookr.Lib.JsonNumber
import Kookr.Lib.LineFile
import Kookr.Lib.RegisterLog

/-! The JSON text of audit rows and snapshots. `JSON.stringify` leaves out members that
are `undefined`; reading back, a member of another type than the source declares counts
as absent, and a row without its required members is skipped. -/

namespace Kookr.Remote

open Kookr.Lib

namespace RemoteCommandAction

def all : List (RemoteCommandAction × String) :=
  [(.presetReply, "presetReply"), (.permissionApprove, "permissionApprove"), (.skip, "skip"),
    (.snooze, "snooze"), (.markDone, "mark-done"), (.launch, "launch"),
    (.leaseAcquire, "leaseAcquire"), (.leaseHeartbeat, "leaseHeartbeat"),
    (.leaseOverride, "leaseOverride"), (.submitMessage, "submitMessage")]

def text (a : RemoteCommandAction) : String := ((all.find? fun e => e.1 = a).map Prod.snd).getD ""

def ofText (t : String) : Option RemoteCommandAction := (all.find? fun e => e.2 = t).map Prod.fst

end RemoteCommandAction

namespace CommandOutcome

def all : List (CommandOutcome × String) :=
  [(.accepted, "accepted"), (.rejected, "rejected"), (.rejectedPreAudit, "rejected-pre-audit"),
    (.unknownIntentOnly, "unknown-intent-only"), (.unknownNeverSeen, "unknown-never-seen"),
    (.nodeOffline, "node-offline")]

def text (o : CommandOutcome) : String := ((all.find? fun e => e.1 = o).map Prod.snd).getD ""

def ofText (t : String) : Option CommandOutcome := (all.find? fun e => e.2 = t).map Prod.fst

end CommandOutcome

def strAt (j : Json) (k : String) : Option String := (j.get k).bind Json.asStr
def numAt (j : Json) (k : String) : Option NumLit := (j.get k).bind Json.asNum
def intAt (j : Json) (k : String) : Option ℤ := (numAt j k).bind NumLit.toInt
def arrAt (j : Json) (k : String) : Option (List Json) := (j.get k).bind Json.asArr
def timestampAt (j : Json) (k : String) : Option Timestamp :=
  (strAt j k).bind fun t => IsoDate.dateParse t.toList

def timestampJson (t : Timestamp) : Json := .str (String.ofList (IsoDate.toISOString t))
def intJson (z : ℤ) : Json := .num (NumLit.ofInt z)

def PartialEnvelope.members (p : PartialEnvelope) : List (String × Json) :=
  opt "nodeId" (p.nodeId.map .str) ++ opt "nodeEpoch" (p.nodeEpoch.map .str) ++
  opt "sessionId" (p.sessionId.map .str) ++ opt "sessionEpoch" (p.sessionEpoch.map .str) ++
  opt "grantId" (p.grantId.map .str) ++ opt "idempotencyKey" (p.idempotencyKey.map .str) ++
  [("commandId", .str p.commandId)] ++
  opt "actorId" (p.actorId.map .str) ++ opt "clientId" (p.clientId.map .str) ++
  [("action", .str p.action.text)] ++
  opt "baseRevision" (p.baseRevision.map .num) ++ opt "leaseId" (p.leaseId.map .str) ++
  opt "lastSeenSeq" (p.lastSeenSeq.map .num) ++ opt "payload" p.payload

def PartialEnvelope.ofJson (j : Json) : Option PartialEnvelope := do
  let commandId ← strAt j "commandId"
  let action ← (strAt j "action").bind RemoteCommandAction.ofText
  return { commandId, action, nodeId := strAt j "nodeId", nodeEpoch := strAt j "nodeEpoch",
           sessionId := strAt j "sessionId", sessionEpoch := strAt j "sessionEpoch",
           grantId := strAt j "grantId", idempotencyKey := strAt j "idempotencyKey",
           actorId := strAt j "actorId", clientId := strAt j "clientId",
           baseRevision := numAt j "baseRevision", leaseId := strAt j "leaseId",
           lastSeenSeq := numAt j "lastSeenSeq", payload := j.get "payload" }

def CommandEnvelope.ofJson (j : Json) : Option CommandEnvelope :=
  (PartialEnvelope.ofJson j).bind PartialEnvelope.toFull

namespace AuditRow

def toJson : AuditRow → Json
  | .intent command timestamp =>
    .obj (command.toPartial.members ++
      [("type", .str "command.intent"), ("timestamp", timestampJson timestamp)])
  | .result command outcome reason value timestamp =>
    .obj (command.toPartial.members ++
      [("type", .str "command.result"), ("outcome", .str outcome.text)] ++
      opt "reason" (reason.map .str) ++ opt "result" value ++
      [("timestamp", timestampJson timestamp)])
  | .preAuditReject command outcome reason timestamp =>
    .obj (command.members ++
      [("type", .str "command.pre-audit-reject"), ("outcome", .str outcome.text)] ++
      opt "reason" (reason.map .str) ++ [("timestamp", timestampJson timestamp)])
  | .revoke grantId nodeId nodeEpoch policyVersion timestamp =>
    .obj ([("type", .str "grant.revoke"), ("grantId", .str grantId), ("nodeId", .str nodeId),
        ("nodeEpoch", .str nodeEpoch)] ++
      opt "policyVersion" (policyVersion.map .num) ++ [("timestamp", timestampJson timestamp)])

/-- `isAuditRow`, with the members `applyAuditRow` goes on to read. -/
def ofJson (j : Json) : Option AuditRow := do
  let type ← strAt j "type"
  let timestamp ← timestampAt j "timestamp"
  if type = "command.intent" then
    return .intent (← CommandEnvelope.ofJson j) timestamp
  else if type = "command.result" then
    return .result (← CommandEnvelope.ofJson j) (← (strAt j "outcome").bind CommandOutcome.ofText)
      (strAt j "reason") (j.get "result") timestamp
  else if type = "command.pre-audit-reject" then
    return .preAuditReject (← PartialEnvelope.ofJson j)
      (← (strAt j "outcome").bind CommandOutcome.ofText) (strAt j "reason") timestamp
  else if type = "grant.revoke" then
    return .revoke (← strAt j "grantId") (← strAt j "nodeId") (← strAt j "nodeEpoch")
      (numAt j "policyVersion") timestamp
  else none

/-- The text of a row, without its newline. -/
def line (row : AuditRow) : List Char := row.toJson.stringify

def parseLine (l : List Char) : Option AuditRow := (Json.parse l).bind ofJson

end AuditRow

namespace CommandResult

def toJson (r : CommandResult) : Json :=
  .obj ([("commandId", .str r.commandId), ("action", .str r.action.text),
      ("outcome", .str r.outcome.text)] ++ opt "result" r.result ++ opt "reason" (r.reason.map .str))

def ofJson (j : Json) : Option CommandResult := do
  let outcome ← (strAt j "outcome").bind CommandOutcome.ofText
  let commandId ← strAt j "commandId"
  let action ← (strAt j "action").bind RemoteCommandAction.ofText
  return ⟨outcome, commandId, action, j.get "result", strAt j "reason"⟩

end CommandResult

namespace IdempotencyEntry

def toJson (e : IdempotencyEntry) : Json :=
  .obj ([("tupleKey", .str e.tupleKey), ("commandId", .str e.commandId),
      ("createdAt", intJson e.createdAt), ("lastUsedAt", intJson e.lastUsedAt)] ++
    opt "result" (e.result.map CommandResult.toJson))

def ofJson (j : Json) : Option IdempotencyEntry := do
  let tupleKey ← strAt j "tupleKey"
  let lastUsedAt ← intAt j "lastUsedAt"
  let createdAt ← intAt j "createdAt"
  let commandId ← strAt j "commandId"
  return ⟨tupleKey, lastUsedAt, createdAt, commandId, (j.get "result").bind CommandResult.ofJson⟩

end IdempotencyEntry

namespace JournalSnapshot

def intentJson (intent : CommandEnvelope × Timestamp) : Json :=
  (AuditRow.intent intent.1 intent.2).toJson

def intentOfJson (j : Json) : Option (CommandEnvelope × Timestamp) :=
  match AuditRow.ofJson j with
  | some (.intent command timestamp) => some (command, timestamp)
  | _ => none

def resultJson (entry : String × CommandResult × ℤ) : Json :=
  .obj [("commandId", .str entry.1), ("result", entry.2.1.toJson), ("lastSeenAt", intJson entry.2.2)]

def resultOfJson (j : Json) : Option (String × CommandResult × ℤ) := do
  let commandId ← strAt j "commandId"
  let result ← (j.get "result").bind CommandResult.ofJson
  let lastSeenAt ← intAt j "lastSeenAt"
  return (commandId, result, lastSeenAt)

def toJson (s : JournalSnapshot) : Json :=
  .obj [("version", intJson 1), ("auditSizeBytes", intJson s.auditSizeBytes),
    ("createdAt", timestampJson s.createdAt),
    ("intents", .arr (s.intents.map intentJson)), ("results", .arr (s.results.map resultJson)),
    ("idempotency", .arr (s.idempotency.map IdempotencyEntry.toJson)),
    ("tombstones", .arr (s.tombstones.map .str))]

/-- `isSnapshot`, with the members `applySnapshot` goes on to read. -/
def ofJson (j : Json) : Option JournalSnapshot := do
  if intAt j "version" ≠ some 1 then none
  let auditSizeBytes ← intAt j "auditSizeBytes"
  let createdAt ← timestampAt j "createdAt"
  let intents ← (← arrAt j "intents").mapM intentOfJson
  let results ← (← arrAt j "results").mapM resultOfJson
  let idempotency ← (← arrAt j "idempotency").mapM IdempotencyEntry.ofJson
  let tombstones ← (← arrAt j "tombstones").mapM Json.asStr
  return { auditSizeBytes, createdAt, intents, results, idempotency, tombstones }

/-- The text of the snapshot file. -/
def text (s : JournalSnapshot) : List Char := s.toJson.stringify ++ ['\n']

def parseText (cs : List Char) : Option JournalSnapshot := (Json.parse cs).bind ofJson

end JournalSnapshot

end Kookr.Remote

/-! The files of a journal: `CommandJournal.open` reads them, and `append` writes them one
file operation at a time. An append in flight is where its next `await` resumes; code
between two awaits that changes the journal's memory is a step of its own, so that other
calls can run before it. -/

namespace Kookr.Remote

open Kookr.Lib

structure Disk where
  /-- `audit.jsonl` -/
  audit : Option Bytes
  /-- `audit.snapshot.json` -/
  snapshot : Option Bytes
  /-- `audit.snapshot.json.<pid>.tmp` -/
  tmp : Option Bytes
  /-- Rotated segments, named after `archiveCounter`. -/
  archives : List (ℕ × Bytes)

namespace Disk

def empty : Disk := ⟨none, none, none, []⟩

def auditBytes (d : Disk) : Bytes := d.audit.getD []

def auditSize (d : Disk) : ℤ := d.auditBytes.length

def readSnapshot (d : Disk) : Option JournalSnapshot :=
  d.snapshot.bind fun raw => JournalSnapshot.parseText (Utf8.decode raw)

def readAuditTail (d : Disk) (offset : ℤ) : Bytes :=
  if d.auditSize = 0 then []
  else if offset ≤ 0 ∨ d.auditSize < offset then d.auditBytes
  else if offset = d.auditSize then []
  else d.auditBytes.drop offset.toNat

end Disk

namespace JournalState

/-- `applyAuditLines` on the text of some bytes. -/
def applyAuditLines (cfg : JournalConfig) (s : JournalState) (raw : Bytes) : JournalState :=
  applyAuditRows cfg s (LineFile.read AuditRow.parseLine raw)

def load (cfg : JournalConfig) (d : Disk) : JournalState :=
  match d.readSnapshot with
  | some snapshot =>
    if snapshot.auditSizeBytes ≤ d.auditSize then
      let s := { applySnapshot .empty snapshot with
        lastCompactedAuditSize := snapshot.auditSizeBytes }
      pruneCommandState (applyAuditLines cfg s (d.readAuditTail snapshot.auditSizeBytes))
    else pruneCommandState (applyAuditLines cfg .empty (d.readAuditTail 0))
  | none => pruneCommandState (applyAuditLines cfg .empty (d.readAuditTail 0))

end JournalState

/-- A journal in memory and the directory it writes to. -/
structure World where
  mem : JournalState
  disk : Disk

/-- `CommandJournal.open` on the files of a directory. -/
def openJournal (cfg : JournalConfig) (d : Disk) : World := ⟨JournalState.load cfg d, d⟩

/-- Where an `append` stands: the file operation it has issued, or the memory it will
change when it resumes. -/
inductive AppendPc where
  | mkdirAudit (row : AuditRow)
  | appendFile (row : AuditRow)
  | statAudit
  | afterStat (size : ℤ)
  /-- The captured entries are the live objects: `entry.result = …` in another call still
  shows in the text. Neither `hasTombstone` nor `outcome` reads an entry. -/
  | mkdirSnapshot (snapshot : JournalSnapshot)
  | writeTmp (snapshot : JournalSnapshot)
  | renameTmp (snapshot : JournalSnapshot)
  | afterWriteSnapshot
  | renameAudit (archive : ℕ)
  | recreateAudit
  | afterRecreate
  | pruneArchives
  /-- Cleanup of a snapshot that could not be put in place; the append then rejects. -/
  | unlinkTmp

inductive AppendStatus where
  | running (pc : AppendPc)
  | resolved
  | rejected

/-- One step of an append. `ok` is the answer of the file operation; an operation that
fails leaves the files as they were. Operations on a missing file fail whatever the
answer. The clock is read by `writeSnapshot` only. -/
def appendStep (cfg : JournalConfig) (w : World) (pc : AppendPc) (now : Timestamp) (ok : Bool) : World × AppendStatus :=
  match pc with
  | .mkdirAudit row => (w, if ok then .running (.appendFile row) else .rejected)
  | .appendFile row =>
    if ok then
      ({ w with disk.audit := some (w.disk.auditBytes ++ LineFile.line row.line) },
        if cfg.compactAfterBytes ≤ 0 then .resolved else .running .statAudit)
    else (w, .rejected)
  | .statAudit =>
    match ok, w.disk.audit with
    | true, some bytes => (w, .running (.afterStat bytes.length))
    | _, _ => (w, .rejected)
  | .afterStat size =>
    if size - w.mem.lastCompactedAuditSize < cfg.compactAfterBytes then (w, .resolved)
    else
      let mem := w.mem.pruneCommandState
      ({ w with mem }, .running (.mkdirSnapshot (mem.snapshotOf 0 now)))
  | .mkdirSnapshot snapshot => (w, if ok then .running (.writeTmp snapshot) else .rejected)
  | .writeTmp snapshot =>
    if ok then
      ({ w with disk.tmp := some (Utf8.encode snapshot.text) }, .running (.renameTmp snapshot))
    else (w, .running .unlinkTmp)
  | .renameTmp _ =>
    match ok, w.disk.tmp with
    | true, some bytes =>
      ({ w with disk.snapshot := some bytes, disk.tmp := none }, .running .afterWriteSnapshot)
    | _, _ => (w, .running .unlinkTmp)
  | .afterWriteSnapshot =>
    ({ w with mem.lastCompactedAuditSize := 0, mem.archiveCounter := w.mem.archiveCounter + 1 },
      .running (.renameAudit (w.mem.archiveCounter + 1)))
  | .renameAudit archive =>
    match ok, w.disk.audit with
    | true, some bytes =>
      ({ w with disk.audit := none, disk.archives := w.disk.archives ++ [(archive, bytes)] },
        .running .recreateAudit)
    | _, _ => (w, .rejected)
  | .recreateAudit =>
    if ok then ({ w with disk.audit := some [] }, .running .afterRecreate) else (w, .rejected)
  | .afterRecreate => ({ w with mem.lastCompactedAuditSize := 0 }, .running .pruneArchives)
  | .pruneArchives => (w, if ok then .resolved else .rejected)
  | .unlinkTmp => ({ w with disk.tmp := if ok then none else w.disk.tmp }, .rejected)

end Kookr.Remote

/-! Concurrent use of one journal: any number of calls, interleaved at every await, and
what the journal shows of each grant and command. -/

namespace Kookr.Remote

open Kookr.Lib

inductive JournalCall where
  | appendIntent (command : CommandEnvelope)
  | appendResult (command : CommandEnvelope) (result : CommandResult)
  | appendPreAuditReject (command : PartialEnvelope) (reason : String)
  | revokeGrant (grantId : String) (policyVersion : Option NumLit)

/-- The synchronous part of a call, and the row it goes on to append. -/
def JournalCall.start (cfg : JournalConfig) (s : JournalState) (now : Timestamp) :
    JournalCall → JournalState × AuditRow
  | .appendIntent command => s.appendIntent command now
  | .appendResult command result => s.appendResult command result now
  | .appendPreAuditReject command reason => s.appendPreAuditReject command reason now
  | .revokeGrant grantId policyVersion => s.revokeGrant cfg grantId policyVersion now

inductive JournalEvent where
  | call (call : JournalCall) (now : Timestamp)
  | begin (command : CommandEnvelope) (now : Timestamp)
  | io (i : ℕ) (now : Timestamp) (ok : Bool)

def AppendStatus.isRunning : AppendStatus → Bool
  | .running _ => true
  | _ => false

def AppendStatus.isResolved : AppendStatus → Bool
  | .resolved => true
  | _ => false

/-- One journal and its calls so far, in the order they were made. -/
structure JournalRun where
  world : World
  calls : List AppendStatus

namespace JournalRun

def init (cfg : JournalConfig) (d : Disk) : JournalRun := ⟨openJournal cfg d, []⟩

def step (cfg : JournalConfig) (s : JournalRun) : JournalEvent → Option JournalRun
  | .call call now =>
    let r := call.start cfg s.world.mem now
    some ⟨{ s.world with mem := r.1 }, s.calls ++ [.running (.mkdirAudit r.2)]⟩
  | .begin command now =>
    some { s with world.mem := (s.world.mem.begin cfg command now).1 }
  | .io i now ok =>
    match s.calls[i]? with
    | some (.running pc) =>
      let r := appendStep cfg s.world pc now ok
      some ⟨r.1, s.calls.set i r.2⟩
    | _ => none

def Settled (s : JournalRun) : Prop := ∀ st ∈ s.calls, st.isRunning = false

instance (s : JournalRun) : Decidable s.Settled :=
  inferInstanceAs (Decidable (∀ st ∈ s.calls, st.isRunning = false))

end JournalRun

inductive Subject where
  | grant (grantId : String)
  | command (commandId : String)
  deriving DecidableEq

inductive View where
  | unseen
  | revoked
  | intent (action : RemoteCommandAction)
  | result (result : CommandResult)

/-- A result is never replaced by an intent. -/
def View.rank : View → ℕ
  | .unseen => 0
  | .revoked => 1
  | .intent _ => 1
  | .result _ => 2

def JournalState.view (s : JournalState) : Subject → View
  | .grant grantId => bif s.hasTombstone grantId then .revoked else .unseen
  | .command commandId =>
    match s.results.get commandId with
    | some result => .result result
    | none =>
      match s.intents.get commandId with
      | some intent => .intent intent.1.action
      | none => .unseen

def AuditRow.entry : AuditRow → Subject × View
  | .intent command _ => (.command command.commandId, .intent command.action)
  | .result command outcome reason value _ =>
    (.command command.commandId,
      .result ⟨outcome, command.commandId, command.action, value, reason⟩)
  | .preAuditReject command outcome reason _ =>
    (.command command.commandId, .result ⟨outcome, command.commandId, command.action, none, reason⟩)
  | .revoke grantId _ _ _ _ => (.grant grantId, .revoked)

/-- The projection the snapshot file holds. -/
def Disk.base (d : Disk) : JournalState :=
  match d.readSnapshot with
  | some snapshot => JournalState.applySnapshot .empty snapshot
  | none => .empty

/-- What a call has changed in memory and not yet appended. -/
def AppendStatus.pendingEntry : AppendStatus → Option (Subject × View)
  | .running (.mkdirAudit row) => some row.entry
  | .running (.appendFile row) => some row.entry
  | _ => none

/-- What the snapshot of a rotation in progress shows; a rotation is in progress from the
capture of its snapshot until the audit has been created again. -/
def AppendStatus.rotationView (d : Disk) : AppendStatus → Option (Subject → View)
  | .running (.mkdirSnapshot snapshot) => some (JournalState.applySnapshot .empty snapshot).view
  | .running (.writeTmp snapshot) => some (JournalState.applySnapshot .empty snapshot).view
  | .running (.renameTmp snapshot) => some (JournalState.applySnapshot .empty snapshot).view
  | .running .afterWriteSnapshot => some d.base.view
  | .running (.renameAudit _) => some d.base.view
  | .running .recreateAudit => some d.base.view
  | _ => none

namespace JournalRun

def pending (s : JournalRun) (i : ℕ) : Option (Subject × View) :=
  (s.calls[i]?).bind AppendStatus.pendingEntry

def rotation (s : JournalRun) (i : ℕ) : Option (Subject → View) :=
  (s.calls[i]?).bind (AppendStatus.rotationView s.world.disk)

end JournalRun

end Kookr.Remote
