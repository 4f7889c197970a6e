import Kookr.Spec.Realtime.SnapshotDelta

/-! The dashboard's store (`src/frontend/store`): how a full snapshot and a delta are
applied. What the user has selected is not a field of the snapshot and is left out. -/

namespace Kookr.Realtime

open Kookr.Lib

/-- `JSON.stringify(event)`. -/
def eventKey (event : Json) : List Char := event.stringify

def eventSeq (event : Json) : Option NumLit := (event.get "eventSeq").bind Json.asNum

/-- Whether a window of `incoming` is `existing`. -/
def hasWindow {β : Type} [BEq β] (existing incoming : List β) : Bool :=
  incoming.tails.any fun tail => existing.isPrefixOf tail

def containsExistingEventSeqSubsequence (existing incoming : List Json) : Bool :=
  if existing.isEmpty then !incoming.isEmpty
  else if existing.any (fun e => (eventSeq e).isNone) || incoming.any (fun e => (eventSeq e).isNone) then false
  else hasWindow (existing.map eventSeq) (incoming.map eventSeq)

def containsExistingJsonSubsequence (existing incoming : List Json) : Bool :=
  if existing.isEmpty then !incoming.isEmpty
  else hasWindow (existing.map eventKey) (incoming.map eventKey)

/-- The longest suffix of `existing`, up to a length, that `incoming` starts with. -/
def overlapUpTo (existing incoming : List (List Char)) : ℕ → ℕ
  | 0 => 0
  | length + 1 =>
    if existing.drop (existing.length - (length + 1)) = incoming.take (length + 1) then length + 1
    else overlapUpTo existing incoming length

def findOverlap (existing incoming : List Json) : ℕ :=
  overlapUpTo (existing.map eventKey) (incoming.map eventKey) (min existing.length incoming.length)

/-- `mergeActivityEvents` on the events of two rows. -/
def mergeEvents (existing incoming : List Json) : List Json :=
  if containsExistingEventSeqSubsequence existing incoming then incoming
  else
    let hasCompleteSeqs := existing.all (fun e => (eventSeq e).isSome) &&
      incoming.all (fun e => (eventSeq e).isSome)
    if !hasCompleteSeqs && containsExistingJsonSubsequence existing incoming then incoming
    else existing ++ incoming.drop (findOverlap existing incoming)

def mergeActivityEvents (previous : Option AgentState) (incoming : AgentState) : List Json :=
  match previous with
  | none => incoming.events
  | some previous => mergeEvents previous.events incoming.events

def mergeActivityAgent (previous : Option AgentState) (incoming : AgentState) : AgentState :=
  { incoming with
    events := mergeActivityEvents previous incoming
    activityMeta :=
      match incoming.activityMeta with
      | some activityMeta => some activityMeta
      | none => previous.bind AgentState.activityMeta }

/-- Sweep progress as the store shows it, with the status of each project. -/
structure SweepProgressView where
  progress : SweepProgress
  projectStatuses : List (String × String)

/-- Store fields that only snapshots set. -/
structure SessionFields where
  agentsHydrated : Bool
  serverCwd : String
  availableAgentTypes : Json
  defaultAgentType : String
  buildInfo : Option Json
  serverStartedAt : Option String
  sttUrl : String
  ttsUrl : String
  speechCapabilities : Option Json
  workspaceEnabled : Bool
  sweepRunning : Bool
  sweepProgress : Option SweepProgressView
  lastSweepRunId : Option String
  safeMode : SafeModeStatus

/-- Store fields that snapshots and deltas set. -/
structure SharedFields where
  totalSpendUsd : NumLit
  maxActiveTasks : NumLit
  drainStatus : Json
  coordinator : Option Json
  achievements : Json
  achievementCounters : Json
  achievementStreak : Json
  bypassAllPermissions : Bool

structure ClientStore where
  agents : List AgentState
  taskRelations : List TaskRelation
  session : SessionFields
  shared : SharedFields

/-- A capability whose endpoint the speech button may use. -/
def readySTTEndpoint (capability : Json) : Option String :=
  if (capability.get "kind").bind Json.asStr = some "stt" ∧
      (capability.get "readiness").bind Json.asStr = some "ready" ∧
      (capability.get "protocol").bind Json.asStr = some "kookr-stt-ws" then
    ((capability.get "endpointUrl").bind Json.asStr).filter fun url => !url.isEmpty
  else none

def firstReadyKookrSTTEndpoint (capabilities : Option Json) : Option String :=
  match capabilities.bind fun c => c.get "capabilitiesByDevice" with
  | some (.obj devices) => devices.findSome? fun device =>
    match device.2 with
    | .arr deviceCapabilities => deviceCapabilities.findSome? readySTTEndpoint
    | _ => none
  | _ => none

/-- `sttEnabled && sttUrl ? sttUrl : firstReadyKookrSTTEndpoint(speechCapabilities)`, where it is truthy. -/
def nextSttUrl (msg : SnapshotMessage) : Option String :=
  match msg.sttEnabled, msg.sttUrl.filter (fun url => !url.isEmpty) with
  | some true, some url => some url
  | _, _ => firstReadyKookrSTTEndpoint msg.speechCapabilities

def sweepProgressAfter (previous : Option SweepProgressView) (msg : SnapshotMessage) : Option SweepProgressView :=
  match msg.sweepProgress with
  | some progress => some ⟨progress, [(progress.projectId, progress.status)]⟩
  | none => if msg.sweepRunning = some false then none else previous

def safeModeAfter (safeMode : SafeModeStatus) : SafeModeStatus :=
  if safeMode.engaged then safeMode else ⟨false, none, none⟩

def SessionFields.afterSnapshot (prev : SessionFields) (msg : SnapshotMessage) : SessionFields where
  agentsHydrated := true
  serverCwd := msg.serverCwd
  availableAgentTypes := msg.availableAgentTypes.getD prev.availableAgentTypes
  defaultAgentType := msg.defaultAgentType.getD prev.defaultAgentType
  buildInfo := msg.build.or prev.buildInfo
  serverStartedAt := msg.serverStartedAt.or prev.serverStartedAt
  sttUrl := (nextSttUrl msg).getD prev.sttUrl
  ttsUrl := msg.ttsUrl.getD prev.ttsUrl
  speechCapabilities := msg.speechCapabilities.or prev.speechCapabilities
  workspaceEnabled := msg.workspaceEnabled.getD prev.workspaceEnabled
  sweepRunning := msg.sweepRunning.getD prev.sweepRunning
  sweepProgress := sweepProgressAfter prev.sweepProgress msg
  lastSweepRunId := msg.lastSweepRunId.or prev.lastSweepRunId
  safeMode := (msg.safeMode.map safeModeAfter).getD prev.safeMode

/-- A shallow merge of the fields that are defined; `bypassAllPermissions` is left to the caller. -/
def SharedFields.merge (prev : SharedFields) (fields : AggregateFields) (bypassAllPermissions : Bool) : SharedFields where
  totalSpendUsd := fields.totalSpendUsd.getD prev.totalSpendUsd
  maxActiveTasks := fields.maxActiveTasks.getD prev.maxActiveTasks
  drainStatus := fields.drainStatus.getD prev.drainStatus
  coordinator := fields.coordinator.or prev.coordinator
  achievements := fields.achievements.getD prev.achievements
  achievementCounters := fields.achievementCounters.getD prev.achievementCounters
  achievementStreak := fields.achievementStreak.getD prev.achievementStreak
  bypassAllPermissions

/-- The row a snapshot's row is merged with: that of its key, or for a row without a task
the last one of its agent. -/
def previousRow (prev : List AgentState) (a : AgentState) : Option AgentState :=
  ((mapBy agentStreamKey prev).get (agentStreamKey a)).or
    (if (taskOf a).isNone then (mapBy AgentState.agentId prev).get a.agentId else none)

/-- `handleSnapshot`, with the fields `dispatchSnapshotMessageForClient` and the message
handler write next to it. -/
def handleSnapshot (prev : ClientStore) (msg : SnapshotMessage) : ClientStore where
  agents := msg.agents.map fun a => mergeActivityAgent (previousRow prev.agents a) a
  taskRelations := msg.taskRelations.getD prev.taskRelations
  session := prev.session.afterSnapshot msg
  shared := prev.shared.merge msg.toAggregateFields (msg.bypassAllPermissions = some true)

/-- One step of the loops that put the rows of `byKey` in order. -/
def pushRow (byKey : OrderedMap String AgentState) (st : List AgentState × List String) (key : String) :
    List AgentState × List String :=
  if key ∈ st.2 then st
  else
    match byKey.get key with
    | some next => (st.1 ++ [next], st.2 ++ [key])
    | none => st

/-- Survivors in their order, then brand-new rows. -/
def handleDeltaAgents (prev : List AgentState) (delta : AgentDelta) : List AgentState :=
  let kept := prev.filter fun a => decide (agentStreamKey a ∉ delta.removed)
  let byKey := mergeInto agentStreamKey mergeActivityAgent (mapBy agentStreamKey kept) delta.upserts
  let survivors := (kept.map agentStreamKey).foldl (pushRow byKey) ([], [])
  ((delta.upserts.map agentStreamKey).foldl (pushRow byKey) survivors).1

def handleDelta (prev : ClientStore) (delta : DeltaMessage) : ClientStore :=
  let aggregates := delta.aggregates.getD .none
  { prev with
    agents := handleDeltaAgents prev.agents (delta.agents.getD ⟨[], []⟩)
    taskRelations := delta.taskRelations.getD prev.taskRelations
    shared := prev.shared.merge aggregates
      ((aggregates.bypassAllPermissions).getD prev.shared.bypassAllPermissions) }

/-- What a client is sent: a full snapshot, or the delta from the one it was last brought
to, up to the next. -/
inductive StreamFrame where
  | snapshot (msg : SnapshotMessage)
  | delta (current : SnapshotMessage)

/-- A client and the snapshot it was last brought to. -/
structure StreamClient where
  store : ClientStore
  shown : Option SnapshotMessage

def StreamClient.step (s : StreamClient) : StreamFrame → Option StreamClient
  | .snapshot msg => some ⟨handleSnapshot s.store msg, some msg⟩
  | .delta current => do
    let previous ← s.shown
    let delta ← buildDeltaFromSnapshots previous current
    return ⟨handleDelta s.store delta, some current⟩

end Kookr.Realtime
