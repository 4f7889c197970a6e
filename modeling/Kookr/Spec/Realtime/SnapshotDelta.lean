import Kookr.Lib.Json
import Kookr.Lib.KeyedRows

/-! Agent rows, task relations, snapshots and deltas as they travel to the dashboard
(`src/shared/contracts`). Values are those of the wire: a member no modelled function
reads is kept as JSON. A field the source marks optional is an `Option`. -/

namespace Kookr.Realtime

open Kookr.Lib

/-- The members of a row that are read by name. -/
def AgentState.named : List String := ["agentId", "events", "taskId", "projectId", "activityMeta"]

@[ext]
structure AgentState where
  agentId : String
  events : List Json
  taskId : Option String
  projectId : Option String
  activityMeta : Option Json
  /-- The other members, in order. -/
  rest : List (String × Json)
  rest_named : ∀ m ∈ rest, m.1 ∉ AgentState.named

namespace AgentState

def toJson (a : AgentState) : Json :=
  .obj ([("agentId", .str a.agentId), ("events", .arr a.events)] ++ (opt "taskId" (a.taskId.map .str) ++
    (opt "projectId" (a.projectId.map .str) ++ (opt "activityMeta" a.activityMeta ++ a.rest))))

/-- `JSON.stringify(agent)`. -/
def json (a : AgentState) : List Char := a.toJson.stringify

end AgentState

/-- `agentId:taskId`, the key of the client store and of `removed`. -/
def agentStreamKey (a : AgentState) : String := a.agentId ++ ":" ++ a.taskId.getD ""

structure TaskRelation where
  sourceTaskId : String
  targetTaskId : String
  rest : List (String × Json)

def TaskRelation.toJson (r : TaskRelation) : Json :=
  .obj ([("sourceTaskId", .str r.sourceTaskId), ("targetTaskId", .str r.targetTaskId)] ++ r.rest)

/-- `JSON.stringify(relations)`. -/
def relationsJson (rs : List TaskRelation) : List Char :=
  (Json.arr (rs.map TaskRelation.toJson)).stringify

/-- The snapshot fields that ride on a delta. -/
structure AggregateFields where
  totalSpendUsd : Option NumLit
  maxActiveTasks : Option NumLit
  drainStatus : Option Json
  coordinator : Option Json
  achievements : Option Json
  achievementCounters : Option Json
  achievementStreak : Option Json
  bypassAllPermissions : Option Bool

def AggregateFields.none : AggregateFields :=
  ⟨.none, .none, .none, .none, .none, .none, .none, .none⟩

structure SafeModeStatus where
  engaged : Bool
  since : Option String
  loadError : Option String
  deriving DecidableEq

structure SweepProgress where
  projectId : String
  status : String
  rest : List (String × Json)

structure SnapshotMessage extends AggregateFields where
  agents : List AgentState
  serverCwd : String
  epoch : Option String
  seq : Option ℕ
  build : Option Json
  serverStartedAt : Option String
  sttEnabled : Option Bool
  sttUrl : Option String
  ttsUrl : Option String
  speechCapabilities : Option Json
  availableAgentTypes : Option Json
  defaultAgentType : Option String
  workspaceEnabled : Option Bool
  sweepRunning : Option Bool
  sweepProgress : Option SweepProgress
  lastSweepRunId : Option String
  safeMode : Option SafeModeStatus
  taskRelations : Option (List TaskRelation)

structure AgentDelta where
  upserts : List AgentState
  removed : List String

structure DeltaMessage where
  epoch : String
  seq : ℕ
  agents : Option AgentDelta
  taskRelations : Option (List TaskRelation)
  aggregates : Option AggregateFields

end Kookr.Realtime

/-! The server's delta builder (`src/server/snapshot-delta.ts`). -/

namespace Kookr.Realtime

open Kookr.Lib

def diffProjectedAgents (previous current : List AgentState) : AgentDelta :=
  let prevByKey : OrderedMap String (List Char) :=
    previous.foldl (fun m a => m.set (agentStreamKey a) a.json) .empty
  { upserts := current.filter fun a => decide (prevByKey.get (agentStreamKey a) ≠ some a.json)
    removed := prevByKey.keys.filter fun key => decide (key ∉ current.map agentStreamKey) }

def relationsEqual : Option (List TaskRelation) → Option (List TaskRelation) → Bool
  | none, none => true
  | some a, some b => if a.length ≠ b.length then false else decide (relationsJson a = relationsJson b)
  | _, _ => false

/-- `JSON.stringify(prevVal) === JSON.stringify(curVal)`, of values that may be absent. -/
def sameJson {α : Type} (toJson : α → Json) (previous current : Option α) : Bool :=
  decide (previous.map (fun v => (toJson v).stringify) = current.map (fun v => (toJson v).stringify))

/-- One key of the patch: the current value where it is defined and its JSON changed. -/
def diffField {α : Type} (toJson : α → Json) (previous current : Option α) : Option α :=
  if sameJson toJson previous current then none else current

def AggregateFields.isEmpty (p : AggregateFields) : Bool :=
  p.totalSpendUsd.isNone && p.maxActiveTasks.isNone && p.drainStatus.isNone && p.coordinator.isNone &&
  p.achievements.isNone && p.achievementCounters.isNone && p.achievementStreak.isNone &&
  p.bypassAllPermissions.isNone

def diffAggregates (previous current : AggregateFields) : Option AggregateFields :=
  let patch : AggregateFields := {
    totalSpendUsd := diffField .num previous.totalSpendUsd current.totalSpendUsd
    maxActiveTasks := diffField .num previous.maxActiveTasks current.maxActiveTasks
    drainStatus := diffField id previous.drainStatus current.drainStatus
    coordinator := diffField id previous.coordinator current.coordinator
    achievements := diffField id previous.achievements current.achievements
    achievementCounters := diffField id previous.achievementCounters current.achievementCounters
    achievementStreak := diffField id previous.achievementStreak current.achievementStreak
    bypassAllPermissions := diffField .bool previous.bypassAllPermissions current.bypassAllPermissions }
  if patch.isEmpty then none else some patch

/-- `buildDeltaFromSnapshots(previous, current).delta`. `none` is the error for a snapshot
that carries no position. -/
def buildDeltaFromSnapshots (previous current : SnapshotMessage) : Option DeltaMessage := do
  let epoch ← current.epoch
  let seq ← current.seq
  let agents := diffProjectedAgents previous.agents current.agents
  let taskRelations :=
    if relationsEqual previous.taskRelations current.taskRelations then none
    else some (current.taskRelations.getD [])
  let hasAgents := !agents.upserts.isEmpty || !agents.removed.isEmpty
  return {
    epoch, seq
    agents := if hasAgents then some agents else none
    taskRelations
    aggregates := diffAggregates previous.toAggregateFields current.toAggregateFields }

/-- `projectId !== undefined && allowed.has(projectId)`. -/
def inScope (projectIds : List String) (a : AgentState) : Bool :=
  match a.projectId with
  | some p => decide (p ∈ projectIds)
  | none => false

/-- `agent.taskId`, where it is truthy. -/
def taskOf (a : AgentState) : Option String := a.taskId.filter fun t => !t.isEmpty

/-- The tasks whose edges a scoped viewer may see, as `scopeDeltaForProjects` tracks them. -/
def inScopeTaskIds (previousAgents : List AgentState) (projectIds : List String)
    (upserts : List AgentState) (removed : List String) : List String :=
  let prevByKey := mapBy agentStreamKey previousAgents
  let tasks := (previousAgents.filter (inScope projectIds)).filterMap taskOf
  let tasks := removed.foldl (fun tasks key =>
    match (prevByKey.get key).bind taskOf with
    | some task => tasks.filter fun t => decide (t ≠ task)
    | none => tasks) tasks
  tasks ++ upserts.filterMap taskOf

def scopeDeltaForProjects (delta : DeltaMessage) (previousAgents : List AgentState) (projectIds : List String) : DeltaMessage :=
  let prevByKey := mapBy agentStreamKey previousAgents
  let upserts := ((delta.agents.map AgentDelta.upserts).getD []).filter (inScope projectIds)
  let removed := ((delta.agents.map AgentDelta.removed).getD []).filter fun key =>
    (prevByKey.get key).any (inScope projectIds)
  let tasks := inScopeTaskIds previousAgents projectIds upserts removed
  let hasAgents := !upserts.isEmpty || !removed.isEmpty
  { epoch := delta.epoch
    seq := delta.seq
    agents := if hasAgents then some ⟨upserts, removed⟩ else none
    taskRelations := delta.taskRelations.map fun relations => relations.filter fun rel =>
      decide (rel.sourceTaskId ∈ tasks) && decide (rel.targetTaskId ∈ tasks)
    aggregates := none }

end Kookr.Realtime
