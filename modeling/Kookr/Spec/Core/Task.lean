import Kookr.Lib.JsonFields
import Kookr.Lib.JsonNumber

/-! Task records and relations (`src/core/task-read-model.ts`, `src/shared/contracts/task-relations.ts`)
and their JSON, as it is stored and read back (`src/core/task-sqlite-store.ts`). A member that no
modelled function reads is kept as JSON. Numbers that may not be finite are an `Option`. -/

namespace Kookr.Core

open Kookr.Lib Kookr.Lib.Json

inductive AgentType where
  | claudeCode
  | codexCli
  | grokBuild
  | hermesFleet
  deriving DecidableEq

namespace AgentType

def text : AgentType → String
  | .claudeCode => "claude-code"
  | .codexCli => "codex-cli"
  | .grokBuild => "grok-build"
  | .hermesFleet => "hermes-fleet"

end AgentType

def normalizeAgentType (value : Option String) : AgentType :=
  match value with
  | some "claude" | some "claude-code" => .claudeCode
  | some "codex" | some "codex-cli" => .codexCli
  | some "grok" | some "grok-build" => .grokBuild
  | some "hermes" | some "hermes-fleet" => .hermesFleet
  | _ => .claudeCode

structure TaskProvenance where
  kind : String
  sourceId : Option String

def UNKNOWN_PROVENANCE : TaskProvenance := ⟨"unknown", none⟩

def deriveTaskProvenance (parentTaskId launchSource scheduleId : Option String) : TaskProvenance :=
  match parentTaskId with
  | some parentTaskId => ⟨"parent", some parentTaskId⟩
  | none =>
    match launchSource with
    | some launchSource => if launchSource = "schedule" then ⟨"schedule", scheduleId⟩ else ⟨"manual", some launchSource⟩
    | none => UNKNOWN_PROVENANCE

namespace TaskProvenance

def toJson (p : TaskProvenance) : Json := .obj ([("kind", .str p.kind)] ++ opt "sourceId" (p.sourceId.map .str))

def ofJson (j : Json) : Option TaskProvenance := (textAt j "kind").map fun kind => ⟨kind, textAt j "sourceId"⟩

end TaskProvenance

def SessionInfo.named : List String := ["agentType", "createdAt"]

structure SessionInfo where
  agentType : AgentType
  createdAt : Timestamp
  rest : List (String × Json)
  rest_named : ∀ m ∈ rest, m.1 ∉ SessionInfo.named

theorem others_named (named : List String) (j : Json) : ∀ m ∈ others named j, m.1 ∉ named := by
  intro m hm
  cases j with
  | obj members => simpa using (List.mem_filter.1 hm).2
  | _ => cases hm

namespace SessionInfo

def toJson (s : SessionInfo) : Json :=
  .obj ([("agentType", .str s.agentType.text), ("createdAt", date s.createdAt)] ++ s.rest)

def ofJson (j : Json) : Option SessionInfo :=
  (dateAt j "createdAt").map fun createdAt =>
    ⟨normalizeAgentType (textAt j "agentType"), createdAt, others named j, others_named named j⟩

end SessionInfo

def TaskLaunchAdmission.named : List String := ["status"]

structure TaskLaunchAdmission where
  status : String
  rest : List (String × Json)
  rest_named : ∀ m ∈ rest, m.1 ∉ TaskLaunchAdmission.named

namespace TaskLaunchAdmission

def toJson (a : TaskLaunchAdmission) : Json := .obj ([("status", .str a.status)] ++ a.rest)

def ofJson (j : Json) : Option TaskLaunchAdmission :=
  (textAt j "status").map fun status => ⟨status, others named j, others_named named j⟩

end TaskLaunchAdmission

def TokenUsage.named : List String := ["costUsd"]

structure TokenUsage (ν : Type) where
  costUsd : Option ν
  rest : List (String × Json)
  rest_named : ∀ m ∈ rest, m.1 ∉ TokenUsage.named

variable {ν : Type} (num : NumberText ν)

namespace TokenUsage

def toJson (u : TokenUsage ν) : Json :=
  .obj ([("costUsd", (u.costUsd.map fun x => Json.num (num.lit x)).getD .null)] ++ u.rest)

def ofJson (j : Json) : TokenUsage ν :=
  ⟨((j.get "costUsd").bind asNum).bind fun n => num.value n.text, others named j, others_named named j⟩

end TokenUsage

def Task.named : List String :=
  ["id", "agentType", "provenance", "parentTaskId", "childTaskIds", "sessions", "launchAdmission", "tokenUsage",
    "createdAt", "updatedAt", "finishedAt", "terminatedAt"]

structure Task (ν : Type) where
  id : String
  id_ne : id ≠ ""
  agentType : AgentType
  provenance : TaskProvenance
  parentTaskId : Option String
  childTaskIds : Option (List String)
  sessions : List SessionInfo
  launchAdmission : Option TaskLaunchAdmission
  tokenUsage : Option (TokenUsage ν)
  createdAt : Timestamp
  updatedAt : Timestamp
  finishedAt : Option Timestamp
  terminatedAt : Option Timestamp
  /-- The other members, in order. -/
  rest : List (String × Json)
  rest_named : ∀ m ∈ rest, m.1 ∉ Task.named

namespace Task

def members (t : Task ν) : List (String × Json) :=
  [("id", .str t.id), ("agentType", .str t.agentType.text), ("provenance", t.provenance.toJson),
    ("sessions", .arr (t.sessions.map SessionInfo.toJson)), ("createdAt", date t.createdAt),
    ("updatedAt", date t.updatedAt)] ++
  opt "parentTaskId" (t.parentTaskId.map .str) ++
  opt "childTaskIds" (t.childTaskIds.map fun ids => .arr (ids.map .str)) ++
  opt "launchAdmission" (t.launchAdmission.map TaskLaunchAdmission.toJson) ++
  opt "tokenUsage" (t.tokenUsage.map (TokenUsage.toJson num)) ++
  opt "finishedAt" (t.finishedAt.map date) ++ opt "terminatedAt" (t.terminatedAt.map date)

def toJson (t : Task ν) : Json := .obj (t.members num ++ t.rest)

/-- `JSON.stringify(task)`. -/
def data (t : Task ν) : List Char := (t.toJson num).stringify

end Task

/-- Coerce the dates and the agent types; `none` stands for the error thrown. -/
def hydrateTaskFromPersistedJson (raw : Json) : Option (Task ν) := do
  let id ← textAt raw "id"
  if h : id ≠ "" then
    let createdAt ← dateAt raw "createdAt"
    let updatedAt ← dateAt raw "updatedAt"
    let sessions ← ((arrayAt raw "sessions").getD []).mapM SessionInfo.ofJson
    return {
      id
      id_ne := h
      agentType := normalizeAgentType (textAt raw "agentType")
      provenance := ((raw.get "provenance").bind TaskProvenance.ofJson).getD UNKNOWN_PROVENANCE
      parentTaskId := textAt raw "parentTaskId"
      childTaskIds := (arrayAt raw "childTaskIds").bind fun items => items.mapM asStr
      sessions
      launchAdmission := (raw.get "launchAdmission").bind TaskLaunchAdmission.ofJson
      tokenUsage := (raw.get "tokenUsage").map (TokenUsage.ofJson num)
      createdAt
      updatedAt
      finishedAt := dateAt raw "finishedAt"
      terminatedAt := dateAt raw "terminatedAt"
      rest := others Task.named raw
      rest_named := others_named Task.named raw }
  else none

inductive TaskRelationType where
  | spawnedBy
  | successorOf
  | supervises
  | sameChain
  | dependsOn
  | blocks
  | relatedTo
  deriving DecidableEq

inductive TaskRelationSource where
  | api
  | kookrSpawn
  | hookLog
  | playbookState
  | transcript
  | llmInference
  | manual
  deriving DecidableEq

inductive TaskRelationLifecycle where
  | active
  | superseded
  | rejected
  deriving DecidableEq

namespace TaskRelationType

def all : List (TaskRelationType × String) :=
  [(.spawnedBy, "spawned_by"), (.successorOf, "successor_of"), (.supervises, "supervises"), (.sameChain, "same_chain"),
    (.dependsOn, "depends_on"), (.blocks, "blocks"), (.relatedTo, "related_to")]

def text (t : TaskRelationType) : String := ((all.find? fun e => e.1 = t).map Prod.snd).getD ""

def ofText (t : String) : Option TaskRelationType := (all.find? fun e => e.2 = t).map Prod.fst

end TaskRelationType

namespace TaskRelationSource

def all : List (TaskRelationSource × String) :=
  [(.api, "api"), (.kookrSpawn, "kookr-spawn"), (.hookLog, "hook-log"), (.playbookState, "playbook-state"),
    (.transcript, "transcript"), (.llmInference, "llm-inference"), (.manual, "manual")]

def text (t : TaskRelationSource) : String := ((all.find? fun e => e.1 = t).map Prod.snd).getD ""

def ofText (t : String) : Option TaskRelationSource := (all.find? fun e => e.2 = t).map Prod.fst

end TaskRelationSource

namespace TaskRelationLifecycle

def all : List (TaskRelationLifecycle × String) :=
  [(.active, "active"), (.superseded, "superseded"), (.rejected, "rejected")]

def text (t : TaskRelationLifecycle) : String := ((all.find? fun e => e.1 = t).map Prod.snd).getD ""

def ofText (t : String) : Option TaskRelationLifecycle := (all.find? fun e => e.2 = t).map Prod.fst

end TaskRelationLifecycle

structure TaskRelationEvidence where
  snippet : Option String
  path : Option String
  observedAt : String

namespace TaskRelationEvidence

def toJson (e : TaskRelationEvidence) : Json :=
  .obj (opt "snippet" (e.snippet.map .str) ++ opt "path" (e.path.map .str) ++ [("observedAt", .str e.observedAt)])

def ofJson (j : Json) : Option TaskRelationEvidence :=
  (textAt j "observedAt").map fun observedAt => ⟨textAt j "snippet", textAt j "path", observedAt⟩

end TaskRelationEvidence

structure TaskRelation (ν : Type) where
  id : String
  sourceTaskId : String
  targetTaskId : String
  type : TaskRelationType
  confidence : ν
  source : TaskRelationSource
  evidence : List TaskRelationEvidence
  createdAt : String
  updatedAt : String
  lifecycle : TaskRelationLifecycle

/-- The key of the graph; the source joins the three in a JSON array. -/
abbrev RelationKey := String × String × TaskRelationType

def taskRelationKey (sourceTaskId targetTaskId : String) (type : TaskRelationType) : RelationKey :=
  (sourceTaskId, targetTaskId, type)

namespace TaskRelation

def key (r : TaskRelation ν) : RelationKey := taskRelationKey r.sourceTaskId r.targetTaskId r.type

def toJson (r : TaskRelation ν) : Json :=
  .obj [("id", .str r.id), ("sourceTaskId", .str r.sourceTaskId), ("targetTaskId", .str r.targetTaskId),
    ("type", .str r.type.text), ("confidence", .num (num.lit r.confidence)), ("source", .str r.source.text),
    ("evidence", .arr (r.evidence.map TaskRelationEvidence.toJson)), ("createdAt", .str r.createdAt),
    ("updatedAt", .str r.updatedAt), ("lifecycle", .str r.lifecycle.text)]

/-- `JSON.stringify(rel)`. -/
def data (r : TaskRelation ν) : List Char := (r.toJson num).stringify

end TaskRelation

def parseRelation (data : List Char) : Option (TaskRelation ν) := do
  let r ← Json.parse data
  let id ← textAt r "id"
  let sourceTaskId ← textAt r "sourceTaskId"
  let targetTaskId ← textAt r "targetTaskId"
  let type ← (textAt r "type").bind TaskRelationType.ofText
  let confidence ← ((r.get "confidence").bind asNum).bind fun n => num.value n.text
  let source ← (textAt r "source").bind TaskRelationSource.ofText
  let createdAt ← textAt r "createdAt"
  let updatedAt ← textAt r "updatedAt"
  let lifecycle ← (textAt r "lifecycle").bind TaskRelationLifecycle.ofText
  let evidence ← ((arrayAt r "evidence").getD []).mapM TaskRelationEvidence.ofJson
  return { id, sourceTaskId, targetTaskId, type, confidence, source, evidence, createdAt, updatedAt, lifecycle }

end Kookr.Core
