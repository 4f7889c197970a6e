import Mathlib.Algebra.Group.Basic
import Kookr.Lib.KeyedRows
import Kookr.Lib.WriteBehind
import Kookr.Spec.Core.Task

/-! The part of the task store (`src/core/tasks.ts`) that is written to the database: tasks,
relations, the lifetime spend, and what has to be written. A mutator that changes one task and
marks it is `getTaskForMutation` with the change it makes. Numbers are exact, so the sum of
finite costs is finite. -/

namespace Kookr.Core

open Kookr.Lib Kookr.Lib.WriteBehind

variable {ν : Type}

structure TaskStore (ν : Type) where
  tasks : OrderedMap String (Task ν)
  relations : OrderedMap RelationKey (TaskRelation ν)
  lifetimeSpendUsd : ν
  dirtyTaskIds : List String
  deletedTaskIds : List String
  relationsDirty : Bool
  metaDirty : Bool
  tasks_keyed : ∀ id task, tasks.get id = some task → task.id = id
  relations_keyed : ∀ key rel, relations.get key = some rel → rel.key = key

structure DirtyState where
  dirtyTaskIds : List String
  deletedTaskIds : List String
  relationsDirty : Bool
  metaDirty : Bool

structure CreateTaskOptions where
  parentTaskId : Option String
  launchSource : Option String
  scheduleId : Option String
  agentType : Option AgentType
  launchAdmission : Option TaskLaunchAdmission
  /-- What the other options and the defaults make of the record. -/
  rest : List (String × Json)
  rest_named : ∀ m ∈ rest, m.1 ∉ Task.named

structure TaskRelationInput (ν : Type) where
  sourceTaskId : String
  targetTaskId : String
  type : TaskRelationType
  confidence : ν
  source : TaskRelationSource
  evidence : List TaskRelationEvidence
  lifecycle : Option TaskRelationLifecycle

namespace TaskStore

def new [Zero ν] : TaskStore ν where
  tasks := .empty
  relations := .empty
  lifetimeSpendUsd := 0
  dirtyTaskIds := []
  deletedTaskIds := []
  relationsDirty := false
  metaDirty := false
  tasks_keyed := by
    intro id task h
    rw [OrderedMap.get_empty] at h
    cases h
  relations_keyed := by
    intro key rel h
    rw [OrderedMap.get_empty] at h
    cases h

variable (s : TaskStore ν)

def markRelationsDirty : TaskStore ν := { s with relationsDirty := true }

def markMetaDirty : TaskStore ν := { s with metaDirty := true }

def drainDirtyState : DirtyState × TaskStore ν :=
  (⟨s.dirtyTaskIds, s.deletedTaskIds, s.relationsDirty, s.metaDirty⟩,
    { s with dirtyTaskIds := [], deletedTaskIds := [], relationsDirty := false, metaDirty := false })

def markAllDirtyForPersistence : TaskStore ν :=
  { s with
    dirtyTaskIds := s.tasks.keys.foldl mark s.dirtyTaskIds
    deletedTaskIds := []
    relationsDirty := true
    metaDirty := true }

def viewTasks : List (Task ν) := s.tasks.values

def listRelations : List (TaskRelation ν) := s.relations.values

/-- `this.tasks.set(task.id, task)` and `markTaskDirty`, also for a change made in place. -/
def setTask (task : Task ν) : TaskStore ν :=
  { s with
    tasks := s.tasks.set task.id task
    dirtyTaskIds := mark s.dirtyTaskIds task.id
    deletedTaskIds := unmark s.deletedTaskIds task.id
    tasks_keyed := by
      intro id task' h
      rw [OrderedMap.get_set] at h
      split at h
      · rename_i hid
        rwa [← Option.some.inj h]
      · exact s.tasks_keyed id task' h }

/-- `this.tasks.delete(id)` and `markTaskDeleted`. -/
def removeTask (id : String) : TaskStore ν :=
  { s with
    tasks := s.tasks.delete id
    dirtyTaskIds := unmark s.dirtyTaskIds id
    deletedTaskIds := mark s.deletedTaskIds id
    tasks_keyed := by
      intro id' task h
      rw [OrderedMap.get_delete] at h
      split at h
      · cases h
      · exact s.tasks_keyed id' task h }

/-- A change of one stored task by a method that marks it; the id is never assigned. -/
def getTaskForMutation (id : String) (mutator : Task ν → Task ν) : Option (TaskStore ν) :=
  (s.tasks.get id).map fun task => s.setTask { mutator task with id := task.id, id_ne := task.id_ne }

def setRelation (rel : TaskRelation ν) : TaskStore ν :=
  { s with
    relations := s.relations.set rel.key rel
    relationsDirty := true
    relations_keyed := by
      intro key rel' h
      rw [OrderedMap.get_set] at h
      split at h
      · rename_i hkey
        rwa [← Option.some.inj h]
      · exact s.relations_keyed key rel' h }

/-- Drop the relations of a task on either side. -/
def dropRelations (id : String) : TaskStore ν :=
  let dropped := s.relations.values.any fun rel => rel.sourceTaskId = id ∨ rel.targetTaskId = id
  { s with
    relations := s.relations.filter fun _ rel => ¬ (rel.sourceTaskId = id ∨ rel.targetTaskId = id)
    relationsDirty := s.relationsDirty || dropped
    relations_keyed := by
      intro key rel h
      rw [OrderedMap.get_filter] at h
      exact s.relations_keyed key rel (Option.filter_eq_some_iff.1 h).1 }

variable [Zero ν] [One ν] [Sub ν] [Add ν] [LE ν] [DecidableLE ν]

/-- Evidence that is not there yet. -/
def addEvidence (evidence input : List TaskRelationEvidence) : List TaskRelationEvidence :=
  input.foldl (fun evidence ev =>
    if evidence.any fun e => e.snippet = ev.snippet ∧ e.path = ev.path then evidence else evidence ++ [ev]) evidence

/-- `none` where the confidence is refused. -/
def upsertRelation (input : TaskRelationInput ν) (uuid : String) (nowIso : String) : Option (TaskStore ν) :=
  if ¬ (0 ≤ input.confidence ∧ input.confidence ≤ 1) then none
  else
    match s.relations.get (taskRelationKey input.sourceTaskId input.targetTaskId input.type) with
    | some existing =>
      some (s.setRelation { existing with
        confidence := input.confidence
        source := input.source
        lifecycle := input.lifecycle.getD existing.lifecycle
        updatedAt := nowIso
        evidence := addEvidence existing.evidence input.evidence })
    | none =>
      some (s.setRelation {
        id := uuid
        sourceTaskId := input.sourceTaskId
        targetTaskId := input.targetTaskId
        type := input.type
        confidence := input.confidence
        source := input.source
        evidence := input.evidence
        createdAt := nowIso
        updatedAt := nowIso
        lifecycle := input.lifecycle.getD .active })

def DETERMINISTIC_RELATION_CONFIDENCE : ν := 1

/-- `none` where the parent is not there. The ids are those `randomUUID` returns. -/
def createTask (opts : CreateTaskOptions) (id : String) (id_ne : id ≠ "") (relationId : String) (now : Timestamp) :
    Option (TaskStore ν) :=
  let task : Task ν := {
    id, id_ne
    agentType := opts.agentType.getD .claudeCode
    provenance := deriveTaskProvenance opts.parentTaskId opts.launchSource opts.scheduleId
    parentTaskId := opts.parentTaskId
    childTaskIds := none
    sessions := []
    launchAdmission := opts.launchAdmission
    tokenUsage := none
    createdAt := now
    updatedAt := now
    finishedAt := none
    terminatedAt := none
    rest := opts.rest
    rest_named := opts.rest_named }
  match opts.parentTaskId with
  | none => some (s.setTask task)
  | some parentTaskId =>
    if s.tasks.has parentTaskId then
      ((s.setTask task).getTaskForMutation parentTaskId fun parent =>
        { parent with childTaskIds := some (parent.childTaskIds.getD [] ++ [id]), updatedAt := now }).bind fun s =>
      s.upsertRelation {
        sourceTaskId := id
        targetTaskId := parentTaskId
        type := .spawnedBy
        confidence := DETERMINISTIC_RELATION_CONFIDENCE
        source := .api
        evidence := [⟨some ("parentTaskId set on createTask for " ++ id), none, String.ofList (IsoDate.toISOString now)⟩]
        lifecycle := none } relationId (String.ofList (IsoDate.toISOString now))
    else none

/-- `none` where there is no such task, or it still owns a probe. -/
def deleteTask (id : String) (now : Timestamp) : Option (TaskStore ν) :=
  match s.tasks.get id with
  | none => none
  | some task =>
    if task.launchAdmission.map TaskLaunchAdmission.status = some "probing" then none
    else
      let unlinked := (task.parentTaskId.bind fun parentTaskId =>
        (s.tasks.get parentTaskId).bind fun parent => parent.childTaskIds.bind fun childTaskIds =>
          s.getTaskForMutation parentTaskId fun parent =>
            { parent with childTaskIds := some (childTaskIds.filter fun cid => cid ≠ id), updatedAt := now }).getD s
      some ((unlinked.removeTask id).dropRelations id)

/-- The spend follows the cost of the task where both its costs are finite. -/
def updateTokenUsage (taskId : String) (usage : TokenUsage ν) (now : Timestamp) : Option (TaskStore ν) :=
  (s.tasks.get taskId).map fun task =>
    let previousCost : Option ν := (task.tokenUsage.map TokenUsage.costUsd).getD (some 0)
    let s :=
      match usage.costUsd, previousCost with
      | some cost, some previous =>
        if 0 ≤ cost then { s with lifetimeSpendUsd := s.lifetimeSpendUsd + (cost - previous) }.markMetaDirty else s
      | _, _ => s
    s.setTask { task with tokenUsage := some usage, updatedAt := now }

end TaskStore

end Kookr.Core
