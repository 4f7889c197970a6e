import Kookr.Spec.Core.TaskStore
import Kookr.Lib.Exec

/-! The database of tasks (`src/core/task-sqlite-store.ts`). A table is a map from its primary
key, in the order of its rows. The columns beside the key and the data, and the projection of
sessions, are not read back and are left out. -/

namespace Kookr.Core

open Kookr.Lib Kookr.Lib.WriteBehind

variable {ν : Type} (num : NumberText ν)

structure TaskDatabase where
  tasks : OrderedMap String (List Char)
  task_relations : OrderedMap (String × String × String) (List Char)
  store_meta : OrderedMap String (List Char)
  task_snoozes : List (List Char)
  suppression_state : OrderedMap String (List Char)

def TASK_SQLITE_SCHEMA_VERSION : List Char := ['1']

structure TaskSqliteFlushInput (ν : Type) where
  tasks : List (Task ν)
  deletedTaskIds : List String
  relations : Option (List (TaskRelation ν))
  lifetimeSpendUsd : Option ν
  snoozes : Option (List Json)
  /-- Entries with their agents. -/
  suppressionState : Option (List (String × Json))
  replaceRelations : Bool

structure TaskSqliteLoadResult (ν : Type) where
  tasks : List (Task ν)
  relations : List (TaskRelation ν)
  lifetimeSpendUsd : ν
  snoozes : List Json
  suppressionState : List Json
  quarantinedRows : ℕ

namespace TaskDatabase

/-- The database a fresh install opens. -/
def fresh [Zero ν] : TaskDatabase where
  tasks := .empty
  task_relations := .empty
  store_meta := (OrderedMap.empty.set "schema_version" TASK_SQLITE_SCHEMA_VERSION).set "lifetime_spend_usd"
    (num.lit 0).text
  task_snoozes := []
  suppression_state := .empty

def upsertTaskRow (db : TaskDatabase) (task : Task ν) : TaskDatabase :=
  { db with tasks := db.tasks.set task.id (task.data num) }

def upsertRelationRow (db : TaskDatabase) (rel : TaskRelation ν) : TaskDatabase :=
  { db with task_relations :=
      db.task_relations.set (rel.sourceTaskId, rel.targetTaskId, rel.type.text) (rel.data num) }

def replaceSnoozes (db : TaskDatabase) (snoozes : List Json) : TaskDatabase :=
  { db with task_snoozes := snoozes.map Json.stringify }

def replaceSuppression (db : TaskDatabase) (entries : List (String × Json)) : TaskDatabase :=
  { db with suppression_state := entries.foldl (fun table e => table.set e.1 e.2.stringify) .empty }

/-- One transaction; `none` where a row is inserted twice. -/
def flush (db : TaskDatabase) (input : TaskSqliteFlushInput ν) : Option TaskDatabase :=
  let db := input.deletedTaskIds.foldl (fun db id => { db with tasks := db.tasks.delete id }) db
  let db := input.tasks.foldl (upsertTaskRow num) db
  let db :=
    match input.relations with
    | some relations =>
      if input.replaceRelations then relations.foldl (upsertRelationRow num) { db with task_relations := .empty } else db
    | none => db
  let db :=
    match input.lifetimeSpendUsd with
    | some spend => { db with store_meta := db.store_meta.set "lifetime_spend_usd" (num.lit spend).text }
    | none => db
  let db := (input.snoozes.map db.replaceSnoozes).getD db
  let db := (input.suppressionState.map db.replaceSuppression).getD db
  let db := { db with store_meta := db.store_meta.set "schema_version" TASK_SQLITE_SCHEMA_VERSION }
  if ((input.suppressionState.getD []).map Prod.fst).Nodup then some db else none

/-- The task of a row; `none` where the row is quarantined. -/
def readTaskRow (id : String) (data : List Char) : Option (Task ν) :=
  ((Json.parse data).bind (hydrateTaskFromPersistedJson num)).filter fun task => task.id = id

/-- What is read, and the database without the task rows that are quarantined. -/
def loadAll [Zero ν] (db : TaskDatabase) : TaskSqliteLoadResult ν × TaskDatabase :=
  let relations := db.task_relations.values.filterMap (parseRelation num)
  let snoozes := db.task_snoozes.filterMap Json.parse
  let suppressionState := db.suppression_state.values.filterMap Json.parse
  let readable := db.tasks.filter fun id data => (readTaskRow num id data).isSome
  ({ tasks := readAll (readTaskRow num) db.tasks
     relations, snoozes, suppressionState
     lifetimeSpendUsd := ((db.store_meta.get "lifetime_spend_usd").bind num.value).getD 0
     quarantinedRows := (db.tasks.size - readable.size) + (db.task_relations.size - relations.length) +
       (db.task_snoozes.length - snoozes.length) + (db.suppression_state.size - suppressionState.length) },
    { db with
      tasks := readable
      suppression_state := db.suppression_state.filter fun _ data => (Json.parse data).isSome })

end TaskDatabase

end Kookr.Core

/-! Writing the task store to the database (`persistTaskState` in `src/core/task-persistence.ts`),
and the runs of mutations and such writes. The JSON copies that some writes go on to make change
neither the store nor the database. -/

namespace Kookr.Core

open Kookr.Lib Kookr.Lib.WriteBehind

variable {ν : Type} (num : NumberText ν)

structure PersistTaskStateOptions where
  snoozes : Option (List Json)
  suppressionState : Option (List (String × Json))
  forceFull : Bool

/-- The tasks of the dirty set that are still there. -/
def dirtyTasks (taskStore : TaskStore ν) (dirty : DirtyState) : List (Task ν) :=
  dirty.dirtyTaskIds.filterMap (rowAt Task.id taskStore.viewTasks)

def hasWork (taskStore : TaskStore ν) (dirty : DirtyState) (opts : PersistTaskStateOptions) : Bool :=
  !(dirtyTasks taskStore dirty).isEmpty || !dirty.deletedTaskIds.isEmpty || dirty.relationsDirty || dirty.metaDirty ||
    opts.snoozes.isSome || opts.suppressionState.isSome || opts.forceFull

def flushInput (taskStore : TaskStore ν) (dirty : DirtyState) (opts : PersistTaskStateOptions) : TaskSqliteFlushInput ν :=
  let replaceRelations := dirty.relationsDirty || opts.forceFull
  { tasks := dirtyTasks taskStore dirty
    deletedTaskIds := dirty.deletedTaskIds
    relations := if replaceRelations then some taskStore.listRelations else none
    lifetimeSpendUsd := if dirty.metaDirty || opts.forceFull then some taskStore.lifetimeSpendUsd else none
    snoozes := opts.snoozes
    suppressionState := opts.suppressionState
    replaceRelations }

/-- The store and the database after the call, and whether it succeeded. A flush may fail for
reasons of its own. -/
def persistTaskState (taskStore : TaskStore ν) (db : TaskDatabase) (opts : PersistTaskStateOptions) (flushFails : Bool) :
    TaskStore ν × TaskDatabase × Bool :=
  let taskStore := if opts.forceFull then taskStore.markAllDirtyForPersistence else taskStore
  let (dirty, taskStore) := taskStore.drainDirtyState
  if hasWork taskStore dirty opts then
    match if flushFails then none else db.flush num (flushInput taskStore dirty opts) with
    | some db => (taskStore, db, true)
    | none => (taskStore.markAllDirtyForPersistence, db, false)
  else (taskStore, db, true)

structure PersistRun (ν : Type) where
  store : TaskStore ν
  db : TaskDatabase
  /-- The last event was a write, and it succeeded. -/
  persisted : Bool

namespace PersistRun

def fresh [Zero ν] : PersistRun ν := ⟨.new, .fresh num, false⟩

inductive Action (ν : Type) where
  | createTask (opts : CreateTaskOptions) (id : String) (id_ne : id ≠ "") (relationId : String) (now : Timestamp)
  | deleteTask (id : String) (now : Timestamp)
  | mutateTask (id : String) (mutator : Task ν → Task ν)
  | updateTokenUsage (taskId : String) (usage : TokenUsage ν) (now : Timestamp)
  | upsertRelation (input : TaskRelationInput ν) (uuid : String) (nowIso : String)
  | persist (opts : PersistTaskStateOptions) (flushFails : Bool)

variable [Zero ν] [One ν] [Sub ν] [Add ν] [LE ν] [DecidableLE ν]

/-- A mutator that throws has no successor: it changes nothing. -/
def step (r : PersistRun ν) : Action ν → Option (PersistRun ν)
  | .createTask opts id id_ne relationId now =>
    (r.store.createTask opts id id_ne relationId now).map fun store => { r with store, persisted := false }
  | .deleteTask id now => (r.store.deleteTask id now).map fun store => { r with store, persisted := false }
  | .mutateTask id mutator =>
    (r.store.getTaskForMutation id mutator).map fun store => { r with store, persisted := false }
  | .updateTokenUsage taskId usage now =>
    (r.store.updateTokenUsage taskId usage now).map fun store => { r with store, persisted := false }
  | .upsertRelation input uuid nowIso =>
    (r.store.upsertRelation input uuid nowIso).map fun store => { r with store, persisted := false }
  | .persist opts flushFails =>
    let (store, db, persisted) := persistTaskState num r.store r.db opts flushFails
    some { store, db, persisted }

end PersistRun

end Kookr.Core
