import Kookr.Spec.Core.TaskPersistence
import Kookr.Lib.MapRelation

/-! A task and a relation are read back from their rows as they were written. -/

namespace Kookr.Core

open Kookr.Lib Kookr.Lib.Json

variable {ν : Type} (num : NumberText ν)

@[simp] theorem normalizeAgentType_text (a : AgentType) : normalizeAgentType (some a.text) = a := by
  cases a <;> rfl

@[simp] theorem relationType_ofText_text (t : TaskRelationType) : TaskRelationType.ofText t.text = some t := by
  cases t <;> rfl

@[simp] theorem relationSource_ofText_text (t : TaskRelationSource) : TaskRelationSource.ofText t.text = some t := by
  cases t <;> rfl

@[simp] theorem relationLifecycle_ofText_text (t : TaskRelationLifecycle) :
    TaskRelationLifecycle.ofText t.text = some t := by
  cases t <;> rfl

theorem lookup_rest {named : List String} {rest : List (String × Json)} (hrest : ∀ m ∈ rest, m.1 ∉ named) {k : String}
    (hk : k ∈ named) : lookup k rest = none := by
  refine lookup_of_not_mem ?_
  rintro m hm rfl
  exact hrest m hm hk

theorem provenance_ofJson_toJson (p : TaskProvenance) : TaskProvenance.ofJson p.toJson = some p := by
  simp [TaskProvenance.ofJson, TaskProvenance.toJson, textAt]

theorem session_ofJson_toJson (s : SessionInfo) : SessionInfo.ofJson s.toJson = some s := by
  have hothers : others SessionInfo.named s.toJson = s.rest :=
    filter_others (by simp [SessionInfo.named]) s.rest_named
  have hagent : lookup "agentType" s.rest = none := lookup_rest s.rest_named (by decide)
  have hcreated : lookup "createdAt" s.rest = none := lookup_rest s.rest_named (by decide)
  simp [SessionInfo.ofJson, hothers]
  simp [SessionInfo.toJson, dateAt, textAt, hagent, hcreated]

theorem admission_ofJson_toJson (a : TaskLaunchAdmission) : TaskLaunchAdmission.ofJson a.toJson = some a := by
  have hothers : others TaskLaunchAdmission.named a.toJson = a.rest :=
    filter_others (by simp [TaskLaunchAdmission.named]) a.rest_named
  have hstatus : lookup "status" a.rest = none := lookup_rest a.rest_named (by decide)
  simp [TaskLaunchAdmission.ofJson, hothers]
  simp [TaskLaunchAdmission.toJson, textAt, hstatus]

theorem usage_ofJson_toJson (u : TokenUsage ν) : TokenUsage.ofJson num (u.toJson num) = u := by
  have hothers : others TokenUsage.named (u.toJson num) = u.rest :=
    filter_others (by simp [TokenUsage.named]) u.rest_named
  have hcost : lookup "costUsd" u.rest = none := lookup_rest u.rest_named (by decide)
  have hvalue : (((u.costUsd.map fun x => Json.num (num.lit x)).getD .null).asNum.bind fun n => num.value n.text) =
      u.costUsd := by
    cases u.costUsd with
    | none => rfl
    | some x => exact num.value_lit x
  unfold TokenUsage.ofJson
  congr 1
  · simp [TokenUsage.toJson, hcost, hvalue]

theorem members_named (t : Task ν) : ∀ m ∈ t.members num, m.1 ∈ Task.named := by
  have hopt : ∀ {k : String} {v : Option Json} {m : String × Json}, k ∈ Task.named → m ∈ opt k v → m.1 ∈ Task.named := by
    intro k v m hk hm
    obtain ⟨j, -, rfl⟩ := List.mem_map.1 hm
    exact hk
  intro m hm
  simp only [Task.members, List.mem_append, or_assoc] at hm
  rcases hm with hm | hm | hm | hm | hm | hm | hm
  · simp only [List.mem_cons, List.not_mem_nil, or_false] at hm
    rcases hm with rfl | rfl | rfl | rfl | rfl | rfl <;> simp [Task.named]
  all_goals exact hopt (by simp [Task.named]) hm

theorem hydrate_toJson (t : Task ν) : hydrateTaskFromPersistedJson num (t.toJson num) = some t := by
  have hothers : others Task.named (t.toJson num) = t.rest := filter_others (members_named num t) t.rest_named
  have hrest : ∀ k ∈ Task.named, lookup k t.rest = none := fun k hk => lookup_rest t.rest_named hk
  simp only [Task.named, List.forall_mem_cons, List.not_mem_nil, false_imp_iff, implies_true, and_true] at hrest
  have hread : ∀ k, (t.toJson num).get k = lookup k (t.members num ++ t.rest) := fun k => rfl
  have hid : textAt (t.toJson num) "id" = some t.id := by simp [textAt, hread, Task.members, hrest]
  have hcreated : dateAt (t.toJson num) "createdAt" = some t.createdAt := by
    simp [dateAt, textAt, hread, Task.members, hrest]
  have hupdated : dateAt (t.toJson num) "updatedAt" = some t.updatedAt := by
    simp [dateAt, textAt, hread, Task.members, hrest]
  have hsessions : ((arrayAt (t.toJson num) "sessions").getD []).mapM SessionInfo.ofJson = some t.sessions := by
    simp [arrayAt, hread, Task.members, hrest, mapM_map_roundtrip _ _ session_ofJson_toJson]
  have hagent : normalizeAgentType (textAt (t.toJson num) "agentType") = t.agentType := by
    simp [textAt, hread, Task.members, hrest]
  have hprovenance : (((t.toJson num).get "provenance").bind TaskProvenance.ofJson).getD UNKNOWN_PROVENANCE = t.provenance := by
    simp [hread, Task.members, hrest, provenance_ofJson_toJson]
  have hparent : textAt (t.toJson num) "parentTaskId" = t.parentTaskId := by
    simp [textAt, hread, Task.members, hrest]
  have hchildren : ((arrayAt (t.toJson num) "childTaskIds").bind fun items => items.mapM asStr) = t.childTaskIds := by
    cases hids : t.childTaskIds with
    | none => simp [arrayAt, hread, Task.members, hrest, hids]
    | some ids => simp [arrayAt, hread, Task.members, hrest, hids, mapM_map_roundtrip _ _ asStr_str]
  have hadmission : ((t.toJson num).get "launchAdmission").bind TaskLaunchAdmission.ofJson = t.launchAdmission := by
    cases ha : t.launchAdmission with
    | none => simp [hread, Task.members, hrest, ha]
    | some a => simp [hread, Task.members, hrest, ha, admission_ofJson_toJson]
  have husage : ((t.toJson num).get "tokenUsage").map (TokenUsage.ofJson num) = t.tokenUsage := by
    cases hu : t.tokenUsage with
    | none => simp [hread, Task.members, hrest, hu]
    | some u => simp [hread, Task.members, hrest, hu, usage_ofJson_toJson]
  have hfinished : dateAt (t.toJson num) "finishedAt" = t.finishedAt := by
    simp [dateAt, textAt, hread, Task.members, hrest]
  have hterminated : dateAt (t.toJson num) "terminatedAt" = t.terminatedAt := by
    simp [dateAt, textAt, hread, Task.members, hrest]
  unfold hydrateTaskFromPersistedJson
  rw [hid, Option.bind_eq_bind, Option.bind_some, dif_pos t.id_ne, hcreated, hupdated, hsessions]
  simp only [Option.bind_eq_bind, Option.bind_some, hagent, hprovenance, hparent, hchildren, hadmission, husage,
    hfinished, hterminated, hothers]
  rfl

theorem readTaskRow_data (t : Task ν) : TaskDatabase.readTaskRow num t.id (t.data num) = some t := by
  unfold TaskDatabase.readTaskRow Task.data
  rw [Json.parse_stringify, Option.bind_some, hydrate_toJson]
  simp

theorem readTaskRow_id {id : String} {data : List Char} {t : Task ν} (h : TaskDatabase.readTaskRow num id data = some t) :
    t.id = id := by
  simpa using (Option.filter_eq_some_iff.1 h).2

theorem evidence_ofJson_toJson (e : TaskRelationEvidence) : TaskRelationEvidence.ofJson e.toJson = some e := by
  simp [TaskRelationEvidence.ofJson, TaskRelationEvidence.toJson, textAt]

theorem parseRelation_data (r : TaskRelation ν) : parseRelation num (r.data num) = some r := by
  unfold parseRelation TaskRelation.data
  rw [Json.parse_stringify]
  simp [TaskRelation.toJson, textAt, arrayAt, num.value_lit, mapM_map_roundtrip _ _ evidence_ofJson_toJson]

end Kookr.Core

/-! What a flush does to the tables, and the marks of the store: the database says what the
store holds, but for what is marked. -/

namespace Kookr.Core

open Kookr.Lib Kookr.Lib.WriteBehind

variable {ν : Type} {num : NumberText ν}

namespace TaskDatabase

variable {db db' : TaskDatabase} {input : TaskSqliteFlushInput ν}

theorem foldl_deleteRow (ids : List String) (db : TaskDatabase) :
    ids.foldl (fun db id => { db with tasks := db.tasks.delete id }) db =
      { db with tasks := ids.foldl OrderedMap.delete db.tasks } := by
  induction ids generalizing db with
  | nil => rfl
  | cons id ids ih => rw [List.foldl_cons, ih, List.foldl_cons]

theorem foldl_upsertTaskRow (tasks : List (Task ν)) (db : TaskDatabase) : tasks.foldl (upsertTaskRow num) db =
      { db with tasks := tasks.foldl (fun table t => table.set t.id (t.data num)) db.tasks } := by
  induction tasks generalizing db with
  | nil => rfl
  | cons t tasks ih =>
    rw [List.foldl_cons, ih]
    rfl

/-- The columns of the primary key. -/
def relationColumns (rel : TaskRelation ν) : String × String × String :=
  (rel.sourceTaskId, rel.targetTaskId, rel.type.text)

theorem foldl_upsertRelationRow (rels : List (TaskRelation ν)) (db : TaskDatabase) : rels.foldl (upsertRelationRow num) db =
      { db with task_relations :=
          rels.foldl (fun table rel => table.set (relationColumns rel) (rel.data num)) db.task_relations } := by
  induction rels generalizing db with
  | nil => rfl
  | cons rel rels ih =>
    rw [List.foldl_cons, ih]
    rfl

/-- What a transaction that goes through has written. -/
structure Flushed (num : NumberText ν) (db : TaskDatabase) (input : TaskSqliteFlushInput ν) (db' : TaskDatabase) : Prop where
  tasks : db'.tasks = WriteBehind.flush Task.id (Task.data num) db.tasks input.deletedTaskIds input.tasks
  relations : db'.task_relations =
    if input.replaceRelations then
      (input.relations.map fun rels =>
        rels.foldl (fun table rel => table.set (relationColumns rel) (rel.data num)) .empty).getD db.task_relations
    else db.task_relations
  spend : db'.store_meta.get "lifetime_spend_usd" =
    (input.lifetimeSpendUsd.map fun x => (num.lit x).text).or (db.store_meta.get "lifetime_spend_usd")

theorem keeps_replaced {β γ : Type} (g : TaskDatabase → γ) (replace : TaskDatabase → β → TaskDatabase)
    (hkeeps : ∀ db x, g (replace db x) = g db) {x? : Option β} {db : TaskDatabase} : g ((x?.map (replace db)).getD db) = g db := by
  cases x? with
  | none => rfl
  | some x => exact hkeeps db x

theorem flushed (h : db.flush num input = some db') : Flushed num db input db' := by
  unfold flush at h
  simp only [foldl_deleteRow, foldl_upsertTaskRow, foldl_upsertRelationRow] at h
  split at h
  · cases h
    refine ⟨?_, ?_, ?_⟩
    · refine (keeps_replaced tasks replaceSuppression fun _ _ => rfl).trans ?_
      refine (keeps_replaced tasks replaceSnoozes fun _ _ => rfl).trans ?_
      cases input.lifetimeSpendUsd <;> cases input.relations <;> cases input.replaceRelations <;> rfl
    · refine (keeps_replaced task_relations replaceSuppression fun _ _ => rfl).trans ?_
      refine (keeps_replaced task_relations replaceSnoozes fun _ _ => rfl).trans ?_
      cases input.lifetimeSpendUsd <;> cases input.relations <;> cases input.replaceRelations <;> rfl
    · refine (OrderedMap.get_set_of_ne _ _ (by decide)).trans ?_
      rw [keeps_replaced store_meta replaceSuppression fun _ _ => rfl, keeps_replaced store_meta replaceSnoozes fun _ _ => rfl]
      cases input.lifetimeSpendUsd <;> cases input.relations <;> cases input.replaceRelations <;> simp
  · cases h

theorem relationColumns_injOn {rel rel' : TaskRelation ν} (h : relationColumns rel = relationColumns rel') :
    rel.key = rel'.key := by
  simp only [relationColumns, Prod.mk.injEq] at h
  have htype : rel.type = rel'.type := by
    have hread := congrArg TaskRelationType.ofText h.2.2
    rwa [relationType_ofText_text, relationType_ofText_text, Option.some.injEq] at hread
  simp [TaskRelation.key, taskRelationKey, h.1, h.2.1, htype]

theorem flush_eq_none (h : db.flush num input = none) : ¬ ((input.suppressionState.getD []).map Prod.fst).Nodup := by
  unfold flush at h
  dsimp only at h
  split at h
  · cases h
  · assumption

theorem relations_reload {rels : List (TaskRelation ν)} (hnodup : (rels.map TaskRelation.key).Nodup) :
    (rels.foldl (fun table rel => table.set (relationColumns rel) (rel.data num)) OrderedMap.empty).values.filterMap
      (parseRelation num) = rels := by
  have hcolumns : (rels.map relationColumns).Nodup := by
    rw [List.nodup_map_iff_inj_on hnodup.of_map]
    intro rel hrel rel' hrel' heq
    exact List.inj_on_of_nodup_map hnodup hrel hrel' (relationColumns_injOn heq)
  rw [OrderedMap.values, OrderedMap.entries_foldl_set _ _ hcolumns (fun _ _ => List.not_mem_nil)]
  have hvalues : ((OrderedMap.empty : OrderedMap (String × String × String) (List Char)).entries ++
      rels.map fun rel => (relationColumns rel, rel.data num)).map Prod.snd = rels.map (TaskRelation.data num) := by
    rw [List.map_append, List.map_map]
    rfl
  rw [hvalues, List.filterMap_map]
  have hread : parseRelation num ∘ TaskRelation.data num = some := funext fun rel => parseRelation_data num rel
  rw [hread, List.filterMap_some]

end TaskDatabase

section Marks

open TaskDatabase

variable [Zero ν] {s s' : TaskStore ν} {db : TaskDatabase} {now : Timestamp}

/-- The database says what the store holds, but for what is marked. -/
structure Covers (num : NumberText ν) (s : TaskStore ν) (db : TaskDatabase) : Prop where
  tasks : Tracked (readTaskRow num) s.tasks db.tasks s.dirtyTaskIds s.deletedTaskIds
  relations : s.relationsDirty = false → (loadAll num db).1.relations = s.listRelations
  spend : s.metaDirty = false → (loadAll num db).1.lifetimeSpendUsd = s.lifetimeSpendUsd

section

variable (h : Covers num s db)
include h

theorem Covers.setTask (task : Task ν) : Covers num (s.setTask task) db :=
  ⟨h.tasks.set task.id task, h.relations, h.spend⟩

theorem Covers.removeTask (id : String) : Covers num (s.removeTask id) db :=
  ⟨h.tasks.delete id, h.relations, h.spend⟩

theorem Covers.setRelation (rel : TaskRelation ν) : Covers num (s.setRelation rel) db :=
  ⟨h.tasks, nofun, h.spend⟩

theorem Covers.dropRelations (id : String) : Covers num (s.dropRelations id) db := by
  refine ⟨h.tasks, ?_, h.spend⟩
  intro hclean
  obtain ⟨hdirty, hdropped⟩ := Bool.or_eq_false_iff.1 hclean
  rw [h.relations hdirty]
  have hkept : s.relations.filter (fun _ rel => ¬ (rel.sourceTaskId = id ∨ rel.targetTaskId = id)) = s.relations := by
    refine OrderedMap.filter_eq_self _ _ fun e he => ?_
    have hvalue := List.any_eq_false.1 hdropped e.2 (List.mem_map.2 ⟨e, he, rfl⟩)
    simpa using hvalue
  unfold TaskStore.listRelations TaskStore.dropRelations
  dsimp only
  rw [hkept]

theorem Covers.getTaskForMutation {id : String} {mutator : Task ν → Task ν}
    (hs : s.getTaskForMutation id mutator = some s') : Covers num s' db := by
  obtain ⟨task, -, rfl⟩ := Option.map_eq_some_iff.1 hs
  exact h.setTask _

theorem Covers.deleteTask {id : String} (hs : s.deleteTask id now = some s') : Covers num s' db := by
  unfold TaskStore.deleteTask at hs
  split at hs
  · cases hs
  · rename_i task htask
    split at hs
    · cases hs
    · cases hs
      refine ((?_ : Covers num _ db).removeTask id).dropRelations id
      -- the parent, where it lists the child, is written as well
      cases hlink : task.parentTaskId.bind fun parentTaskId =>
          (s.tasks.get parentTaskId).bind fun parent => parent.childTaskIds.bind fun childTaskIds =>
            s.getTaskForMutation parentTaskId fun parent =>
              { parent with childTaskIds := some (childTaskIds.filter fun cid => cid ≠ id), updatedAt := now } with
      | none => exact h
      | some unlinked =>
        obtain ⟨parentTaskId, -, hparent⟩ := Option.bind_eq_some_iff.1 hlink
        obtain ⟨parent, -, hchildren⟩ := Option.bind_eq_some_iff.1 hparent
        obtain ⟨childTaskIds, -, hmutate⟩ := Option.bind_eq_some_iff.1 hchildren
        exact h.getTaskForMutation hmutate

theorem Covers.markAll (hgone : ∀ id ∈ s.deletedTaskIds, db.tasks.get id = none) :
    Covers num s.markAllDirtyForPersistence db ∧ Covers num s.drainDirtyState.2.markAllDirtyForPersistence db := by
  have hread : ∀ id ∈ s.deletedTaskIds, (db.tasks.get id).bind (readTaskRow num id) = none := by
    intro id hid
    rw [hgone id hid]
    rfl
  exact ⟨⟨h.tasks.markAll hread h.tasks.live, nofun, nofun⟩, ⟨h.tasks.markAll hread nofun, nofun, nofun⟩⟩

end

theorem Covers.updateTokenUsage [Sub ν] [Add ν] [LE ν] [DecidableLE ν] (h : Covers num s db) {taskId : String} {usage : TokenUsage ν}
    (hs : s.updateTokenUsage taskId usage now = some s') : Covers num s' db := by
  obtain ⟨task, -, rfl⟩ := Option.map_eq_some_iff.1 hs
  refine Covers.setTask ?_ _
  split
  · split
    · exact ⟨h.tasks, h.relations, nofun⟩
    · exact h
  · exact h

variable [One ν] [LE ν] [DecidableLE ν]

theorem Covers.upsertRelation (h : Covers num s db) {input : TaskRelationInput ν} {uuid nowIso : String}
    (hs : s.upsertRelation input uuid nowIso = some s') : Covers num s' db := by
  unfold TaskStore.upsertRelation at hs
  split at hs
  · cases hs
  · split at hs
    · cases hs
      exact h.setRelation _
    · cases hs
      exact h.setRelation _

theorem Covers.createTask (h : Covers num s db) {opts : CreateTaskOptions} {id : String} {id_ne : id ≠ ""}
    {relationId : String} (hs : s.createTask opts id id_ne relationId now = some s') : Covers num s' db := by
  unfold TaskStore.createTask at hs
  split at hs
  · cases hs
    exact h.setTask _
  · split at hs
    · obtain ⟨s₁, h₁, h₂⟩ := Option.bind_eq_some_iff.1 hs
      exact ((h.setTask _).getTaskForMutation h₁).upsertRelation h₂
    · cases hs

end Marks

end Kookr.Core
