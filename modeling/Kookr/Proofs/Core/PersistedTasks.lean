import Kookr.Sanity.Core.TaskRows

/-! After a write that succeeds the database holds what the store holds, unless an earlier write
was forced or failed while the row of a deleted task was still to go: such a write forgets the
deletion, and the row stays. -/

namespace Kookr.Core

open Kookr.Lib Kookr.Lib.WriteBehind TaskDatabase NumberText Option OrderedMap

variable {ν : Type} {num : NumberText ν} [Zero ν]

/-- Reading the database gives the tasks, the relations and the lifetime spend of the store. -/
def Converged (num : NumberText ν) (r : PersistRun ν) : Prop :=
  let loaded := (loadAll num r.db).1
  loaded.tasks.Perm r.store.viewTasks ∧ loaded.relations = r.store.listRelations ∧
    loaded.lifetimeSpendUsd = r.store.lifetimeSpendUsd

/-- As a store is that has just been read from its database: nothing waits to be written. -/
structure InSync (num : NumberText ν) (r : PersistRun ν) : Prop where
  clean : r.store.drainDirtyState.1 = ⟨[], [], false, false⟩
  converged : Converged num r

/-- A write that is forced or fails leaves no row of a deleted task behind. -/
def KeepsDeletions (r : PersistRun ν) : PersistRun.Action ν → Prop
  | .persist opts flushFails =>
    opts.forceFull ∨ flushFails ∨ ¬ ((opts.suppressionState.getD []).map Prod.fst).Nodup →
      ∀ id ∈ r.store.deletedTaskIds, r.db.tasks.get id = none
  | _ => True

instance KeepsDeletions.decidable : (r : PersistRun ν) → (a : PersistRun.Action ν) → Decidable (KeepsDeletions r a)
  | r, .persist opts flushFails => inferInstanceAs (Decidable
      (opts.forceFull ∨ flushFails ∨ ¬ ((opts.suppressionState.getD []).map Prod.fst).Nodup →
        ∀ id ∈ r.store.deletedTaskIds, r.db.tasks.get id = none))
  | _, .createTask .. => isTrue trivial
  | _, .deleteTask .. => isTrue trivial
  | _, .mutateTask .. => isTrue trivial
  | _, .updateTokenUsage .. => isTrue trivial
  | _, .upsertRelation .. => isTrue trivial

variable {s : TaskStore ν} {db : TaskDatabase} {opts : PersistTaskStateOptions} {flushFails : Bool}

omit [Zero ν] in
theorem dirtyTasks_mem {t : Task ν} :
    t ∈ s.dirtyTaskIds.filterMap (rowAt Task.id s.viewTasks) ↔ t.id ∈ s.dirtyTaskIds ∧ s.tasks.get t.id = some t := by
  have hnodup : (s.viewTasks.map Task.id).Nodup := by
    unfold TaskStore.viewTasks
    rw [values_map_eq_keys s.tasks Task.id s.tasks_keyed]
    exact s.tasks.nodup_keys
  rw [List.mem_filterMap]
  constructor
  · rintro ⟨id, hid, hrow⟩
    obtain ⟨hmem, rfl⟩ := rowAt_mem hrow
    obtain ⟨id, hget⟩ := (mem_values_iff s.tasks t).1 hmem
    refine ⟨hid, ?_⟩
    rwa [s.tasks_keyed id t hget]
  · rintro ⟨hid, hget⟩
    refine ⟨t.id, hid, rowAt_of_mem hnodup ?_⟩
    exact (mem_values_iff s.tasks t).2 ⟨t.id, hget⟩

theorem Covers.converged (h : Covers num s.drainDirtyState.2 db) (persisted : Bool) :
    Converged num ⟨s.drainDirtyState.2, db, persisted⟩ := by
  refine ⟨?_, h.relations rfl, h.spend rfl⟩
  exact Tracked.readAll_perm (fun _ _ _ hread => readTaskRow_id num hread) h.tasks s.tasks_keyed

theorem Covers.drain (h : Covers num s db) (htasks : s.dirtyTaskIds.filterMap (rowAt Task.id s.viewTasks) = [])
    (hdeleted : s.deletedTaskIds = []) (hrelations : s.relationsDirty = false) (hmeta : s.metaDirty = false) :
    Covers num s.drainDirtyState.2 db := by
  have hdirty : s.dirtyTaskIds = [] := by
    refine List.eq_nil_iff_forall_not_mem.2 fun id hid => ?_
    obtain ⟨t, ht⟩ := isSome_iff_exists.1 ((get_isSome_iff s.tasks id).2 (h.tasks.live id hid))
    obtain rfl := s.tasks_keyed id t ht
    have hmem := dirtyTasks_mem.2 ⟨hid, ht⟩
    rw [htasks] at hmem
    cases hmem
  have htracked := h.tasks
  rw [hdirty, hdeleted] at htracked
  exact ⟨htracked, fun _ => h.relations hrelations, fun _ => h.spend hmeta⟩

theorem Covers.flushed (h : Covers num s db) {db' : TaskDatabase}
    (hflushed : Flushed num db (flushInput s.drainDirtyState.2 s.drainDirtyState.1 opts) db') :
    Covers num s.drainDirtyState.2 db' := by
  refine ⟨?_, fun _ => ?_, fun _ => ?_⟩
  · rw [hflushed.tasks]
    refine h.tasks.flush (readTaskRow_data num) (fun t ht => (dirtyTasks_mem.1 ht).2) fun id hid => ?_
    obtain ⟨t, ht⟩ := isSome_iff_exists.1 ((get_isSome_iff s.tasks id).2 (h.tasks.live id hid))
    obtain rfl := s.tasks_keyed id t ht
    exact ⟨t, dirtyTasks_mem.2 ⟨hid, ht⟩, rfl⟩
  · show db'.task_relations.values.filterMap (parseRelation num) = s.listRelations
    have hreplace : (flushInput s.drainDirtyState.2 s.drainDirtyState.1 opts).replaceRelations =
        (s.relationsDirty || opts.forceFull) := rfl
    have hlist : (flushInput s.drainDirtyState.2 s.drainDirtyState.1 opts).relations =
        if (s.relationsDirty || opts.forceFull) = true then some s.listRelations else none := rfl
    by_cases hwrite : (s.relationsDirty || opts.forceFull) = true
    · rw [if_pos hwrite] at hlist
      rw [hflushed.relations, if_pos (hreplace.trans hwrite), hlist]
      refine relations_reload ?_
      unfold TaskStore.listRelations
      rw [values_map_eq_keys s.relations TaskRelation.key s.relations_keyed]
      exact s.relations.nodup_keys
    · rw [hflushed.relations, if_neg (fun heq => hwrite (hreplace.symm.trans heq))]
      rw [Bool.not_eq_true] at hwrite
      exact h.relations (Bool.or_eq_false_iff.1 hwrite).1
  · show ((db'.store_meta.get "lifetime_spend_usd").bind num.value).getD 0 = s.lifetimeSpendUsd
    have hspend : (flushInput s.drainDirtyState.2 s.drainDirtyState.1 opts).lifetimeSpendUsd =
        if (s.metaDirty || opts.forceFull) = true then some s.lifetimeSpendUsd else none := rfl
    by_cases hwrite : (s.metaDirty || opts.forceFull) = true
    · rw [if_pos hwrite] at hspend
      rw [hflushed.spend, hspend, map_some, some_or, bind_some, num.value_lit, getD_some]
    · rw [if_neg hwrite] at hspend
      rw [hflushed.spend, hspend, map_none]
      rw [Bool.not_eq_true] at hwrite
      exact h.spend (Bool.or_eq_false_iff.1 hwrite).1

theorem Covers.persist (h : Covers num s db)
    (hkeeps : opts.forceFull ∨ flushFails ∨ ¬ ((opts.suppressionState.getD []).map Prod.fst).Nodup →
      ∀ id ∈ s.deletedTaskIds, db.tasks.get id = none) {s' : TaskStore ν} {db' : TaskDatabase} {ok : Bool}
    (hcall : persistTaskState num s db opts flushFails = (s', db', ok)) :
    Covers num s' db' ∧ (ok = true → Converged num ⟨s', db', ok⟩) := by
  unfold persistTaskState at hcall
  -- a forced write first marks everything, and forgets the deletions
  generalize hmarked : (if opts.forceFull = true then s.markAllDirtyForPersistence else s) = s₀ at hcall
  have hs₀ : Covers num s₀ db ∧ (flushFails ∨ ¬ ((opts.suppressionState.getD []).map Prod.fst).Nodup →
      ∀ id ∈ s₀.deletedTaskIds, db.tasks.get id = none) := by
    split at hmarked
    · rename_i hforce
      obtain rfl := hmarked
      exact ⟨(h.markAll (hkeeps (.inl hforce))).1, fun _ => nofun⟩
    · obtain rfl := hmarked
      exact ⟨h, fun hfails => hkeeps (.inr hfails)⟩
  obtain ⟨hcovers, hgone⟩ := hs₀
  dsimp only at hcall
  split at hcall
  · split at hcall
    · rename_i db₁ hflush
      cases hcall
      have hdb : db.flush num (flushInput s₀.drainDirtyState.2 s₀.drainDirtyState.1 opts) = some db' := by
        split at hflush
        · cases hflush
        · exact hflush
      have hclean := hcovers.flushed (TaskDatabase.flushed hdb)
      exact ⟨hclean, fun _ => hclean.converged true⟩
    · rename_i hflush
      cases hcall
      refine ⟨(hcovers.markAll (hgone ?_)).2, nofun⟩
      split at hflush
      · rename_i hfails
        exact .inl hfails
      · exact .inr (flush_eq_none hflush)
  · rename_i hidle
    cases hcall
    unfold hasWork at hidle
    simp only [Bool.or_eq_true, Bool.not_eq_true', not_or, Bool.not_eq_true, Bool.not_eq_false, List.isEmpty_iff] at hidle
    obtain ⟨⟨⟨⟨⟨⟨htasks, hdeleted⟩, hrelations⟩, hmeta⟩, -⟩, -⟩, -⟩ := hidle
    have hclean : Covers num s₀.drainDirtyState.2 db := hcovers.drain htasks hdeleted hrelations hmeta
    exact ⟨hclean, fun _ => hclean.converged true⟩

namespace PersistRun

variable [One ν] [Sub ν] [Add ν] [LE ν] [DecidableLE ν] {r r' : PersistRun ν} {a : Action ν}

/-- The database covers the store, and after a write that succeeded it holds it. -/
structure RunOk (num : NumberText ν) (r : PersistRun ν) : Prop where
  covers : Covers num r.store r.db
  converged : r.persisted = true → Converged num r

theorem RunOk.step (h : RunOk num r) (hkeeps : KeepsDeletions r a) (hstep : step num r a = some r') : RunOk num r' := by
  cases a with
  | createTask opts id id_ne relationId now =>
    obtain ⟨store, hs, rfl⟩ := map_eq_some_iff.1 hstep
    exact ⟨h.covers.createTask hs, nofun⟩
  | deleteTask id now =>
    obtain ⟨store, hs, rfl⟩ := map_eq_some_iff.1 hstep
    exact ⟨h.covers.deleteTask hs, nofun⟩
  | mutateTask id mutator =>
    obtain ⟨store, hs, rfl⟩ := map_eq_some_iff.1 hstep
    exact ⟨h.covers.getTaskForMutation hs, nofun⟩
  | updateTokenUsage taskId usage now =>
    obtain ⟨store, hs, rfl⟩ := map_eq_some_iff.1 hstep
    exact ⟨h.covers.updateTokenUsage hs, nofun⟩
  | upsertRelation input uuid nowIso =>
    obtain ⟨store, hs, rfl⟩ := map_eq_some_iff.1 hstep
    exact ⟨h.covers.upsertRelation hs, nofun⟩
  | persist opts flushFails =>
    cases hstep
    have hcall : persistTaskState num r.store r.db opts flushFails =
        ((persistTaskState num r.store r.db opts flushFails).1, (persistTaskState num r.store r.db opts flushFails).2.1,
          (persistTaskState num r.store r.db opts flushFails).2.2) := rfl
    have hpersist := h.covers.persist hkeeps hcall
    exact ⟨hpersist.1, hpersist.2⟩

omit [One ν] [Sub ν] [Add ν] [LE ν] [DecidableLE ν] in
theorem InSync.covers (h : InSync num r) : Covers num r.store r.db := by
  have hclean : (⟨r.store.dirtyTaskIds, r.store.deletedTaskIds, r.store.relationsDirty, r.store.metaDirty⟩ : DirtyState) =
      ⟨[], [], false, false⟩ := h.clean
  rw [DirtyState.mk.injEq] at hclean
  obtain ⟨hdirty, hdeleted, -, -⟩ := hclean
  refine ⟨?_, fun _ => h.converged.2.1, fun _ => h.converged.2.2⟩
  rw [hdirty, hdeleted]
  exact tracked_of_perm (fun _ _ _ hread => readTaskRow_id num hread) h.converged.1 r.store.tasks_keyed

theorem persisted_converges {actions : List (Action ν)} (hsync : InSync num r)
    (hkeeps : StepsMeet (PersistRun.step num) KeepsDeletions r actions)
    (hrun : exec (PersistRun.step num) r actions = some r') (hpersisted : r'.persisted = true) : Converged num r' := by
  have hok : RunOk num r' := exec_invariant (fun _ _ _ h hk hstep => h.step hk hstep)
    ⟨InSync.covers hsync, fun _ => hsync.converged⟩ hkeeps hrun
  exact hok.converged hpersisted

end PersistRun

theorem inSync_fresh (num : NumberText ν) : InSync num (.fresh num) := by
  refine ⟨rfl, List.Perm.nil, rfl, ?_⟩
  show ((some (num.lit 0).text).bind num.value).getD 0 = 0
  rw [bind_some, num.value_lit, getD_some]

namespace PersistRun

def someTask : CreateTaskOptions := ⟨none, none, none, none, none, [], nofun⟩

def epoch : Timestamp := .epoch

def taskA : Task ℤ where
  id := "a"
  id_ne := by decide
  agentType := .claudeCode
  provenance := UNKNOWN_PROVENANCE
  parentTaskId := none
  childTaskIds := none
  sessions := []
  launchAdmission := none
  tokenUsage := none
  createdAt := epoch
  updatedAt := epoch
  finishedAt := none
  terminatedAt := none
  rest := []
  rest_named := nofun

def createA : Action ℤ := .createTask someTask "a" (by decide) "r" epoch

def plainWrite : Action ℤ := .persist ⟨none, none, false⟩ false

def forcedWrite : Action ℤ := .persist ⟨none, none, true⟩ false

def failedWrite : Action ℤ := .persist ⟨none, none, false⟩ true

def writtenRun : List (Action ℤ) := [createA, plainWrite, .deleteTask "a" epoch, plainWrite, forcedWrite]

theorem persisted_converges_writtenRun : ∃ r, exec (step int) (fresh int) writtenRun = some r ∧
    r.store.viewTasks = [] ∧ Converged int r := by
  have hkeeps : StepsMeet (step int) KeepsDeletions (fresh int) writtenRun := by decide +kernel
  exact ⟨_, rfl, rfl, persisted_converges (inSync_fresh int) hkeeps rfl rfl⟩

/-- The row of the deleted task is there after the write that is forced, and after the write
that follows one that failed. -/
theorem deleted_row_comes_back : (∃ r, exec (step int) (fresh int) [createA, plainWrite, .deleteTask "a" epoch, forcedWrite] =
        some r ∧ r.persisted = true ∧ ¬ Converged int r) ∧ ∃ r, exec (step int) (fresh int)
        [createA, plainWrite, .deleteTask "a" epoch, failedWrite, plainWrite] = some r ∧
        r.persisted = true ∧ ¬ Converged int r := by
  have hrow : ∀ r : PersistRun ℤ, r.store.viewTasks = [] →
      r.db.tasks.get taskA.id = some (taskA.data int) → ¬ Converged int r := by
    intro r hempty hrow hconv
    have hmem : taskA ∈ (loadAll int r.db).1.tasks := mem_readAll.2 ⟨taskA.id, by
      rw [hrow, bind_some, readTaskRow_data]⟩
    have hview := hconv.1.mem_iff.1 hmem
    rw [hempty] at hview
    cases hview
  exact ⟨⟨_, rfl, rfl, hrow _ rfl rfl⟩, ⟨_, rfl, rfl, hrow _ rfl rfl⟩⟩

end PersistRun

end Kookr.Core
