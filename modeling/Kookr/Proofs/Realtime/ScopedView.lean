import Kookr.Sanity.Realtime.ViewRows

/-! A viewer of some projects is sent the fleet's delta, scoped from the previous rows.
Its view becomes the scoped view of the next snapshot unless a row leaves the projects
under its key, the unchanged relations of the fleet come into or fall out of scope, or a
task is counted in or out by the rows that left it. -/

namespace Kookr.Realtime

open Kookr.Lib List Option

variable {projectIds : List String} {S S' : SnapshotMessage} {δ : DeltaMessage}

/-- A task in scope that lost a row, with nothing new in scope to name it again. -/
def Dropped (projectIds : List String) (S S' : SnapshotMessage) (task : String) : Prop :=
  (∃ b ∈ S.agents, inScope projectIds b = true ∧ taskOf b = some task ∧
    agentStreamKey b ∉ S'.agents.map agentStreamKey) ∧
  ∀ a ∈ S'.agents, inScope projectIds a = true → taskOf a = some task → a ∈ S.agents

/-- A task whose rows in scope all kept their keys, and that is in scope no longer. -/
def Lingers (projectIds : List String) (S S' : SnapshotMessage) (task : String) : Prop :=
  task ∈ scopedTasks projectIds S.agents ∧ task ∉ scopedTasks projectIds S'.agents ∧
  ∀ b ∈ S.agents, inScope projectIds b = true → taskOf b = some task →
    agentStreamKey b ∈ S'.agents.map agentStreamKey

/-- The task is one of those whose edges the viewer is sent. -/
def Tracked (projectIds : List String) (S S' : SnapshotMessage) (task : String) : Prop :=
  task ∈ scopedTasks projectIds S'.agents ∧ ¬ Dropped projectIds S S' task ∨ Lingers projectIds S S' task

/-- What must hold of two snapshots for the scoped delta to lead from one to the other. -/
structure ScopeStable (projectIds : List String) (S S' : SnapshotMessage) : Prop where
  rows : ∀ b ∈ S.agents, ∀ a ∈ S'.agents, agentStreamKey a = agentStreamKey b →
    inScope projectIds b = true → inScope projectIds a = true
  unsent : S.taskRelations = S'.taskRelations → ∀ rel ∈ S'.taskRelations.getD [],
    edgeAmong (scopedTasks projectIds S.agents) rel = edgeAmong (scopedTasks projectIds S'.agents) rel
  sent : S.taskRelations ≠ S'.taskRelations → ∀ rel ∈ S'.taskRelations.getD [],
    (Tracked projectIds S S' rel.sourceTaskId ∧ Tracked projectIds S S' rel.targetTaskId ↔
      edgeAmong (scopedTasks projectIds S'.agents) rel = true)

theorem rowOf_filter {agents : List AgentState} (hn : DistinctKeys agents) (p : AgentState → Bool)
    (key : String) : rowOf (agents.filter p) key = (rowOf agents key).filter p := by
  have hn' : DistinctKeys (agents.filter p) := hn.sublist (filter_sublist.map agentStreamKey)
  apply ext
  intro a
  rw [rowOf, rowAt_eq_some_iff hn', mem_filter, filter_eq_some_iff, rowOf, rowAt_eq_some_iff hn]
  exact and_right_comm

/-- The rows and keys of a delta, which it leaves out where there are none. -/
theorem Built.parts (hδ : Built S S' δ) :
    (δ.agents.map AgentDelta.upserts).getD [] = (diffProjectedAgents S.agents S'.agents).upserts ∧
      (δ.agents.map AgentDelta.removed).getD [] = (diffProjectedAgents S.agents S'.agents).removed := by
  rw [← hδ.agents]
  cases δ.agents <;> exact ⟨rfl, rfl⟩

theorem scoped_agents (hδ : Built S S' δ) : (scopeDeltaForProjects δ S.agents projectIds).agents.getD ⟨[], []⟩ =
      ⟨(diffProjectedAgents S.agents S'.agents).upserts.filter (inScope projectIds),
        (diffProjectedAgents S.agents S'.agents).removed.filter fun key => (rowOf S.agents key).any (inScope projectIds)⟩ := by
  unfold scopeDeltaForProjects
  dsimp only
  rw [hδ.parts.1, hδ.parts.2]
  split
  · rfl
  · rename_i hnone
    simp only [Bool.or_eq_true, Bool.not_eq_true', not_or, Bool.not_eq_false, List.isEmpty_iff] at hnone
    obtain ⟨hup, hrem⟩ := hnone
    rw [hup]
    exact congrArg (AgentDelta.mk []) hrem.symm

/-- Under one key, the scoped delta is wrong only about a row that leaves the scope. -/
theorem scoped_row_iff (hS : DistinctKeys S.agents) (hS' : DistinctKeys S'.agents) (hδ : Built S S' δ) (key : String) :
    ((scopedView projectIds S).apply (scopeDeltaForProjects δ S.agents projectIds)).row key = (scopedView projectIds S').row key ↔
      ∀ b a, rowOf S.agents key = some b → rowOf S'.agents key = some a →
        inScope projectIds b = true → inScope projectIds a = true := by
  have hup : DistinctKeys (diffProjectedAgents S.agents S'.agents).upserts := upserts_nodup hS'
  simp only [View.apply, scoped_agents hδ, View.applyRows, scopedView, rowOf_filter hS, rowOf_filter hS',
    rowOf_filter hup, mem_filter]
  by_cases hsame : rowOf S'.agents key = rowOf S.agents key
  · obtain ⟨hnone, hrem⟩ := diff_unchanged hS hS' hsame
    rw [hnone, if_neg fun h => hrem h.1, hsame, filter_none]
    refine ⟨fun _ b a hb ha => ?_, fun _ => rfl⟩
    rw [some.inj (hb.symm.trans ha)]
    exact id
  · cases h' : rowOf S'.agents key with
    | none =>
      obtain ⟨hnone, hrem⟩ := diff_removed hS hS' h' fun h => hsame (h'.trans h.symm)
      rw [hnone, filter_none]
      refine ⟨fun _ b a _ ha => absurd ha (by simp), fun _ => ?_⟩
      cases h : rowOf S.agents key with
      | none => simp
      | some b => by_cases hb : inScope projectIds b = true <;> simp [hrem, hb]
    | some a =>
      obtain ⟨hsome, hrem⟩ := diff_sent hS hS' h' fun h => hsame (h'.trans h.symm)
      rw [hsome, if_neg fun h => hrem h.1]
      by_cases ha : inScope projectIds a = true
      · simp [filter_some, ha]
      · cases h : rowOf S.agents key with
        | none => simp [filter_some, ha]
        | some b => by_cases hb : inScope projectIds b = true <;> simp [filter_some, ha, hb]

theorem scoped_rows_iff (hS : DistinctKeys S.agents) (hS' : DistinctKeys S'.agents) (hδ : Built S S' δ) :
    ((scopedView projectIds S).apply (scopeDeltaForProjects δ S.agents projectIds)).row = (scopedView projectIds S').row ↔
      ∀ b ∈ S.agents, ∀ a ∈ S'.agents, agentStreamKey a = agentStreamKey b →
        inScope projectIds b = true → inScope projectIds a = true := by
  rw [funext_iff]
  simp only [scoped_row_iff hS hS' hδ]
  constructor
  · intro h b hb a ha hkey
    have ha' := (mem_iff_rowOf hS').1 ha
    rw [hkey] at ha'
    exact h _ b a ((mem_iff_rowOf hS).1 hb) ha'
  · intro h key b a hb ha
    obtain ⟨hmem, hkey⟩ := rowAt_mem hb
    obtain ⟨hmem', hkey'⟩ := rowAt_mem ha
    exact h b hmem a hmem' (hkey'.trans hkey.symm)

theorem mem_scopedTasks {agents : List AgentState} {task : String} :
    task ∈ scopedTasks projectIds agents ↔ ∃ a ∈ agents, inScope projectIds a = true ∧ taskOf a = some task := by
  simp only [scopedTasks, mem_filterMap, mem_filter, and_assoc]

/-- What the loop over the removed keys leaves of the tasks. -/
theorem mem_foldl_removed (row : String → Option AgentState) (removed : List String) (tasks : List String)
    {task : String} :
    task ∈ removed.foldl (fun tasks key =>
        match (row key).bind taskOf with
        | some removedTask => tasks.filter fun t => decide (t ≠ removedTask)
        | none => tasks) tasks ↔
      task ∈ tasks ∧ ∀ key ∈ removed, (row key).bind taskOf ≠ some task := by
  induction removed generalizing tasks with
  | nil => simp
  | cons key removed ih =>
    rw [foldl_cons, ih, forall_mem_cons, ← and_assoc]
    cases (row key).bind taskOf with
    | none => simp
    | some removedTask =>
      rw [mem_filter, decide_eq_true_eq, Ne, Ne, some.injEq, eq_comm (a := task)]

theorem mem_inScopeTaskIds (hS : DistinctKeys S.agents) {task : String} : task ∈ inScopeTaskIds S.agents projectIds
        ((diffProjectedAgents S.agents S'.agents).upserts.filter (inScope projectIds))
        ((diffProjectedAgents S.agents S'.agents).removed.filter fun key => (rowOf S.agents key).any (inScope projectIds)) ↔
      Tracked projectIds S S' task := by
  have hnew : task ∈ ((diffProjectedAgents S.agents S'.agents).upserts.filter (inScope projectIds)).filterMap taskOf ↔
      ∃ a ∈ S'.agents, a ∉ S.agents ∧ inScope projectIds a = true ∧ taskOf a = some task := by
    simp only [mem_filterMap, mem_filter, mem_upserts hS, and_assoc]
  -- no row in scope left the task
  have hkept : (∀ key ∈ (diffProjectedAgents S.agents S'.agents).removed.filter fun key =>
      (rowOf S.agents key).any (inScope projectIds), (rowOf S.agents key).bind taskOf ≠ some task) ↔
      ∀ b ∈ S.agents, inScope projectIds b = true → taskOf b = some task →
        agentStreamKey b ∈ S'.agents.map agentStreamKey := by
    constructor
    · intro h b hb hscope htask
      by_contra hgone
      have hrow := (mem_iff_rowOf hS).1 hb
      refine h (agentStreamKey b) ?_ (by rw [hrow]; exact htask)
      rw [mem_filter, mem_removed hS, hrow]
      exact ⟨⟨mem_map.2 ⟨b, hb, rfl⟩, hgone⟩, hscope⟩
    · intro h key hkey htask
      rw [mem_filter, mem_removed hS] at hkey
      obtain ⟨⟨-, hgone⟩, hany⟩ := hkey
      obtain ⟨b, hb, hbtask⟩ := bind_eq_some_iff.1 htask
      rw [hb] at hany
      obtain ⟨hmem, rfl⟩ := rowAt_mem hb
      exact hgone (h b hmem hany hbtask)
  have hids : task ∈ inScopeTaskIds S.agents projectIds
        ((diffProjectedAgents S.agents S'.agents).upserts.filter (inScope projectIds))
        ((diffProjectedAgents S.agents S'.agents).removed.filter fun key =>
          (rowOf S.agents key).any (inScope projectIds)) ↔
      (task ∈ scopedTasks projectIds S.agents ∧ ∀ b ∈ S.agents, inScope projectIds b = true →
        taskOf b = some task → agentStreamKey b ∈ S'.agents.map agentStreamKey) ∨
      ∃ a ∈ S'.agents, a ∉ S.agents ∧ inScope projectIds a = true ∧ taskOf a = some task := by
    rw [← hkept, ← hnew, ← mem_foldl_removed, ← mem_append]
    rfl
  rw [hids]
  constructor
  · rintro (⟨htask, hkeys⟩ | ⟨a, ha, hfresh, hscope, htask⟩)
    · by_cases hnow : task ∈ scopedTasks projectIds S'.agents
      · refine .inl ⟨hnow, ?_⟩
        rintro ⟨⟨b, hb, hscope, hbtask, hgone⟩, -⟩
        exact hgone (hkeys b hb hscope hbtask)
      · exact .inr ⟨htask, hnow, hkeys⟩
    · refine .inl ⟨mem_scopedTasks.2 ⟨a, ha, hscope, htask⟩, ?_⟩
      rintro ⟨-, hold⟩
      exact hfresh (hold a ha hscope htask)
  · rintro (⟨hnow, hdrop⟩ | ⟨htask, -, hkeys⟩)
    · by_cases hold : ∀ a ∈ S'.agents, inScope projectIds a = true → taskOf a = some task → a ∈ S.agents
      · -- everything of the task in scope was there before, and none of it left
        obtain ⟨a, ha, hscope, htask⟩ := mem_scopedTasks.1 hnow
        refine .inl ⟨mem_scopedTasks.2 ⟨a, hold a ha hscope htask, hscope, htask⟩, ?_⟩
        intro b hb hbscope hbtask
        by_contra hgone
        exact hdrop ⟨⟨b, hb, hbscope, hbtask, hgone⟩, hold⟩
      · push Not at hold
        obtain ⟨a, ha, hscope, htask, hfresh⟩ := hold
        exact .inr ⟨a, ha, hfresh, hscope, htask⟩
    · exact .inl ⟨htask, hkeys⟩

theorem filter_eq_filter_iff {α : Type} {p q : α → Bool} {l : List α} : l.filter p = l.filter q ↔ ∀ x ∈ l, p x = q x := by
  refine ⟨?_, filter_congr⟩
  intro h x hx
  rw [Bool.eq_iff_iff]
  have hmem : x ∈ l.filter p ↔ x ∈ l.filter q := by rw [h]
  simpa only [mem_filter, hx, true_and] using hmem

theorem scoped_relations_iff (hS : DistinctKeys S.agents) (hδ : Built S S' δ) :
    ((scopedView projectIds S).apply (scopeDeltaForProjects δ S.agents projectIds)).relations =
        (scopedView projectIds S').relations ↔ (S.taskRelations = S'.taskRelations → ∀ rel ∈ S'.taskRelations.getD [],
        edgeAmong (scopedTasks projectIds S.agents) rel = edgeAmong (scopedTasks projectIds S'.agents) rel) ∧
      (S.taskRelations ≠ S'.taskRelations → ∀ rel ∈ S'.taskRelations.getD [],
        (Tracked projectIds S S' rel.sourceTaskId ∧ Tracked projectIds S S' rel.targetTaskId ↔
          edgeAmong (scopedTasks projectIds S'.agents) rel = true)) := by
  set tasks := inScopeTaskIds S.agents projectIds
    ((diffProjectedAgents S.agents S'.agents).upserts.filter (inScope projectIds))
    ((diffProjectedAgents S.agents S'.agents).removed.filter fun key =>
      (rowOf S.agents key).any (inScope projectIds)) with htasks
  have hscoped : ((scopedView projectIds S).apply (scopeDeltaForProjects δ S.agents projectIds)).relations =
      (δ.taskRelations.map fun relations => relations.filter (edgeAmong tasks)).getD
        (scopedView projectIds S).relations := by
    unfold scopeDeltaForProjects
    rw [hδ.parts.1, hδ.parts.2]
    rfl
  have htracked : ∀ rel, edgeAmong tasks rel = true ↔
      Tracked projectIds S S' rel.sourceTaskId ∧ Tracked projectIds S S' rel.targetTaskId := by
    intro rel
    rw [edgeAmong, Bool.and_eq_true, decide_eq_true_eq, decide_eq_true_eq, mem_inScopeTaskIds hS,
      mem_inScopeTaskIds hS]
  rw [hscoped, hδ.relations]
  by_cases heq : S.taskRelations = S'.taskRelations
  · -- the list did not change in the fleet, so the viewer keeps the edges it has
    rw [if_pos (relationsEqual_iff.2 heq), map_none, getD_none, scopedView, scopedView, heq,
      filter_eq_filter_iff]
    exact ⟨fun h => ⟨fun _ => h, fun hne => absurd rfl hne⟩, fun h => h.1 rfl⟩
  · rw [if_neg fun h => heq (relationsEqual_iff.1 h), map_some, getD_some, scopedView,
      filter_eq_filter_iff]
    have hedge : ∀ rel, edgeAmong tasks rel = edgeAmong (scopedTasks projectIds S'.agents) rel ↔
        (Tracked projectIds S S' rel.sourceTaskId ∧ Tracked projectIds S S' rel.targetTaskId ↔
          edgeAmong (scopedTasks projectIds S'.agents) rel = true) := by
      intro rel
      rw [Bool.eq_iff_iff, htracked]
    simp only [hedge]
    exact ⟨fun h => ⟨fun he => absurd he heq, fun _ => h⟩, fun h => h.2 heq⟩

/-- The scoped delta takes the scoped view of one snapshot to that of the next exactly
when the scope is stable between them. -/
theorem scoped_delta_exact_iff (projectIds : List String) (hS : DistinctKeys S.agents)
    (hS' : DistinctKeys S'.agents) (hδ : buildDeltaFromSnapshots S S' = some δ) :
    (scopedView projectIds S).apply (scopeDeltaForProjects δ S.agents projectIds) = scopedView projectIds S' ↔
      ScopeStable projectIds S S' := by
  have hb := built_of_eq hδ
  rw [View.ext_iff, scoped_rows_iff hS hS' hb, scoped_relations_iff hS hb]
  exact ⟨fun h => ⟨h.1, h.2.1, h.2.2⟩, fun h => ⟨h.rows, h.unsent, h.sent⟩⟩

def pairSnapshot (seq : ℕ) (relations : List TaskRelation) : SnapshotMessage :=
  { plainSnapshot seq [workingRow "a" (some "t") "parent", workingRow "b" (some "u") "child"] with
    taskRelations := some relations }

theorem scoped_delta_exact_iff_newEdge : ∃ δ,
    buildDeltaFromSnapshots (pairSnapshot 1 []) (pairSnapshot 2 [⟨"u", "t", []⟩]) = some δ ∧
    (scopedView ["project"] (pairSnapshot 1 [])).apply (scopeDeltaForProjects δ (pairSnapshot 1 []).agents ["project"]) =
        scopedView ["project"] (pairSnapshot 2 [⟨"u", "t", []⟩]) ∧
    (scopedView ["project"] (pairSnapshot 2 [⟨"u", "t", []⟩])).relations = [⟨"u", "t", []⟩] := by
  have hn : ∀ seq relations, DistinctKeys (pairSnapshot seq relations).agents := by
    intro seq relations
    exact (by decide +kernel : ["a:t", "b:u"].Nodup)
  refine ⟨_, rfl, ?_, rfl⟩
  refine (scoped_delta_exact_iff ["project"] (hn 1 _) (hn 2 _) rfl).2 ⟨?_, ?_, ?_⟩
  · intro b _ a ha _ _
    rcases mem_pair.1 ha with rfl | rfl <;> rfl
  · intro h
    cases h
  · -- every row is where it was, so both tasks are tracked
    intro _ rel hrel
    obtain rfl := mem_singleton.1 hrel
    have htracked : ∀ task, task ∈ scopedTasks ["project"] (pairSnapshot 2 [⟨"u", "t", []⟩]).agents →
        Tracked ["project"] (pairSnapshot 1 []) (pairSnapshot 2 [⟨"u", "t", []⟩]) task := by
      intro task htask
      refine .inl ⟨htask, ?_⟩
      rintro ⟨⟨b, hb, -, -, hgone⟩, -⟩
      exact hgone (mem_map.2 ⟨b, hb, rfl⟩)
    exact ⟨fun _ => rfl, fun _ => ⟨htracked _ (by decide), htracked _ (by decide)⟩⟩

/-- The row of a task that was moved to another project. -/
def movedRow : AgentState := { workingRow "a" (some "t") "moved" with projectId := some "other" }

theorem moved_row_kept : ∃ δ, buildDeltaFromSnapshots (plainSnapshot 1 [workingRow "a" (some "t") "moved"])
      (plainSnapshot 2 [movedRow]) = some δ ∧
    (((scopedView ["project"] (plainSnapshot 1 [workingRow "a" (some "t") "moved"])).apply
      (scopeDeltaForProjects δ [workingRow "a" (some "t") "moved"] ["project"])).row "a:t").isSome = true ∧
    (scopedView ["project"] (plainSnapshot 2 [movedRow])).row "a:t" = none ∧
    (scopedView ["project"] (plainSnapshot 1 [workingRow "a" (some "t") "moved"])).apply
      (scopeDeltaForProjects δ [workingRow "a" (some "t") "moved"] ["project"]) ≠
        scopedView ["project"] (plainSnapshot 2 [movedRow]) := by
  have hkept : ∀ v : View, (v.row "a:t").isSome = true → v ≠ scopedView ["project"] (plainSnapshot 2 [movedRow]) := by
    rintro v hv rfl
    cases hv
  exact ⟨_, rfl, by decide +kernel, rfl, hkept _ (by decide +kernel)⟩

end Kookr.Realtime
