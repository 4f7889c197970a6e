import Kookr.Sanity.Realtime.ActivityHistory
import Kookr.Spec.Realtime.SnapshotStream

/-! What a delta does to the rows of a client, key by key. -/

namespace Kookr.Realtime

open Kookr.Lib List

/-- Rows with distinct keys, as the snapshot projection makes them. -/
def DistinctKeys (agents : List AgentState) : Prop := (agents.map agentStreamKey).Nodup

section Diff

variable {previous current : List AgentState}

theorem diff_prevByKey (hn : DistinctKeys previous) (key : String) : (previous.foldl (fun m a => m.set (agentStreamKey a) a.json)
      (OrderedMap.empty : OrderedMap String (List Char))).get key = (rowOf previous key).map AgentState.json := by
  cases hrow : rowOf previous key with
  | none =>
    have hno : key ∉ previous.map agentStreamKey := rowAt_eq_none_iff.1 hrow
    exact OrderedMap.get_foldl_set_of_not_mem agentStreamKey AgentState.json hno .empty
  | some a =>
    obtain ⟨ha, rfl⟩ := rowAt_mem hrow
    exact OrderedMap.get_foldl_set_of_mem agentStreamKey AgentState.json hn ha .empty

theorem mem_upserts (hn : DistinctKeys previous) {a : AgentState} :
    a ∈ (diffProjectedAgents previous current).upserts ↔ a ∈ current ∧ a ∉ previous := by
  unfold diffProjectedAgents
  rw [mem_filter, diff_prevByKey hn, decide_eq_true_eq]
  refine and_congr_right fun _ => not_congr ?_
  rw [Option.map_eq_some_iff]
  constructor
  · rintro ⟨b, hb, hjson⟩
    rw [← AgentState.json_inj.1 hjson]
    exact (rowAt_mem hb).1
  · intro ha
    exact ⟨a, rowAt_of_mem hn ha, rfl⟩

theorem mem_removed (hn : DistinctKeys previous) {key : String} : key ∈ (diffProjectedAgents previous current).removed ↔
      key ∈ previous.map agentStreamKey ∧ key ∉ current.map agentStreamKey := by
  unfold diffProjectedAgents
  rw [mem_filter, decide_eq_true_eq, ← OrderedMap.get_isSome_iff, diff_prevByKey hn]
  rw [Option.isSome_map, Option.isSome_iff_ne_none, Ne, rowOf, rowAt_eq_none_iff, not_not]

theorem upserts_nodup (hn : DistinctKeys current) : ((diffProjectedAgents previous current).upserts.map agentStreamKey).Nodup :=
  hn.sublist (filter_sublist.map agentStreamKey)

end Diff

section Client

variable {prev : List AgentState} {delta : AgentDelta} {byKey : OrderedMap String AgentState} {st : List AgentState × List String}

/-- What the ordering loops have written down. -/
structure Pushed (byKey : OrderedMap String AgentState) (st : List AgentState × List String) : Prop where
  keys : st.1.map agentStreamKey = st.2
  nodup : st.2.Nodup
  rows : ∀ a ∈ st.1, byKey.get (agentStreamKey a) = some a

section

variable (hkeys : ∀ k a, byKey.get k = some a → agentStreamKey a = k)
include hkeys

theorem Pushed.step (h : Pushed byKey st) (key : String) : Pushed byKey (pushRow byKey st key) := by
  unfold pushRow
  split
  · exact h
  · rename_i hnew
    split
    · rename_i next hnext
      have hk := hkeys key next hnext
      refine ⟨?_, ?_, ?_⟩
      · rw [map_append, h.keys]
        simp [hk]
      · rw [nodup_append']
        exact ⟨h.nodup, nodup_singleton _, by simpa using hnew⟩
      · intro a ha
        rcases mem_append.1 ha with ha | ha
        · exact h.rows a ha
        · obtain rfl := mem_singleton.1 ha
          rw [hk]
          exact hnext
    · exact h

theorem Pushed.foldl (keys : List String) (h : Pushed byKey st) : Pushed byKey (keys.foldl (pushRow byKey) st) := by
  induction keys generalizing st with
  | nil => exact h
  | cons key keys ih => exact ih (h.step hkeys key)

omit hkeys in
theorem subset_pushRow (byKey : OrderedMap String AgentState) (st : List AgentState × List String)
    (key : String) : st.1 ⊆ (pushRow byKey st key).1 := by
  unfold pushRow
  split
  · exact List.Subset.refl _
  · split
    · exact subset_append_left _ _
    · exact List.Subset.refl _

omit hkeys in
theorem subset_pushRows (byKey : OrderedMap String AgentState) (keys : List String)
    (st : List AgentState × List String) : st.1 ⊆ (keys.foldl (pushRow byKey) st).1 := by
  induction keys generalizing st with
  | nil => exact List.Subset.refl _
  | cons key keys ih => exact List.Subset.trans (subset_pushRow byKey st key) (ih _)

theorem mem_pushRows {keys : List String} {key : String} (hkey : key ∈ keys) {a : AgentState} (ha : byKey.get key = some a)
    (h : Pushed byKey st) : a ∈ (keys.foldl (pushRow byKey) st).1 := by
  induction keys generalizing st with
  | nil => cases hkey
  | cons k keys ih =>
    rcases mem_cons.1 hkey with rfl | hkey
    · refine subset_pushRows byKey keys _ ?_
      unfold pushRow
      split
      · -- written down before, as the same row
        rename_i hseen
        rw [← h.keys] at hseen
        obtain ⟨b, hb, hbk⟩ := mem_map.1 hseen
        have hrow := h.rows b hb
        rw [hbk, ha] at hrow
        cases hrow
        exact hb
      · rw [ha]
        exact mem_append_right _ (by simp)
    · exact ih hkey (h.step hkeys k)

end

/-- The map the client builds before it puts the rows in order. -/
def deltaMap (prev : List AgentState) (delta : AgentDelta) : OrderedMap String AgentState :=
  mergeInto agentStreamKey mergeActivityAgent
    (mapBy agentStreamKey (prev.filter fun a => decide (agentStreamKey a ∉ delta.removed))) delta.upserts

/-- The row a client keeps of a key before it merges. -/
def keptRow (prev : List AgentState) (delta : AgentDelta) (key : String) : Option AgentState :=
  if key ∈ delta.removed then none else rowOf prev key

theorem get_deltaMap (hn : DistinctKeys prev) (hu : (delta.upserts.map agentStreamKey).Nodup)
    (key : String) : (deltaMap prev delta).get key = (rowOf delta.upserts key).elim (keptRow prev delta key)
        fun a => some (mergeActivityAgent (keptRow prev delta key) a) := by
  have hkept : (mapBy agentStreamKey (prev.filter fun a => decide (agentStreamKey a ∉ delta.removed))).get key =
      keptRow prev delta key := by
    unfold keptRow
    have hn' : ((prev.filter fun a => decide (agentStreamKey a ∉ delta.removed)).map agentStreamKey).Nodup :=
      hn.sublist (filter_sublist.map agentStreamKey)
    apply Option.ext
    intro a
    have hrow := rowAt_eq_some_iff hn' (k := key) (x := a)
    unfold rowAt at hrow
    rw [hrow, mem_filter, decide_eq_true_eq]
    split
    · rename_i hrem
      simp only [reduceCtorEq, iff_false]
      rintro ⟨⟨-, hnot⟩, rfl⟩
      exact hnot hrem
    · rename_i hrem
      rw [rowOf, rowAt_eq_some_iff hn]
      constructor
      · rintro ⟨⟨ha, -⟩, hk⟩
        exact ⟨ha, hk⟩
      · rintro ⟨ha, rfl⟩
        exact ⟨⟨ha, hrem⟩, rfl⟩
  unfold deltaMap
  rw [get_mergeInto _ _ hu, hkept]
  rfl

theorem key_of_get_deltaMap (hn : DistinctKeys prev) (hu : (delta.upserts.map agentStreamKey).Nodup)
    {key : String} {a : AgentState} (h : (deltaMap prev delta).get key = some a) : agentStreamKey a = key := by
  rw [get_deltaMap hn hu] at h
  cases hrow : rowOf delta.upserts key with
  | some b =>
    rw [hrow] at h
    cases h
    exact (rowAt_mem hrow).2
  | none =>
    rw [hrow] at h
    unfold keptRow at h
    split at h
    · cases h
    · exact (rowAt_mem h).2

theorem handleDeltaAgents_spec (hn : DistinctKeys prev) (hu : (delta.upserts.map agentStreamKey).Nodup) :
    DistinctKeys (handleDeltaAgents prev delta) ∧
      ∀ key, rowOf (handleDeltaAgents prev delta) key = (deltaMap prev delta).get key := by
  have hkeys : ∀ k a, (deltaMap prev delta).get k = some a → agentStreamKey a = k :=
    fun k a h => key_of_get_deltaMap hn hu h
  set kept := prev.filter fun a => decide (agentStreamKey a ∉ delta.removed)
  have hinit : Pushed (deltaMap prev delta) ([], []) := ⟨rfl, nodup_nil, nofun⟩
  have hsurv : Pushed (deltaMap prev delta) ((kept.map agentStreamKey).foldl
      (pushRow (deltaMap prev delta)) ([], [])) := hinit.foldl hkeys _
  have hall := hsurv.foldl hkeys (delta.upserts.map agentStreamKey)
  have hdistinct : DistinctKeys (handleDeltaAgents prev delta) := by
    have hk := hall.keys
    have hnodup := hall.nodup
    rw [← hk] at hnodup
    exact hnodup
  refine ⟨hdistinct, ?_⟩
  intro key
  apply Option.ext
  intro a
  rw [rowOf, rowAt_eq_some_iff hdistinct]
  constructor
  · rintro ⟨ha, rfl⟩
    exact hall.rows a ha
  · intro ha
    refine ⟨?_, hkeys key a ha⟩
    -- a row of the map was kept or sent, so one of the loops goes through its key
    have hget := ha
    rw [get_deltaMap hn hu] at hget
    cases hrow : rowOf delta.upserts key with
    | some b =>
      obtain ⟨hb, hbk⟩ := rowAt_mem hrow
      exact mem_pushRows hkeys (mem_map.2 ⟨b, hb, hbk⟩) ha hsurv
    | none =>
      rw [hrow] at hget
      unfold keptRow at hget
      split at hget
      · cases hget
      · rename_i hrem
        obtain ⟨hb, rfl⟩ := rowAt_mem hget
        apply subset_pushRows
        refine mem_pushRows hkeys (mem_map.2 ⟨a, ?_, rfl⟩) ha hinit
        exact mem_filter.2 ⟨hb, by simpa using hrem⟩

end Client

section Stream

variable {client S S' : List AgentState} {key : String} {a : AgentState}

theorem mem_iff_rowOf (hn : DistinctKeys S) : a ∈ S ↔ rowOf S (agentStreamKey a) = some a := by
  rw [rowOf, rowAt_eq_some_iff hn]
  exact ⟨fun h => ⟨h, rfl⟩, fun h => h.1⟩

theorem rowOf_eq_none_iff : rowOf S key = none ↔ key ∉ S.map agentStreamKey := rowAt_eq_none_iff

theorem rowOf_upserts (hS : DistinctKeys S) (hS' : DistinctKeys S') :
    rowOf (diffProjectedAgents S S').upserts key = some a ↔ rowOf S' key = some a ∧ rowOf S key ≠ some a := by
  rw [rowOf, rowAt_eq_some_iff (upserts_nodup hS'), mem_upserts hS, mem_iff_rowOf hS, mem_iff_rowOf hS']
  constructor
  · rintro ⟨h, rfl⟩
    exact h
  · rintro ⟨h', h⟩
    obtain ⟨-, rfl⟩ := rowAt_mem h'
    exact ⟨⟨h', h⟩, rfl⟩

theorem diff_unchanged (hS : DistinctKeys S) (hS' : DistinctKeys S') (h : rowOf S' key = rowOf S key) :
    rowOf (diffProjectedAgents S S').upserts key = none ∧ key ∉ (diffProjectedAgents S S').removed := by
  constructor
  · rw [Option.eq_none_iff_forall_ne_some]
    intro a ha
    obtain ⟨h', hne⟩ := (rowOf_upserts hS hS').1 ha
    exact hne (h ▸ h')
  · rw [mem_removed hS]
    rintro ⟨hin, hout⟩
    exact rowOf_eq_none_iff.1 (h ▸ rowOf_eq_none_iff.2 hout) hin

theorem diff_sent (hS : DistinctKeys S) (hS' : DistinctKeys S') (h' : rowOf S' key = some a) (h : rowOf S key ≠ some a) :
    rowOf (diffProjectedAgents S S').upserts key = some a ∧ key ∉ (diffProjectedAgents S S').removed := by
  refine ⟨(rowOf_upserts hS hS').2 ⟨h', h⟩, ?_⟩
  rw [mem_removed hS]
  rintro ⟨-, hout⟩
  rw [rowOf_eq_none_iff.2 hout] at h'
  cases h'

theorem diff_removed (hS : DistinctKeys S) (hS' : DistinctKeys S') (h' : rowOf S' key = none) (h : rowOf S key ≠ none) :
    rowOf (diffProjectedAgents S S').upserts key = none ∧ key ∈ (diffProjectedAgents S S').removed := by
  constructor
  · rw [Option.eq_none_iff_forall_ne_some]
    intro a ha
    rw [((rowOf_upserts hS hS').1 ha).1] at h'
    cases h'
  · rw [mem_removed hS]
    exact ⟨by_contra fun hout => h (rowOf_eq_none_iff.2 hout), rowOf_eq_none_iff.1 h'⟩

section

variable (hc : DistinctKeys client)
include hc

theorem rowOf_handleDeltaAgents (hS' : DistinctKeys S') : rowOf (handleDeltaAgents client (diffProjectedAgents S S')) key =
      (rowOf (diffProjectedAgents S S').upserts key).elim (keptRow client (diffProjectedAgents S S') key)
        fun a => some (mergeActivityAgent (keptRow client (diffProjectedAgents S S') key) a) := by
  rw [(handleDeltaAgents_spec hc (upserts_nodup hS')).2, get_deltaMap hc (upserts_nodup hS')]

theorem rowOf_unchanged (hS : DistinctKeys S) (hS' : DistinctKeys S') (h : rowOf S' key = rowOf S key) :
    rowOf (handleDeltaAgents client (diffProjectedAgents S S')) key = rowOf client key := by
  obtain ⟨hup, hrem⟩ := diff_unchanged hS hS' h
  rw [rowOf_handleDeltaAgents hc hS', hup, Option.elim_none, keptRow, if_neg hrem]

theorem rowOf_sent (hS : DistinctKeys S) (hS' : DistinctKeys S') (h' : rowOf S' key = some a) (h : rowOf S key ≠ some a) :
    rowOf (handleDeltaAgents client (diffProjectedAgents S S')) key = some (mergeActivityAgent (rowOf client key) a) := by
  obtain ⟨hup, hrem⟩ := diff_sent hS hS' h' h
  rw [rowOf_handleDeltaAgents hc hS', hup, Option.elim_some, keptRow, if_neg hrem]

theorem rowOf_removed (hS : DistinctKeys S) (hS' : DistinctKeys S') (h' : rowOf S' key = none) (h : rowOf S key ≠ none) :
    rowOf (handleDeltaAgents client (diffProjectedAgents S S')) key = none := by
  obtain ⟨hup, hrem⟩ := diff_removed hS hS' h' h
  rw [rowOf_handleDeltaAgents hc hS', hup, Option.elim_none, keptRow, if_pos hrem]

end

theorem rowOf_map (hS : DistinctKeys S) {f : AgentState → AgentState} (hf : ∀ a, agentStreamKey (f a) = agentStreamKey a) :
    DistinctKeys (S.map f) ∧ rowOf (S.map f) key = (rowOf S key).map f := by
  have hkeys : (S.map f).map agentStreamKey = S.map agentStreamKey := by
    rw [map_map]
    exact map_congr_left fun a _ => hf a
  have hn : DistinctKeys (S.map f) := by
    unfold DistinctKeys
    rw [hkeys]
    exact hS
  refine ⟨hn, ?_⟩
  cases hrow : rowOf S key with
  | none =>
    rw [rowOf_eq_none_iff, ← hkeys] at hrow
    exact rowOf_eq_none_iff.2 hrow
  | some a =>
    obtain ⟨ha, rfl⟩ := rowAt_mem hrow
    rw [← hf a]
    exact rowAt_of_mem hn (mem_map.2 ⟨a, ha, rfl⟩)

end Stream

end Kookr.Realtime

/-! The dashboard's store refines the view of its stream, and the delta of two snapshots
takes a view to the later one exactly where the view agrees on what the delta leaves
out. -/

namespace Kookr.Realtime

open Kookr.Lib

/-- A row of the view, with the history the dashboard has gathered for it. -/
def RowShown : Option AgentState → Option AgentState → Prop
  | shown, none => shown = none
  | shown, some a => ∃ p, shown = some (mergeActivityAgent p a)

/-- The dashboard shows the rows of a view and no others. -/
structure Shows (agents : List AgentState) (row : String → Option AgentState) : Prop where
  distinct : DistinctKeys agents
  shown : ∀ key, RowShown (rowOf agents key) (row key)

theorem rowOf_handleSnapshot {c : ClientStore} {S : SnapshotMessage} (hS : DistinctKeys S.agents) (key : String) :
    DistinctKeys (handleSnapshot c S).agents ∧ rowOf (handleSnapshot c S).agents key =
      (rowOf S.agents key).map fun a => mergeActivityAgent (previousRow c.agents a) a :=
  rowOf_map hS fun _ => rfl

theorem shows_handleSnapshot (c : ClientStore) {S : SnapshotMessage} (hS : DistinctKeys S.agents) :
    Shows (handleSnapshot c S).agents (rowOf S.agents) := by
  refine ⟨(rowOf_handleSnapshot hS "").1, ?_⟩
  intro key
  rw [(rowOf_handleSnapshot hS key).2]
  cases rowOf S.agents key with
  | none => rfl
  | some a => exact ⟨_, rfl⟩

theorem Shows.delta {agents : List AgentState} {row : String → Option AgentState} {d : AgentDelta}
    (h : Shows agents row) (hd : (d.upserts.map agentStreamKey).Nodup) :
    Shows (handleDeltaAgents agents d) (View.applyRows row d) := by
  obtain ⟨hdistinct, hrows⟩ := handleDeltaAgents_spec h.distinct hd
  refine ⟨hdistinct, ?_⟩
  intro key
  rw [hrows, get_deltaMap h.distinct hd, View.applyRows]
  cases rowOf d.upserts key with
  | some a => exact ⟨_, rfl⟩
  | none =>
    rw [keptRow]
    split
    · rfl
    · exact h.shown key

/-- The parts of a delta, as a client reads them. -/
structure Built (S S' : SnapshotMessage) (δ : DeltaMessage) : Prop where
  agents : δ.agents.getD ⟨[], []⟩ = diffProjectedAgents S.agents S'.agents
  relations : δ.taskRelations = if relationsEqual S.taskRelations S'.taskRelations then none
    else some (S'.taskRelations.getD [])
  aggregates : δ.aggregates = diffAggregates S.toAggregateFields S'.toAggregateFields

theorem built_of_eq {S S' : SnapshotMessage} {δ : DeltaMessage} (h : buildDeltaFromSnapshots S S' = some δ) : Built S S' δ := by
  unfold buildDeltaFromSnapshots at h
  cases hepoch : S'.epoch with
  | none => simp [hepoch] at h
  | some epoch =>
    cases hseq : S'.seq with
    | none => simp [hepoch, hseq] at h
    | some seq =>
      simp only [hepoch, hseq, bind, Option.bind_some, pure, Option.some.injEq] at h
      subst h
      refine ⟨?_, rfl, rfl⟩
      split
      · rfl
      · rename_i hnone
        simp only [Bool.or_eq_true, Bool.not_eq_true', not_or, Bool.not_eq_false, List.isEmpty_iff] at hnone
        obtain ⟨hup, hrem⟩ := hnone
        cases hd : diffProjectedAgents S.agents S'.agents
        rw [hd] at hup hrem
        subst hup hrem
        rfl

section Rows

variable {S S' : List AgentState} (hS : DistinctKeys S) (hS' : DistinctKeys S')
  (row : String → Option AgentState) {key : String}

include hS hS'

theorem applyRows_diff_of_eq (h : rowOf S' key = rowOf S key) : View.applyRows row (diffProjectedAgents S S') key = row key := by
  obtain ⟨hup, hrem⟩ := diff_unchanged hS hS' h
  rw [View.applyRows, hup, Option.none_or, if_neg hrem]

theorem applyRows_diff_of_ne (h : rowOf S' key ≠ rowOf S key) :
    View.applyRows row (diffProjectedAgents S S') key = rowOf S' key := by
  cases h' : rowOf S' key with
  | none =>
    obtain ⟨hup, hrem⟩ := diff_removed hS hS' h' fun hnone => h (h'.trans hnone.symm)
    rw [View.applyRows, hup, Option.none_or, if_pos hrem]
  | some a =>
    obtain ⟨hup, -⟩ := diff_sent hS hS' h' fun hsome => h (h'.trans hsome.symm)
    rw [View.applyRows, hup, Option.some_or]

/-- A delta brings a view to the rows of the later snapshot exactly when the view has
them already under the keys whose row did not change. -/
theorem applyRows_diff_eq_iff : View.applyRows row (diffProjectedAgents S S') = rowOf S' ↔
      ∀ key, rowOf S' key = rowOf S key → row key = rowOf S' key := by
  rw [funext_iff]
  refine forall_congr' fun key => ?_
  by_cases h : rowOf S' key = rowOf S key
  · rw [applyRows_diff_of_eq hS hS' row h]
    exact ⟨fun heq _ => heq, fun heq => heq h⟩
  · rw [applyRows_diff_of_ne hS hS' row h]
    exact ⟨fun _ heq => absurd heq h, fun _ => rfl⟩

end Rows

def zero : NumLit := ⟨['0'], by decide, by decide⟩

def ClientStore.initial : ClientStore where
  agents := []
  taskRelations := []
  session := ⟨false, "", .arr [], "claude-code", none, none, "", "", none, false, false, none, none,
    ⟨false, none, none⟩⟩
  shared := ⟨zero, zero, .obj [("accepting", .bool true), ("draining", .bool false)], none, .obj [],
    .obj [], .obj [], false⟩

def workingRow (agentId : String) (taskId : Option String) (name : String) : AgentState :=
  ⟨agentId, [.obj [("type", .str "session_start")]], taskId, some "project", none,
    [("taskName", .str name)], by
      intro m hm
      rw [List.mem_singleton.1 hm]
      exact (by decide : "taskName" ∉ AgentState.named)⟩

/-- A flush of the given rows. -/
def plainSnapshot (seq : ℕ) (agents : List AgentState) : SnapshotMessage where
  toAggregateFields := .none
  agents := agents
  serverCwd := "/repo"
  epoch := some "2026-01-01T00:00:00.000Z"
  seq := some seq
  build := none
  serverStartedAt := none
  sttEnabled := none
  sttUrl := none
  ttsUrl := none
  speechCapabilities := none
  availableAgentTypes := none
  defaultAgentType := none
  workspaceEnabled := none
  sweepRunning := none
  sweepProgress := none
  lastSweepRunId := none
  safeMode := some ⟨false, none, none⟩
  taskRelations := none

end Kookr.Realtime
