import Kookr.Sanity.Realtime.ViewRows
import Kookr.Lib.Exec

/-! The delta stream against the snapshot stream. A client that shows a snapshot and is
sent the delta to the next one shows what the next snapshot itself would have made of it,
but for four things a delta does not carry: fields outside its aggregates, a relation list
that went missing, a permission bypass that went missing, and the history a row without a
task takes over from another row of its agent. -/

namespace Kookr.Realtime

open Kookr.Lib SharedFields

/-- The same rows under every key, the same relations and the same fields. -/
structure SameView (c c' : ClientStore) : Prop where
  rows : ∀ key, rowOf c.agents key = rowOf c'.agents key
  relations : c.taskRelations = c'.taskRelations
  session : c.session = c'.session
  shared : c.shared = c'.shared

/-- The client shows `S`: its rows with the history the client has gathered, its relations
and its fields. -/
structure InSync (c : ClientStore) (S : SnapshotMessage) : Prop where
  distinct : DistinctKeys c.agents
  row : ∀ key a, rowOf S.agents key = some a → ∃ p, rowOf c.agents key = some (mergeActivityAgent p a)
  noRow : ∀ key, rowOf S.agents key = none → rowOf c.agents key = none
  relations : ∀ l, S.taskRelations = some l → c.taskRelations = l
  shared : c.shared.merge S.toAggregateFields (S.bypassAllPermissions = some true) = c.shared

/-- What the next snapshot says is in the delta, or the client shows it already. -/
structure DeltaCovers (c : ClientStore) (S S' : SnapshotMessage) : Prop where
  session : c.session.afterSnapshot S' = c.session
  relations : S'.taskRelations = none → S.taskRelations = none ∨ S.taskRelations = some []
  bypass : S'.bypassAllPermissions = none → S.bypassAllPermissions ≠ some true
  history : ∀ a ∈ S'.agents, agentStreamKey a ∉ S.agents.map agentStreamKey → taskOf a = none →
    ∀ p, rowAt AgentState.agentId c.agents a.agentId = some p → mergeActivityAgent (some p) a = a

variable {c : ClientStore} {S S' : SnapshotMessage} {δ : DeltaMessage}

theorem SharedFields.merge_idem (f : SharedFields) (a : AggregateFields) (b : Bool) : (f.merge a b).merge a b = f.merge a b := by
  unfold merge
  congr 1
  · cases a.totalSpendUsd <;> rfl
  · cases a.maxActiveTasks <;> rfl
  · cases a.drainStatus <;> rfl
  · cases a.coordinator <;> rfl
  · cases a.achievements <;> rfl
  · cases a.achievementCounters <;> rfl
  · cases a.achievementStreak <;> rfl

theorem inSync_handleSnapshot (c : ClientStore) (hS : DistinctKeys S.agents) : InSync (handleSnapshot c S) S := by
  refine ⟨(rowOf_handleSnapshot hS "").1, ?_, ?_, ?_, merge_idem _ _ _⟩
  · intro key a ha
    exact ⟨previousRow c.agents a, by rw [(rowOf_handleSnapshot hS key).2, ha]; rfl⟩
  · intro key hnone
    rw [(rowOf_handleSnapshot hS key).2, hnone]
    rfl
  · intro l hl
    unfold handleSnapshot
    rw [hl]
    rfl

theorem InSync.of_sameView {c' : ClientStore} (h : InSync c' S) (hc : DistinctKeys c.agents)
    (hv : SameView c c') : InSync c S := by
  refine ⟨hc, ?_, ?_, ?_, ?_⟩
  · intro key a ha
    rw [hv.rows]
    exact h.row key a ha
  · intro key hnone
    rw [hv.rows]
    exact h.noRow key hnone
  · intro l hl
    rw [hv.relations]
    exact h.relations l hl
  · rw [hv.shared]
    exact h.shared

theorem distinct_handleDelta (hc : DistinctKeys c.agents) (hS' : DistinctKeys S'.agents)
    (hδ : Built S S' δ) : DistinctKeys (handleDelta c δ).agents := by
  unfold handleDelta
  rw [hδ.agents]
  exact (handleDeltaAgents_spec hc (upserts_nodup hS')).1

/-- The row a snapshot's row is merged with, where the client has one of its key. -/
theorem previousRow_of_some {a r : AgentState} (h : rowOf c.agents (agentStreamKey a) = some r) :
    previousRow c.agents a = some r := by
  have hget : (mapBy agentStreamKey c.agents).get (agentStreamKey a) = some r := h
  simp [previousRow, hget]

theorem previousRow_of_none {a : AgentState} (h : rowOf c.agents (agentStreamKey a) = none) :
    previousRow c.agents a =
      if (taskOf a).isNone then rowAt AgentState.agentId c.agents a.agentId else none := by
  have hget : (mapBy agentStreamKey c.agents).get (agentStreamKey a) = none := h
  simp only [previousRow, hget, Option.none_or]
  rfl

theorem rows_agree_iff (hsync : InSync c S) (hS : DistinctKeys S.agents) (hS' : DistinctKeys S'.agents) (hδ : Built S S' δ) :
    (∀ key, rowOf (handleDelta c δ).agents key = rowOf (handleSnapshot c S').agents key) ↔
      ∀ a ∈ S'.agents, agentStreamKey a ∉ S.agents.map agentStreamKey → taskOf a = none →
        ∀ p, rowAt AgentState.agentId c.agents a.agentId = some p → mergeActivityAgent (some p) a = a := by
  have hagents : (handleDelta c δ).agents =
      handleDeltaAgents c.agents (diffProjectedAgents S.agents S'.agents) := by
    unfold handleDelta
    rw [hδ.agents]
  -- a key that is new in `S'` is the only place where the two can differ
  have hnew : ∀ key a, rowOf S'.agents key = some a → rowOf S.agents key = none →
      (rowOf (handleDelta c δ).agents key = rowOf (handleSnapshot c S').agents key ↔
        mergeActivityAgent (previousRow c.agents a) a = a) := by
    intro key a ha hnone
    have hc := hsync.noRow key hnone
    rw [hagents, rowOf_sent hsync.distinct hS hS' ha (by rw [hnone]; nofun),
      (rowOf_handleSnapshot hS' key).2, ha, hc, mergeActivityAgent_none, Option.map_some, Option.some.injEq,
      eq_comm]
  have hold : ∀ key, (∀ a, rowOf S'.agents key = some a → rowOf S.agents key ≠ none) →
      rowOf (handleDelta c δ).agents key = rowOf (handleSnapshot c S').agents key := by
    intro key hkey
    rw [hagents, (rowOf_handleSnapshot hS' key).2]
    cases ha : rowOf S'.agents key with
    | none =>
      by_cases hprev : rowOf S.agents key = none
      · rw [rowOf_unchanged hsync.distinct hS hS' (ha.trans hprev.symm), hsync.noRow key hprev]
        rfl
      · rw [rowOf_removed hsync.distinct hS hS' ha hprev]
        rfl
    | some a =>
      obtain ⟨b, hb⟩ := Option.ne_none_iff_exists'.1 (hkey a ha)
      obtain ⟨p, hp⟩ := hsync.row key b hb
      have hprev : previousRow c.agents a = some (mergeActivityAgent p b) :=
        previousRow_of_some ((rowAt_mem ha).2 ▸ hp)
      rw [Option.map_some, hprev]
      by_cases hab : rowOf S.agents key = some a
      · -- sent by the snapshot, left out of the delta
        rw [rowOf_unchanged hsync.distinct hS hS' (ha.trans hab.symm), hp]
        obtain rfl : b = a := Option.some.inj (hb.symm.trans hab)
        rw [mergeActivityAgent_idem]
      · rw [rowOf_sent hsync.distinct hS hS' ha hab, hp]
  constructor
  · intro hrows a ha hfresh htask p hp
    have hrow : rowOf S'.agents (agentStreamKey a) = some a := (mem_iff_rowOf hS').1 ha
    have hnone := rowOf_eq_none_iff.2 hfresh
    have hmerge := (hnew _ a hrow hnone).1 (hrows _)
    rwa [previousRow_of_none (hsync.noRow _ hnone), htask, hp] at hmerge
  · intro hhist key
    cases ha : rowOf S'.agents key with
    | none => exact hold key fun a h => by rw [ha] at h; cases h
    | some a =>
      by_cases hprev : rowOf S.agents key = none
      · refine (hnew key a ha hprev).2 ?_
        obtain ⟨hmem, rfl⟩ := rowAt_mem ha
        rw [previousRow_of_none (hsync.noRow _ hprev)]
        cases htask : taskOf a with
        | some t => exact mergeActivityAgent_none a
        | none =>
          cases hp : rowAt AgentState.agentId c.agents a.agentId with
          | none => exact mergeActivityAgent_none a
          | some p => exact hhist a hmem (rowOf_eq_none_iff.1 hprev) htask p hp
      · exact hold key fun _ _ => hprev

theorem relations_agree_iff (hsync : InSync c S) (hδ : Built S S' δ) :
    (handleDelta c δ).taskRelations = (handleSnapshot c S').taskRelations ↔
      (S'.taskRelations = none → S.taskRelations = none ∨ S.taskRelations = some []) := by
  have hdelta : (handleDelta c δ).taskRelations = δ.taskRelations.getD c.taskRelations := rfl
  have hsnap : (handleSnapshot c S').taskRelations = S'.taskRelations.getD c.taskRelations := rfl
  rw [hdelta, hsnap, hδ.relations]
  by_cases heq : S.taskRelations = S'.taskRelations
  · rw [if_pos (relationsEqual_iff.2 heq)]
    have hkept : c.taskRelations = S'.taskRelations.getD c.taskRelations := by
      rw [← heq]
      cases hl : S.taskRelations with
      | none => rfl
      | some l => exact hsync.relations l hl
    exact ⟨fun _ hnone => .inl (heq.trans hnone), fun _ => hkept⟩
  · rw [if_neg fun h => heq (relationsEqual_iff.1 h), Option.getD_some]
    cases hl' : S'.taskRelations with
    | some l => simp
    | none =>
      obtain ⟨l, hl⟩ := Option.ne_none_iff_exists'.1 (fun h => heq (h.trans hl'.symm))
      rw [hsync.relations l hl, hl]
      constructor
      · rintro rfl _
        exact .inr rfl
      · intro h
        rcases h rfl with h | h
        · cases h
        · exact (Option.some.inj h).symm

section Aggregates

variable {α : Type} {toJson : α → Json} {previous current : Option α}

section

variable (hinj : Function.Injective toJson)
include hinj

theorem sameJson_iff : sameJson toJson previous current = true ↔ previous = current := by
  unfold sameJson
  rw [decide_eq_true_eq]
  have hmap : Function.Injective fun v => (toJson v).stringify :=
    Json.stringify_injective.comp hinj
  exact (Option.map_injective hmap).eq_iff

omit hinj in
theorem diffField_of_eq (h : previous = current) : diffField toJson previous current = none := by
  subst h
  simp [diffField, sameJson]

theorem diffField_of_ne (h : previous ≠ current) : diffField toJson previous current = current := by
  unfold diffField
  rw [if_neg fun hsame => h ((sameJson_iff hinj).1 hsame)]

theorem diffField_getD {v : α} (hv : previous.getD v = v) : (diffField toJson previous current).getD v = current.getD v := by
  by_cases h : previous = current
  · rw [diffField_of_eq h, ← h, hv]
    rfl
  · rw [diffField_of_ne hinj h]

theorem diffField_or {v : Option α} (hv : previous.or v = v) : (diffField toJson previous current).or v = current.or v := by
  by_cases h : previous = current
  · rw [diffField_of_eq h, ← h, hv]
    rfl
  · rw [diffField_of_ne hinj h]

end

theorem AggregateFields.eq_none_of_isEmpty {p : AggregateFields} (h : p.isEmpty = true) : p = .none := by
  cases p
  simp only [isEmpty, Bool.and_eq_true, Option.isNone_iff_eq_none] at h
  obtain ⟨⟨⟨⟨⟨⟨⟨rfl, rfl⟩, rfl⟩, rfl⟩, rfl⟩, rfl⟩, rfl⟩, rfl⟩ := h
  rfl

end Aggregates

theorem num_injective : Function.Injective Json.num := fun _ _ h => Json.num.inj h

theorem shared_agree_iff (hsync : InSync c S) (hδ : Built S S' δ) : (handleDelta c δ).shared = (handleSnapshot c S').shared ↔
      (S'.bypassAllPermissions = none → S.bypassAllPermissions ≠ some true) := by
  set patch := (diffAggregates S.toAggregateFields S'.toAggregateFields).getD .none with hpatch
  have hdelta : (handleDelta c δ).shared =
      c.shared.merge patch (patch.bypassAllPermissions.getD c.shared.bypassAllPermissions) := by
    unfold handleDelta
    rw [hδ.aggregates]
  have hfields : patch = {
      totalSpendUsd := diffField .num S.totalSpendUsd S'.totalSpendUsd
      maxActiveTasks := diffField .num S.maxActiveTasks S'.maxActiveTasks
      drainStatus := diffField id S.drainStatus S'.drainStatus
      coordinator := diffField id S.coordinator S'.coordinator
      achievements := diffField id S.achievements S'.achievements
      achievementCounters := diffField id S.achievementCounters S'.achievementCounters
      achievementStreak := diffField id S.achievementStreak S'.achievementStreak
      bypassAllPermissions := diffField .bool S.bypassAllPermissions S'.bypassAllPermissions } := by
    rw [hpatch]
    unfold diffAggregates
    dsimp only
    split
    · rename_i hempty
      exact (AggregateFields.eq_none_of_isEmpty hempty).symm
    · rfl
  have hs := hsync.shared
  have hbypass : c.shared.bypassAllPermissions = decide (S.bypassAllPermissions = some true) :=
    (congrArg bypassAllPermissions hs).symm
  -- the seven sticky fields agree; what is left is the bypass
  have hsame : c.shared.merge patch (decide (S'.bypassAllPermissions = some true)) =
      c.shared.merge S'.toAggregateFields (decide (S'.bypassAllPermissions = some true)) := by
    unfold merge
    rw [hfields]
    congr 1
    · exact diffField_getD num_injective (congrArg totalSpendUsd hs)
    · exact diffField_getD num_injective (congrArg maxActiveTasks hs)
    · exact diffField_getD Function.injective_id (congrArg drainStatus hs)
    · exact diffField_or Function.injective_id (congrArg coordinator hs)
    · exact diffField_getD Function.injective_id (congrArg achievements hs)
    · exact diffField_getD Function.injective_id (congrArg achievementCounters hs)
    · exact diffField_getD Function.injective_id (congrArg achievementStreak hs)
  have hreduce : (handleDelta c δ).shared = (handleSnapshot c S').shared ↔
      patch.bypassAllPermissions.getD c.shared.bypassAllPermissions =
        decide (S'.bypassAllPermissions = some true) := by
    have hsnap : (handleSnapshot c S').shared =
        c.shared.merge S'.toAggregateFields (decide (S'.bypassAllPermissions = some true)) := rfl
    rw [hdelta, hsnap, ← hsame]
    refine ⟨fun h => congrArg bypassAllPermissions h, fun h => by rw [h]⟩
  have hinj : Function.Injective Json.bool := fun _ _ h => Json.bool.inj h
  rw [hreduce, hfields]
  by_cases heq : S.bypassAllPermissions = S'.bypassAllPermissions
  · rw [diffField_of_eq heq, hbypass, heq]
    refine ⟨fun _ hnone => ?_, fun _ => rfl⟩
    rw [hnone]
    nofun
  · rw [diffField_of_ne hinj heq]
    cases hb' : S'.bypassAllPermissions with
    | some v => cases v <;> simp
    | none =>
      rw [hbypass]
      simp

/-- Applied to a client that shows `S`, the delta to `S'` does what `S'` would do exactly
when the delta covers `S'`. -/
theorem delta_agrees_iff (hsync : InSync c S) (hS : DistinctKeys S.agents) (hS' : DistinctKeys S'.agents)
    (h : buildDeltaFromSnapshots S S' = some δ) : SameView (handleDelta c δ) (handleSnapshot c S') ↔ DeltaCovers c S S' := by
  have hδ := built_of_eq h
  have hsession : (handleDelta c δ).session = (handleSnapshot c S').session ↔
      c.session.afterSnapshot S' = c.session := eq_comm
  constructor
  · intro hv
    exact ⟨hsession.1 hv.session, (relations_agree_iff hsync hδ).1 hv.relations,
      (shared_agree_iff hsync hδ).1 hv.shared, (rows_agree_iff hsync hS hS' hδ).1 hv.rows⟩
  · intro hcov
    exact ⟨(rows_agree_iff hsync hS hS' hδ).2 hcov.history, (relations_agree_iff hsync hδ).2 hcov.relations,
      hsession.2 hcov.session, (shared_agree_iff hsync hδ).2 hcov.bypass⟩

namespace StreamClient

/-- Rows have distinct keys, and every delta covers the snapshot it leads to. -/
def Covered (s : StreamClient) : StreamFrame → Prop
  | .snapshot msg => DistinctKeys msg.agents
  | .delta current => DistinctKeys current.agents ∧ ∀ previous, s.shown = some previous →
      DeltaCovers s.store previous current

def Shows (s : StreamClient) : Prop :=
  ∀ S, s.shown = some S → InSync s.store S ∧ DistinctKeys S.agents

theorem Shows.step {s s' : StreamClient} {frame : StreamFrame} (hinv : s.Shows) (hok : s.Covered frame)
    (h : s.step frame = some s') : s'.Shows := by
  cases frame with
  | snapshot msg =>
    cases h
    intro S hS
    cases hS
    exact ⟨inSync_handleSnapshot s.store hok, hok⟩
  | delta current =>
    obtain ⟨hdistinct, hcov⟩ := hok
    simp only [StreamClient.step, bind, Option.bind_eq_some_iff, pure, Option.some.injEq] at h
    obtain ⟨previous, hprev, delta, hdelta, rfl⟩ := h
    intro S hS
    cases hS
    obtain ⟨hsync, hn⟩ := hinv previous hprev
    have hv := (delta_agrees_iff hsync hn hdistinct hdelta).2 (hcov previous hprev)
    have hc := distinct_handleDelta hsync.distinct hdistinct (built_of_eq hdelta)
    exact ⟨(inSync_handleSnapshot s.store hdistinct).of_sameView hc hv, hdistinct⟩

end StreamClient

/-- In every state that snapshots and covered deltas lead to, the delta to the next
snapshot does what the snapshot would do exactly when it covers it. -/
theorem delta_stream_agrees_iff (c₀ : ClientStore) {frames : List StreamFrame} {s : StreamClient}
    (hmeet : StepsMeet StreamClient.step StreamClient.Covered ⟨c₀, none⟩ frames)
    (hrun : exec StreamClient.step ⟨c₀, none⟩ frames = some s) {S S' : SnapshotMessage} {δ : DeltaMessage}
    (hS : s.shown = some S) (hS' : DistinctKeys S'.agents) (hδ : buildDeltaFromSnapshots S S' = some δ) :
    SameView (handleDelta s.store δ) (handleSnapshot s.store S') ↔ DeltaCovers s.store S S' := by
  have hinit : StreamClient.Shows ⟨c₀, none⟩ := by
    intro S hS
    cases hS
  have hinv : s.Shows := exec_invariant (fun _ _ _ hi hok h => hi.step hok h) hinit hmeet hrun
  obtain ⟨hsync, hn⟩ := hinv S hS
  exact delta_agrees_iff hsync hn hS' hδ

theorem delta_stream_agrees_iff_rename : ∃ s δ, exec StreamClient.step ⟨.initial, none⟩
      [.snapshot (plainSnapshot 1 [workingRow "a" (some "t") "draft"])] = some s ∧
    buildDeltaFromSnapshots (plainSnapshot 1 [workingRow "a" (some "t") "draft"])
      (plainSnapshot 2 [workingRow "a" (some "t") "final"]) = some δ ∧ SameView (handleDelta s.store δ)
      (handleSnapshot s.store (plainSnapshot 2 [workingRow "a" (some "t") "final"])) := by
  have hone : ∀ a, DistinctKeys [a] := fun a => List.nodup_singleton _
  have hmeet : StepsMeet StreamClient.step StreamClient.Covered ⟨.initial, none⟩
      [.snapshot (plainSnapshot 1 [workingRow "a" (some "t") "draft"])] := ⟨hone _, fun _ _ => trivial⟩
  refine ⟨_, _, rfl, rfl, ?_⟩
  refine (delta_stream_agrees_iff .initial hmeet rfl rfl (hone _) rfl).2 ?_
  · refine ⟨rfl, fun _ => .inl rfl, nofun, ?_⟩
    intro a ha hfresh
    obtain rfl := List.mem_singleton.1 ha
    exact absurd (List.mem_singleton.2 rfl) hfresh

def engagedSnapshot : SnapshotMessage :=
  { plainSnapshot 2 [] with safeMode := some ⟨true, some "2026-01-01T00:05:00.000Z", none⟩ }

theorem safe_mode_lost_in_delta : ∃ s δ, exec StreamClient.step ⟨.initial, none⟩ [.snapshot (plainSnapshot 1 [])] = some s ∧
    buildDeltaFromSnapshots (plainSnapshot 1 []) engagedSnapshot = some δ ∧
    (handleDelta s.store δ).session.safeMode.engaged = false ∧
    (handleSnapshot s.store engagedSnapshot).session.safeMode.engaged = true ∧
    ¬ SameView (handleDelta s.store δ) (handleSnapshot s.store engagedSnapshot) := by
  refine ⟨_, _, rfl, rfl, rfl, rfl, ?_⟩
  intro hv
  have hsafe := congrArg (fun f => f.safeMode.engaged) hv.session
  cases hsafe

end Kookr.Realtime
