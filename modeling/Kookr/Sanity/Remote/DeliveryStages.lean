import Kookr.Sanity.Remote.PipelineMoves

/-! Where a delivery stands says what it has done. Each delivery records its intent at most
once, and starts `execute` at most once, after its intent. -/

namespace Kookr.Remote

open Kookr.Lib PipelineEffect List

namespace PipelineRun

/-- What the trace shows of delivery `i` when it stands at `pc`. -/
def Stage (trace : List PipelineEffect) (i : ℕ) : PipelinePc → Prop
  | .authorize | .validate => .passed i ∉ trace ∧ .intended i ∉ trace ∧ .started i ∉ trace
  | .appendIntent _ | .intentAppended => .intended i ∈ trace ∧ .started i ∉ trace
  | .execute | .appendAccepted _ _ | .appendAcceptedFailed | .appendRejected _ _ =>
    .intended i ∈ trace ∧ .started i ∈ trace
  | _ => True

variable {cfg : JournalConfig} {s s' : PipelineRun} {e : PipelineEvent} {pc : PipelinePc}

theorem Stage.append {trace effects : List PipelineEffect} {i : ℕ}
    (h : Stage trace i pc) (hne : ∀ x ∈ effects, x.delivery ≠ some i) : Stage (trace ++ effects) i pc := by
  have hold : ∀ x : PipelineEffect, x.delivery = some i → x ∉ trace → x ∉ trace ++ effects := by
    intro x hx hnot hmem
    rcases mem_append.1 hmem with hmem | hmem
    · exact hnot hmem
    · exact hne x hmem hx
  have hkeep : ∀ x : PipelineEffect, x ∈ trace → x ∈ trace ++ effects :=
    fun x hx => mem_append_left _ hx
  unfold Stage at *
  split at h
  · exact ⟨hold _ rfl h.1, hold _ rfl h.2.1, hold _ rfl h.2.2⟩
  · exact ⟨hold _ rfl h.1, hold _ rfl h.2.1, hold _ rfl h.2.2⟩
  · exact ⟨hkeep _ h.1, hold _ rfl h.2⟩
  · exact ⟨hkeep _ h.1, hold _ rfl h.2⟩
  · exact ⟨hkeep _ h.1, hkeep _ h.2⟩
  · exact ⟨hkeep _ h.1, hkeep _ h.2⟩
  · exact ⟨hkeep _ h.1, hkeep _ h.2⟩
  · exact ⟨hkeep _ h.1, hkeep _ h.2⟩
  · trivial

theorem Stage.afterAppend {trace : List PipelineEffect} {i : ℕ} {append : AppendPc}
    {status : AppendStatus} (h : Stage trace i pc) (hp : pc.append = some append) : Stage trace i (afterAppend pc status) := by
  cases pc <;> cases hp <;> cases status <;> trivial

structure StageInv (s : PipelineRun) : Prop where
  bounded : s.TraceBounded
  stage : ∀ i dlv, s.deliveries[i]? = some dlv → Stage s.trace i dlv.pc

theorem StageInv.init (cfg : JournalConfig) (d : Disk) : StageInv (.init cfg d) := by
  refine ⟨.init cfg d, ?_⟩
  intro i dlv hi
  cases hi

/-- Delivery `i` moves from `pc` to `pc'` with effects of its own. -/
theorem StageInv.goto (hinv : StageInv s) {i : ℕ} {request : CommandEnvelope} {pc pc' : PipelinePc}
    (effects : List PipelineEffect) (hi : s.deliveries[i]? = some ⟨request, pc⟩) (hown : ∀ x ∈ effects, x.delivery = some i)
    (hmove : Stage s.trace i pc → Stage (s.trace ++ effects) i pc') :
    ∀ j dlv, (s.deliveries.set i ⟨request, pc'⟩)[j]? = some dlv → Stage (s.trace ++ effects) j dlv.pc := by
  intro j dlv hj
  by_cases hji : j = i
  · subst hji
    obtain ⟨hlt, -⟩ := List.getElem?_eq_some_iff.1 hi
    rw [getElem?_set_self hlt] at hj
    cases hj
    exact hmove (hinv.stage j _ hi)
  · rw [getElem?_set_ne (Ne.symm hji)] at hj
    apply (hinv.stage j dlv hj).append
    intro x hx hxj
    rw [hown x hx] at hxj
    exact hji (Option.some.inj hxj).symm

theorem StageInv.move (hinv : StageInv s) {i : ℕ} {request : CommandEnvelope} {pc pc' : PipelinePc}
    (hi : s.deliveries[i]? = some ⟨request, pc⟩) (hmove : Stage s.trace i pc → Stage s.trace i pc') :
    ∀ j dlv, (s.deliveries.set i ⟨request, pc'⟩)[j]? = some dlv → Stage s.trace j dlv.pc := by
  have hgoto := hinv.goto [] hi (fun _ h => nomatch h) (by rwa [append_nil])
  rwa [append_nil] at hgoto

theorem StageInv.deliver (hinv : StageInv s) {request : CommandEnvelope}
    (hpc : (∀ x ∈ s.trace, x.delivery ≠ some s.deliveries.length) → Stage s.trace s.deliveries.length pc) :
    ∀ j dlv, (s.deliveries ++ [⟨request, pc⟩])[j]? = some dlv → Stage s.trace j dlv.pc := by
  intro j dlv hj
  rcases lt_or_ge j s.deliveries.length with hlt | hge
  · rw [getElem?_append_left hlt] at hj
    exact hinv.stage j dlv hj
  · have hjlen : j = s.deliveries.length := by
      obtain ⟨hlt, -⟩ := List.getElem?_eq_some_iff.1 hj
      simp only [length_append, length_singleton] at hlt
      omega
    subst hjlen
    rw [getElem?_concat_length] at hj
    cases hj
    apply hpc
    intro x hx hxi
    have hlt := hinv.bounded x hx _ hxi
    simp [requests] at hlt

theorem StageInv.step (hinv : StageInv s) (h : s.step cfg e = some s') : StageInv s' := by
  refine ⟨hinv.bounded.step h, ?_⟩
  cases move_of_step h with
  | accept =>
    apply hinv.deliver
    intro hfresh
    exact ⟨fun hx => hfresh _ hx rfl, fun hx => hfresh _ hx rfl, fun hx => hfresh _ hx rfl⟩
  | turnAway => exact hinv.deliver fun _ => trivial
  | authorized hi => exact hinv.move hi id
  | refused hi _ | checkThrew hi _ => exact hinv.move hi fun _ => trivial
  | @validated i request now hi =>
    unfold PipelineRun.validated
    split
    · exact hinv.goto _ hi (by simp [delivery]) fun _ => trivial
    · refine hinv.goto _ hi (by simp [delivery]) ?_
      rintro ⟨-, -, hstarted⟩
      exact ⟨by simp, by simpa using hstarted⟩
  | start hi =>
    refine hinv.goto _ hi (by simp [delivery]) ?_
    rintro ⟨hintended, -⟩
    exact ⟨mem_append_left _ hintended, by simp⟩
  | @succeed i request result now hi =>
    have htrace : ((s.note [.succeeded i]).record i request (acceptedResult request result)
        .appendAccepted now).trace =
          s.trace ++ [.succeeded i, .recorded i (acceptedResult request result)] :=
      append_assoc ..
    rw [htrace]
    refine hinv.goto _ hi (by simp [delivery]) ?_
    rintro ⟨hintended, hstarted⟩
    exact ⟨mem_append_left _ hintended, mem_append_left _ hstarted⟩
  | fail hi hcause =>
    refine hinv.goto _ hi (by simp [delivery]) ?_
    rcases hcause with ⟨rfl, -⟩ | ⟨rfl, -⟩ <;>
    · rintro ⟨hintended, hstarted⟩
      exact ⟨mem_append_left _ hintended, mem_append_left _ hstarted⟩
  | io hi hp => exact hinv.move hi fun hstage => hstage.afterAppend hp
  | revoke =>
    intro j dlv hj
    exact (hinv.stage j dlv hj).append (by simp [delivery])
  | revokeIo => exact hinv.stage

end PipelineRun

def PipelineEffect.startedBy : PipelineEffect → Option ℕ
  | .started i => some i
  | _ => none

theorem PipelineEffect.eq_of_startedBy {x : PipelineEffect} {i : ℕ} (h : x.startedBy = some i) : x = .started i := by
  cases x <;> cases h
  rfl

namespace PipelineRun

/-- The deliveries whose `execute` was started, in order. -/
def starts (s : PipelineRun) : List ℕ := s.trace.filterMap startedBy

theorem mem_starts {trace : List PipelineEffect} {i : ℕ} : i ∈ trace.filterMap startedBy ↔ .started i ∈ trace := by
  rw [mem_filterMap]
  refine ⟨?_, fun h => ⟨_, h, rfl⟩⟩
  rintro ⟨x, hx, hi⟩
  rwa [eq_of_startedBy hi] at hx

structure LifeInv (s : PipelineRun) : Prop extends StageInv s where
  starts_nodup : s.starts.Nodup
  started : ∀ i, .started i ∈ s.trace → .intended i ∈ s.trace
  recorded : ∀ i r, .recorded i r ∈ s.trace → .intended i ∈ s.trace

theorem LifeInv.init (cfg : JournalConfig) (d : Disk) : LifeInv (.init cfg d) :=
  ⟨StageInv.init cfg d, nodup_nil, fun _ h => absurd h not_mem_nil, fun _ _ h => absurd h not_mem_nil⟩

theorem LifeInv.step (hinv : LifeInv s) (h : s.step cfg e = some s') : LifeInv s' := by
  obtain ⟨effects, htrace, hnodup, hocc⟩ := trace_of_step h
  have hstart : ∀ i, .started i ∈ effects → .intended i ∈ s.trace ∧ .started i ∉ s.trace := by
    intro i hi
    obtain ⟨request, hget, -⟩ := hocc _ hi
    exact hinv.stage i _ hget
  refine ⟨hinv.toStageInv.step h, ?_, ?_, ?_⟩
  · unfold starts
    rw [htrace, filterMap_append, nodup_append']
    refine ⟨hinv.starts_nodup, ?_, ?_⟩
    · apply hnodup.filterMap
      intro x y i hx hy
      rw [eq_of_startedBy hx, eq_of_startedBy hy]
    · intro i hold hnew
      exact (hstart i (mem_starts.1 hnew)).2 (mem_starts.1 hold)
  · intro i hi
    rw [htrace] at hi ⊢
    apply mem_append_left
    rcases mem_append.1 hi with hi | hi
    · exact hinv.started i hi
    · exact (hstart i hi).1
  · intro i r hi
    rw [htrace] at hi ⊢
    apply mem_append_left
    rcases mem_append.1 hi with hi | hi
    · exact hinv.recorded i r hi
    · obtain ⟨request, pc, hget, hpc⟩ := hocc _ hi
      have hstage := hinv.stage i _ hget
      rcases hpc with rfl | rfl
      · exact hstage.1
      · exact hstage.1

end PipelineRun

end Kookr.Remote

/-! What `begin` reads of an idempotency entry: that it is there, and its result. -/

namespace Kookr.Remote

open Kookr.Lib

/-- The answer of `begin` for an entry that holds `result`. -/
def replayOf (command : CommandEnvelope) : Option CommandResult → CommandResult
  | some result => { result with commandId := command.commandId }
  | none => ⟨.unknownIntentOnly, command.commandId, command.action, none,
      some "matching command intent has no result yet"⟩

namespace JournalState

/-- Whether a key has an entry, and the result the entry holds. -/
def slot (m : JournalState) (key : String) : Option (Option CommandResult) :=
  (m.idempotency.get key).map IdempotencyEntry.result

variable {cfg : JournalConfig} {m : JournalState} {request : CommandEnvelope} {now : Timestamp}
  {key : String}

theorem slot_set (entries : OrderedMap String IdempotencyEntry) (key key' : String)
    (entry : IdempotencyEntry) :
    ((entries.set key entry).get key').map IdempotencyEntry.result =
      if key = key' then some entry.result else (entries.get key').map IdempotencyEntry.result := by
  rw [OrderedMap.get_set]
  split <;> rfl

theorem slot_prune (hkeep : m.idempotency.has key = true → (m.prune cfg now).idempotency.has key = true) :
    (m.prune cfg now).slot key = m.slot key := by
  unfold slot
  cases hget : (m.prune cfg now).idempotency.get key with
  | some entry => rw [(get_prune hget).1]
  | none =>
    have hnot : m.idempotency.has key = false := by
      by_contra hhas
      have := hkeep (by simpa using hhas)
      simp [OrderedMap.has, hget] at this
    rw [OrderedMap.has, Option.isSome_eq_false_iff, Option.isNone_iff_eq_none] at hnot
    rw [hnot]

theorem begin_of_none (h : (m.prune cfg now).idempotency.get (tupleKey request.toIdempotencyTuple) = none) :
    m.begin cfg request now = (m.prune cfg now, none) := by
  simp [begin, h]

theorem begin_of_some {entry : IdempotencyEntry}
    (h : (m.prune cfg now).idempotency.get (tupleKey request.toIdempotencyTuple) = some entry) :
    m.begin cfg request now =
      ({ m.prune cfg now with
          idempotency := (m.prune cfg now).idempotency.set (tupleKey request.toIdempotencyTuple)
            { entry with lastUsedAt := now.ms } },
        some (replayOf request entry.result)) := by
  cases hres : entry.result <;> simp [begin, h, hres, replayOf]

/-- `begin` answers from the entry of the tuple, and leaves what every entry holds. -/
theorem begin_slot (request : CommandEnvelope)
    (hkeep : m.idempotency.has key = true → (m.prune cfg now).idempotency.has key = true) :
    (m.begin cfg request now).1.slot key = m.slot key ∧ (tupleKey request.toIdempotencyTuple = key →
        (m.begin cfg request now).2 = (m.slot key).map (replayOf request)) := by
  rw [← slot_prune hkeep]
  cases hget : (m.prune cfg now).idempotency.get (tupleKey request.toIdempotencyTuple) with
  | none =>
    rw [begin_of_none hget]
    refine ⟨rfl, ?_⟩
    rintro rfl
    simp [slot, hget]
  | some entry =>
    rw [begin_of_some hget]
    refine ⟨?_, ?_⟩
    · unfold slot
      rw [slot_set]
      split
      · rename_i hk
        rw [← hk, hget]
        rfl
      · rfl
    · rintro rfl
      simp [slot, hget]

theorem appendIntent_slot :
    (m.appendIntent request now).1.slot key =
      if tupleKey request.toIdempotencyTuple = key then some none else m.slot key := by
  exact slot_set ..

theorem appendResult_slot (result : CommandResult) :
    (m.appendResult request result now).1.slot key =
      if tupleKey request.toIdempotencyTuple = key then (m.slot key).map (fun _ => some result)
      else m.slot key := by
  unfold slot appendResult
  cases hget : m.idempotency.get (tupleKey request.toIdempotencyTuple) with
  | none =>
    simp only [hget]
    split
    · rename_i hk
      rw [← hk, hget]
      rfl
    · rfl
  | some entry =>
    simp only [hget]
    rw [slot_set]
    split
    · rename_i hk
      rw [← hk, hget]
      rfl
    · rfl

end JournalState

end Kookr.Remote
