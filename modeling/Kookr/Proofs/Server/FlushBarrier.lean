import Kookr.Sanity.Server.SaveSteps

/-! One save runs at a time, and the file only takes later snapshots, in every run in which no
flush that has waited resumes into the save of another. A flush looks at the save in flight once,
before its wait: of several that wait for one save, the first to resume starts the next save, and
the others start theirs beside it. -/

namespace Kookr.Server.SaveScheduler

open Kookr.Lib List Option

variable {s s' : SaveScheduler} {c k : ℕ} {call : FlushCall} {options : RetryOptions}

def Running (s : SaveScheduler) (k : ℕ) : Prop := ∃ save, s.saves[k]? = some save ∧ save.result = none

/-- At most one save runs, and the snapshots became the file in the order they were taken. -/
def SavesExclude (s : SaveScheduler) : Prop :=
  (∀ i j, s.Running i → s.Running j → i = j) ∧ s.file.Pairwise (· < ·)

/-- The save of another flush that this one waits for. -/
def awaited : FlushStage → Option ℕ
  | .awaitingInFlight p => some p
  | .awaitingOther p => some p
  | _ => none

def startsNext (s : SaveScheduler) (call : FlushCall) : Bool :=
  match call.stage with
  | .awaitingInFlight _ => s.dirty || call.options.force
  | _ => s.dirty

/-- A flush that resumes from the wait for another's save and goes on to start its own finds the
save in flight settled. -/
def StartsAlone (s : SaveScheduler) : Event → Prop
  | .wake c => ∀ call ∈ s.calls[c]?, ∀ p ∈ awaited call.stage, s.result p = some true → s.startsNext call = true →
      ∀ k ∈ s.inFlight, (s.result k).isSome
  | _ => True

instance StartsAlone.decidable (s : SaveScheduler) : (e : Event) → Decidable (StartsAlone s e)
  | .wake c => inferInstanceAs (Decidable (∀ call ∈ s.calls[c]?, ∀ p ∈ awaited call.stage, s.result p = some true →
      s.startsNext call = true → ∀ k ∈ s.inFlight, (s.result k).isSome))
  | .requestSave .. => isTrue trivial
  | .flush .. => isTrue trivial
  | .close => isTrue trivial
  | .timerFires => isTrue trivial
  | .retryTimerFires => isTrue trivial
  | .rename .. => isTrue trivial
  | .settle .. => isTrue trivial
  | .catch .. => isTrue trivial

/-- A save that runs is the one in flight. The file's snapshots are of saves that renamed theirs. -/
structure Exclusive (s : SaveScheduler) : Prop where
  running : ∀ k, s.Running k → s.inFlight = some k
  renamed : ∀ k ∈ s.file, ∃ save, s.saves[k]? = some save ∧ save.renamed = true
  ordered : s.file.Pairwise (· < ·)

section

variable (h : Exclusive s)
include h

theorem Exclusive.setStage (c : ℕ) (stage : FlushStage) : Exclusive (s.setStage c stage) :=
  ⟨h.running, h.renamed, h.ordered⟩

theorem Exclusive.startSave (hidle : ∀ k, ¬ s.Running k) (c : ℕ) (call : FlushCall) : Exclusive (s.startSave c call) := by
  refine ⟨?_, ?_, h.ordered⟩
  · rintro k ⟨save, hsave, hresult⟩
    rcases Nat.lt_trichotomy k s.saves.length with hlt | rfl | hgt
    · exact absurd ⟨save, (getElem?_append_left hlt).symm.trans hsave, hresult⟩ (hidle k)
    · rfl
    · have hlen : k < (s.startSave c call).saves.length := (List.getElem?_eq_some_iff.1 hsave).1
      have hlast := InFlightLast.startSave s c call s.saves.length rfl
      omega
  · intro k hk
    obtain ⟨save, hsave, hrenamed⟩ := h.renamed k hk
    exact ⟨save, (List.getElem?_append_left (List.getElem?_eq_some_iff.1 hsave).1).trans hsave, hrenamed⟩

theorem Exclusive.afterInFlight (hidle : (s.dirty || call.options.force) = true → ∀ k, ¬ s.Running k) (c : ℕ) :
    Exclusive (s.afterInFlight c call) := by
  unfold SaveScheduler.afterInFlight
  split
  · exact h.setStage c .resolved
  · refine h.startSave (hidle ?_) c call
    cases hdirty : s.dirty <;> simp_all

theorem Exclusive.whileDirty (hidle : s.dirty = true → ∀ k, ¬ s.Running k) (c : ℕ) (call : FlushCall) :
    Exclusive (s.whileDirty c call) := by
  unfold SaveScheduler.whileDirty
  split
  · rename_i hdirty
    exact h.startSave (hidle hdirty) c call
  · exact h.setStage c .resolved

theorem Exclusive.saveEnded {ok : Bool} (hresult : s.result k = some ok) : Exclusive (s.saveEnded k ok) := by
  refine ⟨fun i hi => ?_, h.renamed, h.ordered⟩
  have hin := h.running i hi
  unfold SaveScheduler.saveEnded
  dsimp only
  split
  · rename_i hk
    -- the save that ended does not run
    obtain rfl : i = k := some.inj (hin.symm.trans hk)
    obtain ⟨save, hsave, hnone⟩ := hi
    obtain ⟨save', hsave', hok⟩ := result_eq_some hresult
    obtain rfl := some.inj (hsave.symm.trans hsave')
    cases hnone.symm.trans hok
  · exact hin

theorem Exclusive.idle (hin : s.inFlight = none) (k : ℕ) : ¬ s.Running k := by
  intro hk
  cases hin.symm.trans (h.running k hk)

theorem Exclusive.settled (hin : ∀ k ∈ s.inFlight, (s.result k).isSome) (k : ℕ) : ¬ s.Running k := by
  rintro ⟨save, hsave, hnone⟩
  have hsome := hin k (h.running k ⟨save, hsave, hnone⟩)
  have hresult : s.result k = none := by
    unfold result
    rw [hsave]
    exact hnone
  rw [hresult] at hsome
  cases hsome

theorem Exclusive.flush (fromTimer : Bool) (reason : TaskStateSaveReason)
    (options : FlushTaskStateSaveOptions) : Exclusive (s.flush fromTimer reason options) := by
  obtain ⟨call, s₀, -, -, -, hs₀, hflush⟩ := flush_eq s fromTimer reason options
  have hexclusive : Exclusive s₀ := by
    rw [hs₀]
    exact ⟨h.running, h.renamed, h.ordered⟩
  rcases hflush with ⟨k, -, heq⟩ | ⟨hin, heq⟩
  · rw [heq]
    exact hexclusive.setStage _ _
  · rw [heq]
    refine hexclusive.afterInFlight (fun _ => hexclusive.idle ?_) _
    rw [hs₀]
    exact hin

theorem Exclusive.wake (halone : StartsAlone s (.wake c)) (hwake : s.wake c = some s') : Exclusive s' := by
  obtain ⟨call, hcall, hcases⟩ := wake_cases hwake
  have hidle : ∀ p, awaited call.stage = some p → s.result p = some true → s.startsNext call = true →
      ∀ k, ¬ s.Running k := fun p hp hresult hstart => h.settled (halone call hcall p hp hresult hstart)
  rcases hcases with ⟨p, hstage, hresult, rfl⟩ | ⟨p, -, ok, hresult, rfl⟩ | ⟨p, hstage, hresult, rfl⟩ | rfl
  · refine h.afterInFlight (fun hstart => hidle p ?_ hresult ?_) c
    · rw [hstage]
      rfl
    · unfold startsNext
      rw [hstage]
      exact hstart
  · rcases afterSave_cases s c call p ok with ⟨-, heq⟩ | ⟨-, hin, heq⟩ | ⟨-, other, heq⟩
    · rw [heq]
      exact (h.saveEnded hresult).setStage c _
    · rw [heq]
      exact (h.saveEnded hresult).whileDirty (fun _ => (h.saveEnded hresult).idle hin) c call
    · rw [heq]
      exact (h.saveEnded hresult).setStage c _
  · refine h.whileDirty (fun hdirty => hidle p ?_ hresult ?_) c call
    · rw [hstage]
      rfl
    · unfold startsNext
      rw [hstage]
      exact hdirty
  · exact h.setStage c .rejected

theorem Exclusive.rename (hlast : InFlightLast s) (hstep : s.step options (.rename k) = some s') : Exclusive s' := by
  obtain ⟨save, hsave, hresult, hrenamed, rfl⟩ := step_rename hstep
  have hin := hlast k (h.running k ⟨save, hsave, hresult⟩)
  refine ⟨?_, ?_, ?_⟩
  · rintro i ⟨save', hsave', hnone⟩
    refine h.running i ?_
    rw [getElem?_modify] at hsave'
    obtain ⟨old, hold, rfl⟩ := map_eq_some_iff.1 hsave'
    refine ⟨old, hold, ?_⟩
    split at hnone <;> exact hnone
  · intro i hi
    rw [getElem?_modify]
    rcases mem_append.1 hi with hi | hi
    · obtain ⟨old, hold, hren⟩ := h.renamed i hi
      refine ⟨if k = i then { old with renamed := true } else old, congrArg (Option.map _) hold, ?_⟩
      split
      · rfl
      · exact hren
    · obtain rfl := mem_singleton.1 hi
      rw [hsave]
      simp
  · -- the snapshot is of the save started last
    refine pairwise_append.2 ⟨h.ordered, pairwise_singleton _ _, fun i hi j hj => ?_⟩
    obtain rfl := mem_singleton.1 hj
    obtain ⟨old, hold, hren⟩ := h.renamed i hi
    have hlt := (List.getElem?_eq_some_iff.1 hold).1
    have hne : i ≠ j := by
      rintro rfl
      obtain rfl := some.inj (hsave.symm.trans hold)
      cases hrenamed.symm.trans hren
    omega

theorem Exclusive.settle {ok : Bool} (hstep : s.step options (.settle k ok) = some s') : Exclusive s' := by
  obtain ⟨save, hsave, hresult, -, -, rfl⟩ := step_settle hstep
  refine ⟨?_, ?_, h.ordered⟩
  · rintro i ⟨save', hsave', hnone⟩
    refine h.running i ?_
    rw [getElem?_modify] at hsave'
    obtain ⟨old, hold, rfl⟩ := map_eq_some_iff.1 hsave'
    refine ⟨old, hold, ?_⟩
    split at hnone
    · cases hnone
    · exact hnone
  · intro i hi
    obtain ⟨old, hold, hren⟩ := h.renamed i hi
    refine ⟨if k = i then { old with result := some ok } else old, ?_, ?_⟩
    · rw [getElem?_modify, hold]
      rfl
    · split <;> exact hren

theorem Exclusive.step {e : Event} (hlast : InFlightLast s) (halone : StartsAlone s e)
    (hstep : s.step options e = some s') : Exclusive s' := by
  cases e with
  | requestSave reason =>
    cases hstep
    obtain ⟨timer, heq⟩ := requestSave_eq s reason
    rw [heq]
    exact ⟨h.running, h.renamed, h.ordered⟩
  | flush reason flushOptions =>
    cases hstep
    exact h.flush false reason flushOptions
  | close =>
    cases hstep
    exact h.flush false .close {}
  | timerFires =>
    obtain rfl := step_timerFires hstep
    exact flush (s := { s with timer := false }) ⟨h.running, h.renamed, h.ordered⟩ true s.latestReason {}
  | retryTimerFires =>
    obtain rfl := step_retryTimerFires hstep
    exact flush (s := { s with retryTimer := false }) ⟨h.running, h.renamed, h.ordered⟩ true s.latestReason {}
  | rename k => exact h.rename hlast hstep
  | settle k ok => exact h.settle hstep
  | wake c => exact h.wake halone hstep
  | «catch» c now =>
    obtain ⟨-, -, -, rfl⟩ := step_catch hstep
    exact ⟨h.running, h.renamed, h.ordered⟩

end

theorem Exclusive.new : Exclusive .new := by
  refine ⟨?_, nofun, .nil⟩
  rintro k ⟨save, hsave, -⟩
  cases hsave

theorem saves_exclude (options : RetryOptions) {events : List Event} {s : SaveScheduler}
    (halone : StepsMeet (fun s => s.step options) StartsAlone .new events)
    (hrun : exec (fun s => s.step options) .new events = some s) : SavesExclude s := by
  have hinv : ∀ s e s', InFlightLast s ∧ Exclusive s → StartsAlone s e → s.step options e = some s' → InFlightLast s' ∧ Exclusive s' :=
    fun s e s' h hok hstep => ⟨h.1.step hstep, h.2.step h.1 hok hstep⟩
  have hok := exec_invariant hinv ⟨.new, .new⟩ halone hrun
  refine ⟨fun i j hi hj => ?_, hok.2.ordered⟩
  exact some.inj ((hok.2.running i hi).symm.trans (hok.2.running j hj))

/-- A forced flush waits for the save of a request, and starts its own. -/
def forcedRun : List Event :=
  [.requestSave .taskEdgesMutation, .timerFires, .flush .periodic { force := true }, .rename 0, .settle 0 true,
    .wake 0, .wake 1, .rename 1]

theorem saves_exclude_forcedRun : ∃ s, exec (fun s => s.step {}) .new forcedRun = some s ∧
    s.file = [0, 1] ∧ s.Running 1 ∧ SavesExclude s := by
  have halone : StepsMeet (fun s => s.step {}) StartsAlone .new forcedRun := by decide +kernel
  exact ⟨_, rfl, rfl, ⟨_, rfl, rfl⟩, saves_exclude {} halone rfl⟩

/-- Two forced flushes wait for one save. They resume one after the other, and the save of the
second replaces the file first. -/
def overlappingRun : List Event :=
  [.flush .periodic { force := true }, .flush .periodic { force := true }, .flush .flush { force := true },
    .rename 0, .settle 0 true, .wake 0, .wake 1, .wake 2, .rename 2, .rename 1]

theorem saves_overlap : ∃ s, exec (fun s => s.step {}) .new overlappingRun = some s ∧
    s.Running 1 ∧ s.Running 2 ∧ s.file = [0, 2, 1] ∧ ¬ SavesExclude s := by
  refine ⟨_, rfl, ⟨_, rfl, rfl⟩, ⟨_, rfl, rfl⟩, rfl, fun h => ?_⟩
  exact absurd (h.1 1 2 ⟨_, rfl, rfl⟩ ⟨_, rfl, rfl⟩) (by decide)

end Kookr.Server.SaveScheduler

/-! A flush that resolves is a barrier, in every run in which no flush resumes with nothing to save
while a save that took its requests is still open. A flush that has waited for one save finds
nothing dirty when another flush has started the next save in the meantime, and it does not wait
for that one. -/

namespace Kookr.Server.SaveScheduler

open Kookr.Lib

variable {s s' : SaveScheduler} {c k n : ℕ} {call : FlushCall} {options : RetryOptions}

/-- Each of the first `n` requests was made before a save that has succeeded started. -/
def Covered (s : SaveScheduler) (n : ℕ) : Prop := ∀ i < n, ∃ save ∈ s.saves, i < save.covers ∧ save.result = some true

/-- A flush that has resolved has the requests before it covered. -/
def FlushesCover (s : SaveScheduler) : Prop := ∀ call ∈ s.calls, call.stage = .resolved → s.Covered call.asked

instance Covered.decidable (s : SaveScheduler) (n : ℕ) : Decidable (s.Covered n) :=
  inferInstanceAs (Decidable (∀ i < n, ∃ save ∈ s.saves, i < save.covers ∧ save.result = some true))

instance FlushesCover.decidable (s : SaveScheduler) : Decidable (FlushesCover s) :=
  inferInstanceAs (Decidable (∀ call ∈ s.calls, call.stage = .resolved → s.Covered call.asked))

def lastSave (s : SaveScheduler) : Option Save := s.saves[s.saves.length - 1]?

/-- The save that was in flight when the flush was called. -/
def awaitedInFlight : FlushStage → Option ℕ
  | .awaitingInFlight p => some p
  | _ => none

/-- A flush that has waited for a save and then has nothing to save either was called with no
request since that save started, or resumes when the save started last has succeeded. -/
def WaitsForLast (s : SaveScheduler) : Event → Prop
  | .wake c => ∀ call ∈ s.calls[c]?, ∀ p ∈ awaitedInFlight call.stage, s.result p = some true → s.dirty = false →
      call.options.force = false → (∀ save ∈ s.saves[p]?, call.asked ≤ save.covers) ∨ s.lastSave.bind Save.result = some true
  | _ => True

instance WaitsForLast.decidable (s : SaveScheduler) : (e : Event) → Decidable (WaitsForLast s e)
  | .wake c => inferInstanceAs (Decidable (∀ call ∈ s.calls[c]?, ∀ p ∈ awaitedInFlight call.stage,
      s.result p = some true → s.dirty = false → call.options.force = false →
        (∀ save ∈ s.saves[p]?, call.asked ≤ save.covers) ∨ s.lastSave.bind Save.result = some true))
  | .requestSave .. => isTrue trivial
  | .flush .. => isTrue trivial
  | .close => isTrue trivial
  | .timerFires => isTrue trivial
  | .retryTimerFires => isTrue trivial
  | .rename .. => isTrue trivial
  | .settle .. => isTrue trivial
  | .catch .. => isTrue trivial

/-- What a flush has at its stage. -/
def StageOk (s : SaveScheduler) (asked : ℕ) : FlushStage → Prop
  | .saving k => ∃ save, s.saves[k]? = some save ∧ asked ≤ save.covers
  | .awaitingOther _ => s.Covered asked
  | .resolved => s.Covered asked
  | _ => True

/-- While nothing is dirty the save started last covers every request, and it has succeeded when
nothing is in flight. -/
structure Barrier (s : SaveScheduler) : Prop where
  clean : s.dirty = false → s.requests = 0 ∨ ∃ last, s.lastSave = some last ∧ s.requests ≤ last.covers
  idle : s.dirty = false → s.inFlight = none → ∀ last, s.lastSave = some last → last.result = some true
  asked : ∀ call ∈ s.calls, call.asked ≤ s.requests
  stages : ∀ call ∈ s.calls, s.StageOk call.asked call.stage

theorem Covered.mono (h : s.Covered n) (hgrows : Grows s s') : s'.Covered n := by
  intro i hi
  obtain ⟨save, hmem, hlt, hresult⟩ := h i hi
  obtain ⟨k, hk⟩ := List.mem_iff_getElem?.1 hmem
  obtain ⟨save', hk', hcovers, hkept⟩ := hgrows.saves hk
  refine ⟨save', List.mem_of_getElem? hk', hcovers ▸ hlt, ?_⟩
  rw [hkept (hresult ▸ rfl), hresult]

theorem covered_of_save {save : Save} (hsave : s.saves[k]? = some save) (hresult : save.result = some true)
    (hn : n ≤ save.covers) : s.Covered n :=
  fun _ hi => ⟨save, List.mem_of_getElem? hsave, Nat.lt_of_lt_of_le hi hn, hresult⟩

theorem StageOk.mono {stage : FlushStage} (h : s.StageOk n stage) (hgrows : Grows s s') : s'.StageOk n stage := by
  cases stage with
  | saving k =>
    obtain ⟨save, hsave, hle⟩ := h
    obtain ⟨save', hsave', hcovers, -⟩ := hgrows.saves hsave
    exact ⟨save', hsave', hcovers ▸ hle⟩
  | awaitingOther k | resolved => exact Covered.mono h hgrows
  | called | awaitingInFlight k | rejected | caught => trivial

section

variable (h : Barrier s)
include h

theorem Barrier.calls (hgrows : Grows s s') (hcalls : s'.calls = s.calls) :
    (∀ call ∈ s'.calls, call.asked ≤ s'.requests) ∧ ∀ call ∈ s'.calls, s'.StageOk call.asked call.stage := by
  rw [hcalls]
  refine ⟨fun call hcall => ?_, fun call hcall => ?_⟩
  · exact Nat.le_trans (h.asked call hcall) hgrows.requests
  · exact (h.stages call hcall).mono hgrows

theorem Barrier.setStage {stage : FlushStage}
    (hstage : ∀ call, s.calls[c]? = some call → s.StageOk call.asked stage) : Barrier (s.setStage c stage) := by
  refine ⟨h.clean, h.idle, ?_, ?_⟩
  · exact forall_setStage h.asked fun call hcall => h.asked call (List.mem_of_getElem? hcall)
  · refine forall_setStage (fun call hcall => ?_) fun call hcall => ?_
    · exact (h.stages call hcall).mono (.of_eq (Nat.le_refl _) rfl)
    · exact (hstage call hcall).mono (.of_eq (Nat.le_refl _) rfl)

theorem Barrier.startSave (c : ℕ) (call : FlushCall) : Barrier (s.startSave c call) := by
  have hlast : (s.startSave c call).lastSave =
      some ⟨call.reason, call.options.policy, call.options.forceFull, s.requests, false, none⟩ := by
    unfold lastSave SaveScheduler.startSave SaveScheduler.setStage
    simp
  refine ⟨fun _ => .inr ⟨_, hlast, Nat.le_refl _⟩, nofun, ?_, ?_⟩
  · exact forall_setStage h.asked fun call hcall => h.asked call (List.mem_of_getElem? hcall)
  · refine forall_setStage (fun call' hcall => ?_) fun call' hcall => ?_
    · exact (h.stages call' hcall).mono (.startSave s c call)
    · refine ⟨⟨call.reason, call.options.policy, call.options.forceFull, s.requests, false, none⟩, ?_, ?_⟩
      · exact List.getElem?_concat_length
      · exact h.asked call' (List.mem_of_getElem? hcall)

theorem Barrier.whileDirty (hcovered : ∀ call, s.calls[c]? = some call → s.Covered call.asked)
    (call : FlushCall) : Barrier (s.whileDirty c call) := by
  unfold SaveScheduler.whileDirty
  split
  · exact h.startSave c call
  · exact h.setStage hcovered

theorem Barrier.afterInFlight
    (hcovered : s.dirty = false → call.options.force = false → ∀ call, s.calls[c]? = some call → s.Covered call.asked) :
    Barrier (s.afterInFlight c call) := by
  unfold SaveScheduler.afterInFlight
  split
  · rename_i hidle
    simp only [Bool.and_eq_true, Bool.not_eq_true'] at hidle
    exact h.setStage (hcovered hidle.1 hidle.2)
  · exact h.startSave c call

theorem Barrier.saveEnded (hlast : InFlightLast s) {ok : Bool} (hresult : s.result k = some ok) : Barrier (s.saveEnded k ok) := by
  have hdirty : (s.saveEnded k ok).dirty = false → ok = true ∧ s.dirty = false := by
    intro hfalse
    cases ok with
    | true => exact ⟨rfl, hfalse⟩
    | false => cases hfalse
  have hgrows : Grows s (s.saveEnded k ok) := .of_eq (Nat.le_refl _) rfl
  obtain ⟨hasked, hstages⟩ := h.calls hgrows rfl
  refine ⟨fun hfalse => h.clean (hdirty hfalse).2, fun hfalse hnone last hl => ?_, hasked, hstages⟩
  obtain ⟨rfl, hclean⟩ := hdirty hfalse
  by_cases hin : s.inFlight = some k
  · -- it was the save started last
    obtain ⟨save, hsave, hok⟩ := result_eq_some hresult
    have hk := hlast k hin
    have hl' : s.saves[s.saves.length - 1]? = some last := hl
    rw [← hk, Nat.add_sub_cancel, hsave] at hl'
    cases hl'
    exact hok
  · unfold SaveScheduler.saveEnded at hnone
    rw [if_neg hin] at hnone
    exact h.idle hclean hnone last hl

theorem Barrier.covered (hdirty : s.dirty = false)
    (hlast : ∀ last, s.lastSave = some last → last.result = some true) (hn : n ≤ s.requests) : s.Covered n := by
  rcases h.clean hdirty with hzero | ⟨last, hl, hcovers⟩
  · intro i hi
    omega
  · exact covered_of_save hl (hlast last hl) (Nat.le_trans hn hcovers)

theorem Barrier.flush (fromTimer : Bool) (reason : TaskStateSaveReason)
    (options : FlushTaskStateSaveOptions) : Barrier (s.flush fromTimer reason options) := by
  obtain ⟨call, s₀, hasked, -, hcalled, hs₀, hflush⟩ := flush_eq s fromTimer reason options
  have hgrows : Grows s s₀ := by
    rw [hs₀]
    exact .of_eq (Nat.le_refl _) rfl
  have hbarrier : Barrier s₀ := by
    rw [hs₀]
    rw [hs₀] at hgrows
    refine ⟨h.clean, h.idle, ?_, ?_⟩ <;> refine List.forall_mem_append.2 ⟨?_, List.forall_mem_singleton.2 ?_⟩
    · exact h.asked
    · exact Nat.le_of_eq hasked
    · exact fun call hcall => (h.stages call hcall).mono hgrows
    · rw [hcalled]
      trivial
  rcases hflush with ⟨k, -, heq⟩ | ⟨hin, heq⟩
  · rw [heq]
    exact hbarrier.setStage fun _ _ => trivial
  · rw [heq]
    refine hbarrier.afterInFlight fun hdirty _ call' hcall => ?_
    refine hbarrier.covered hdirty (hbarrier.idle hdirty ?_) (hbarrier.asked call' (List.mem_of_getElem? hcall))
    rw [hs₀]
    exact hin

theorem Barrier.wake (hlast : InFlightLast s) (hwaits : WaitsForLast s (.wake c)) (hwake : s.wake c = some s') : Barrier s' := by
  obtain ⟨call, hcall, hcases⟩ := wake_cases hwake
  have hthis : ∀ {call'}, s.calls[c]? = some call' → call' = call := fun hcall' => Option.some.inj (hcall'.symm.trans hcall)
  have hmem := List.mem_of_getElem? hcall
  rcases hcases with ⟨p, hstage, hresult, rfl⟩ | ⟨p, hstage, ok, hresult, rfl⟩ | ⟨p, hstage, -, rfl⟩ | rfl
  · refine h.afterInFlight fun hdirty hforce call' hcall' => ?_
    obtain rfl := hthis hcall'
    obtain ⟨save, hsave, hok⟩ := result_eq_some hresult
    rcases hwaits call' hcall p (hstage ▸ rfl) hresult hdirty hforce with hbefore | hdone
    · exact covered_of_save hsave hok (hbefore save hsave)
    · refine h.covered hdirty (fun last hl => ?_) (h.asked call' hmem)
      rw [hl] at hdone
      exact hdone
  · obtain ⟨save, hsave, hle⟩ : s.StageOk call.asked (.saving p) := hstage ▸ h.stages call hmem
    obtain ⟨save', hsave', hok⟩ := result_eq_some hresult
    obtain rfl := Option.some.inj (hsave.symm.trans hsave')
    have hended := h.saveEnded hlast hresult
    rcases afterSave_cases s c call p ok with ⟨-, heq⟩ | ⟨rfl, -, heq⟩ | ⟨rfl, other, heq⟩
    · rw [heq]
      exact hended.setStage fun _ _ => trivial
    · rw [heq]
      refine hended.whileDirty (fun call' hcall' => ?_) call
      obtain rfl := hthis hcall'
      exact covered_of_save hsave hok hle
    · rw [heq]
      refine hended.setStage fun call' hcall' => ?_
      obtain rfl := hthis hcall'
      exact covered_of_save (s := s.saveEnded p true) hsave hok hle
  · refine h.whileDirty (fun call' hcall' => ?_) call
    obtain rfl := hthis hcall'
    have hcovered := h.stages call' hmem
    rw [hstage] at hcovered
    exact hcovered
  · exact h.setStage fun _ _ => trivial

theorem Barrier.modify {f : Save → Save} {save : Save}
    (hsave : s.saves[k]? = some save) (hresult : save.result = none) (hcovers : ∀ save, (f save).covers = save.covers)
    (hsaves : s'.saves = s.saves.modify k f) (hrest : s' = { s with
      saves := s'.saves, file := s'.file, retryAttempt := s'.retryAttempt, retryStartedAtMs := s'.retryStartedAtMs }) :
    Barrier s' := by
  have hdirty : s'.dirty = s.dirty := by rw [hrest]
  have hin : s'.inFlight = s.inFlight := by rw [hrest]
  have hrequests : s'.requests = s.requests := by rw [hrest]
  have hcalls : s'.calls = s.calls := by rw [hrest]
  have hgrows : Grows s s' := .modify hsave hresult hcovers hrequests hsaves
  have hget : s'.lastSave = (fun save => if k = s.saves.length - 1 then f save else save) <$> s.lastSave := by
    unfold lastSave
    rw [hsaves, List.length_modify, List.getElem?_modify]
  obtain ⟨hasked, hstages⟩ := h.calls hgrows hcalls
  refine ⟨fun hclean => ?_, fun hclean hnone last hl => ?_, hasked, hstages⟩
  · rw [hdirty] at hclean
    rcases h.clean hclean with hzero | ⟨last, hl, hle⟩
    · exact .inl (hrequests.trans hzero)
    · rw [hget, hl]
      refine .inr ⟨_, rfl, ?_⟩
      rw [hrequests]
      split
      · rw [hcovers]
        exact hle
      · exact hle
  · rw [hdirty] at hclean
    rw [hin] at hnone
    rw [hget] at hl
    obtain ⟨old, hold, rfl⟩ := Option.map_eq_some_iff.1 hl
    have hdone := h.idle hclean hnone old hold
    split
    · -- the last save has a result
      rename_i hk
      have hold' : s.saves[s.saves.length - 1]? = some old := hold
      rw [← hk, hsave] at hold'
      cases hold'
      cases hresult.symm.trans hdone
    · exact hdone

theorem Barrier.step {e : Event} (hlast : InFlightLast s) (hwaits : WaitsForLast s e)
    (hstep : s.step options e = some s') : Barrier s' := by
  cases e with
  | requestSave reason =>
    cases hstep
    obtain ⟨timer, heq⟩ := requestSave_eq s reason
    rw [heq]
    have hgrows : Grows s { s with requests := s.requests + 1, dirty := true, latestReason := reason, timer } :=
      .of_eq (Nat.le_succ _) rfl
    have hcalls := h.calls hgrows rfl
    exact ⟨nofun, nofun, hcalls.1, hcalls.2⟩
  | flush reason flushOptions =>
    cases hstep
    exact h.flush false reason flushOptions
  | close =>
    cases hstep
    exact h.flush false .close {}
  | timerFires =>
    obtain rfl := step_timerFires hstep
    exact flush (s := { s with timer := false }) ⟨h.clean, h.idle, h.asked, h.stages⟩ true s.latestReason {}
  | retryTimerFires =>
    obtain rfl := step_retryTimerFires hstep
    exact flush (s := { s with retryTimer := false }) ⟨h.clean, h.idle, h.asked, h.stages⟩ true s.latestReason {}
  | rename k =>
    obtain ⟨save, hsave, hresult, -, rfl⟩ := step_rename hstep
    exact h.modify (f := fun save => { save with renamed := true }) hsave hresult (fun _ => rfl) rfl rfl
  | settle k ok =>
    obtain ⟨save, hsave, hresult, -, -, rfl⟩ := step_settle hstep
    exact h.modify (f := fun save => { save with result := some ok }) hsave hresult (fun _ => rfl) rfl rfl
  | wake c => exact h.wake hlast hwaits hstep
  | «catch» c now =>
    obtain ⟨-, -, -, rfl⟩ := step_catch hstep
    have hcaught : Barrier (s.setStage c .caught) := h.setStage fun _ _ => trivial
    exact ⟨hcaught.clean, hcaught.idle, hcaught.asked, hcaught.stages⟩

end

theorem Barrier.new : Barrier .new := by
  refine ⟨fun _ => .inl rfl, fun _ _ last hl => ?_, fun _ h => absurd h List.not_mem_nil, fun _ h => absurd h List.not_mem_nil⟩
  cases hl

theorem resolved_flush_covers (options : RetryOptions) {events : List Event} {s : SaveScheduler}
    (hwaits : StepsMeet (fun s => s.step options) WaitsForLast .new events)
    (hrun : exec (fun s => s.step options) .new events = some s) : FlushesCover s := by
  have hinv : ∀ s e s', InFlightLast s ∧ Barrier s → WaitsForLast s e → s.step options e = some s' → InFlightLast s' ∧ Barrier s' :=
    fun s e s' h hok hstep => ⟨h.1.step hstep, h.2.step h.1 hok hstep⟩
  have hok := exec_invariant hinv ⟨.new, .new⟩ hwaits hrun
  intro call hcall hresolved
  have hcovered := hok.2.stages call hcall
  rw [hresolved] at hcovered
  exact hcovered

/-- `close` is called while the save of the only request runs. It resolves when a later request
has started the next save. -/
def barrierRun : List Event :=
  [.requestSave .taskEdgesMutation, .timerFires, .close, .requestSave .taskRelationMutation, .rename 0, .settle 0 true,
    .wake 0, .wake 1]

theorem resolved_flush_covers_barrierRun : ∃ s, exec (fun s => s.step {}) .new barrierRun = some s ∧
    (s.calls.map fun call => (call.asked, call.stage)) = [(1, .saving 1), (1, .resolved)] ∧ FlushesCover s := by
  have hwaits : StepsMeet (fun s => s.step {}) WaitsForLast .new barrierRun := by decide +kernel
  exact ⟨_, rfl, rfl, resolved_flush_covers {} hwaits rfl⟩

/-- Two flushes wait for one save. The first to resume starts the save of the second request, and
the other resolves while that save runs. -/
def unfinishedRun : List Event :=
  [.requestSave .taskEdgesMutation, .flush .flush {}, .requestSave .taskRelationMutation, .close, .rename 0,
    .settle 0 true, .wake 0, .wake 1]

theorem close_resolves_uncovered : ∃ s, exec (fun s => s.step {}) .new unfinishedRun = some s ∧
    (s.calls.map fun call => (call.asked, call.stage)) = [(1, .saving 1), (2, .resolved)] ∧
    (s.saves.map fun save => (save.covers, save.result)) = [(1, some true), (2, none)] ∧ ¬ FlushesCover s := by
  decide +kernel

end Kookr.Server.SaveScheduler
