import Kookr.Lib.Exec
import Kookr.Lib.MapRelation
import Kookr.Spec.Core.ReapWarnings
import Mathlib.Logic.Function.Basic

/-! A warned task is left the time that was announced, and no more than its vetoes and the dashboard can give it. -/

namespace Kookr.Core

open Kookr.Lib Function

/-- The grace that a warning was raised with, and the vetoes of it that were accepted. -/
structure ReapPromise where
  graceMs : ℤ
  vetoes : List ℤ

structure ReapRun where
  coordinator : ReapWarningCoordinator
  clock : ℤ
  promises : String → ReapPromise

/-- The calls; the grace is the setting at the time, in seconds, before it is clamped. -/
inductive ReapCall where
  | advance (taskId agentId : String) (silentForMs now : ℤ) (graceSeconds : ℚ) (present : Bool)
  | applyPresence (taskId : String) (present : Bool) (now : ℤ) (graceSeconds : ℚ)
  | veto (taskId : String) (now : ℤ)
  | clear (taskId : String) (reason : ReapWarningClearedReason)
  | clearAll

def ReapCall.now : ReapCall → Option ℤ
  | advance _ _ _ now _ _ | applyPresence _ _ now _ | veto _ now => some now
  | _ => none

def graceMs (graceSeconds : ℚ) : ℤ := clampReapGraceSeconds graceSeconds * 1000

theorem graceMs_bounds (graceSeconds : ℚ) : 0 ≤ graceMs graceSeconds ∧ graceMs graceSeconds ≤ REAP_VETO_EXTENSION_MS := by
  unfold graceMs clampReapGraceSeconds MIN_REAP_GRACE_SECONDS MAX_REAP_GRACE_SECONDS REAP_VETO_EXTENSION_MS
  omega

def ReapWarningMetrics.removed (m : ReapWarningMetrics) : ℕ :=
  m.expiredToReapTotal + (m.clearedRecoveredTotal + m.clearedGoneTotal + m.clearedStaleTotal + m.clearedDisabledTotal)

namespace ReapRun

variable {s s' : ReapRun}

def start (clock : ℤ) : ReapRun := ⟨.new, clock, fun _ => ⟨0, []⟩⟩

def perform (s : ReapRun) : ReapCall → ReapRun
  | .advance taskId agentId silentForMs now graceSeconds present =>
    match s.coordinator.advance ⟨taskId, agentId, silentForMs, now, graceMs graceSeconds, present⟩ with
    | (.warn _, coordinator) => { s with coordinator, promises := update s.promises taskId ⟨graceMs graceSeconds, []⟩ }
    | (_, coordinator) => { s with coordinator }
  | .applyPresence taskId present now graceSeconds =>
    { s with coordinator := s.coordinator.applyPresence taskId present now (graceMs graceSeconds) MAX_PRESENCE_HOLD_MS }
  | .veto taskId now =>
    match s.coordinator.veto taskId now REAP_VETO_EXTENSION_MS with
    | (.accepted _, coordinator) =>
      let promise := s.promises taskId
      { s with coordinator, promises := update s.promises taskId { promise with vetoes := promise.vetoes ++ [now] } }
    | (_, coordinator) => { s with coordinator }
  | .clear taskId reason => { s with coordinator := (s.coordinator.clear taskId (some reason)).2 }
  | .clearAll => { s with coordinator := s.coordinator.clearAll.2 }

/-- The clock does not go back. -/
def step (s : ReapRun) (c : ReapCall) : Option ReapRun :=
  let now := c.now.getD s.clock
  if s.clock ≤ now then some { s.perform c with clock := now } else none

structure Promised (clock : ℤ) (p : ReapPromise) (w : ReapWarning) : Prop where
  warned : w.warnedAt ≤ clock
  soon : w.deadlineAt ≤ clock + REAP_VETO_EXTENSION_MS
  grace : w.warnedAt + p.graceMs ≤ w.deadlineAt
  vetoed : ∀ veto ∈ p.vetoes, veto + REAP_VETO_EXTENSION_MS ≤ w.deadlineAt
  bounded : w.deadlineAt ≤ w.warnedAt + MAX_PRESENCE_HOLD_MS ∨ ∃ veto ∈ p.vetoes.getLast?, w.deadlineAt ≤ veto + REAP_VETO_EXTENSION_MS
  counted : w.keptAliveCount = p.vetoes.length
  capped : p.vetoes.length ≤ MAX_REAP_VETOES

/-- Every warning is within its bounds, and each that was raised is there or counted as removed. -/
structure Kept (s : ReapRun) : Prop where
  promised : ∀ id w, s.coordinator.warnings.get id = some w → Promised s.clock (s.promises id) w
  raised : s.coordinator.metrics.warningsRaisedTotal = s.coordinator.warnings.size + s.coordinator.metrics.removed

def Extends (s s' : ReapRun) : Prop :=
  ∀ id w w', s.coordinator.warnings.get id = some w → s'.coordinator.warnings.get id = some w' → w.deadlineAt ≤ w'.deadlineAt

def Goes (s s' : ReapRun) : Prop := s'.Kept ∧ Extends s s'

variable {clock now : ℤ} {p : ReapPromise} {w : ReapWarning}

theorem Promised.later (h : Promised clock p w) (hnow : clock ≤ now) : Promised now p w :=
  ⟨h.warned.trans hnow, h.soon.trans (by omega), h.grace, h.vetoed, h.bounded, h.counted, h.capped⟩

theorem Promised.presence (h : Promised clock p w) (hnow : clock ≤ now) (present : Bool) (graceSeconds : ℚ) :
    Promised now p (w.applyPresenceTo present now (graceMs graceSeconds) MAX_PRESENCE_HOLD_MS) ∧
      w.deadlineAt ≤ (w.applyPresenceTo present now (graceMs graceSeconds) MAX_PRESENCE_HOLD_MS).deadlineAt := by
  obtain ⟨hwarned, hsoon, hgrace, hvetoed, hbounded, hcounted, hcapped⟩ := h.later hnow
  have hmost := (graceMs_bounds graceSeconds).2
  unfold ReapWarning.applyPresenceTo
  dsimp only
  split
  · refine ⟨⟨hwarned, ?_, ?_, fun veto hveto => (hvetoed veto hveto).trans (le_max_left _ _), ?_, hcounted, hcapped⟩, le_max_left _ _⟩
    · exact max_le hsoon ((min_le_left _ _).trans (by omega))
    · exact hgrace.trans (le_max_left _ _)
    · rcases max_choice w.deadlineAt (min (now + graceMs graceSeconds) (w.warnedAt + MAX_PRESENCE_HOLD_MS)) with hold | hpushed
      · rwa [hold]
      · rw [hpushed]
        exact .inl (min_le_right _ _)
  · exact ⟨⟨hwarned, hsoon, hgrace, hvetoed, hbounded, hcounted, hcapped⟩, le_refl _⟩

theorem promised_new (taskId agentId : String) (silentForMs now : ℤ) (graceSeconds : ℚ) (present : Bool) :
    Promised now ⟨graceMs graceSeconds, []⟩ ((⟨taskId, agentId, now, now + graceMs graceSeconds, silentForMs, 0, false⟩ : ReapWarning).applyPresenceTo
      present now (graceMs graceSeconds) MAX_PRESENCE_HOLD_MS) := by
  have hmost := (graceMs_bounds graceSeconds).2
  have hnew : Promised now ⟨graceMs graceSeconds, []⟩ ⟨taskId, agentId, now, now + graceMs graceSeconds, silentForMs, 0, false⟩ :=
    ⟨le_refl now, by dsimp only; omega, le_refl _, by simp, .inl (by unfold MAX_PRESENCE_HOLD_MS; unfold REAP_VETO_EXTENSION_MS at hmost; dsimp only; omega),
      rfl, Nat.zero_le _⟩
  exact (hnew.presence (le_refl now) present graceSeconds).1

theorem Promised.veto (h : Promised clock p w) (hnow : clock ≤ now) (hcap : ¬MAX_REAP_VETOES ≤ w.keptAliveCount) :
    Promised now { p with vetoes := p.vetoes ++ [now] }
      { w with keptAliveCount := w.keptAliveCount + 1, deadlineAt := now + REAP_VETO_EXTENSION_MS, heldByPresence := false } ∧
      w.deadlineAt ≤ now + REAP_VETO_EXTENSION_MS := by
  obtain ⟨hwarned, hsoon, hgrace, hvetoed, -, hcounted, -⟩ := h.later hnow
  refine ⟨⟨hwarned, le_refl _, hgrace.trans hsoon, fun veto hveto => ?_, .inr ⟨now, by simp, le_refl _⟩, ?_, ?_⟩, hsoon⟩
  · rcases List.mem_append.1 hveto with hold | hnew
    · exact (hvetoed veto hold).trans hsoon
    · rw [List.mem_singleton.1 hnew]
  · simp [hcounted]
  · rw [List.length_append, List.length_singleton]
    omega

theorem size_eq_countWhere (m : OrderedMap String ReapWarning) : m.size = m.countWhere fun _ => true := by
  simp [OrderedMap.size, OrderedMap.countWhere]

theorem Kept.set (h : s.Kept) {id : String} {w' : ReapWarning} {promises : String → ReapPromise} (hnow : s.clock ≤ now)
    (hget : s.coordinator.warnings.get id = some w) (hw : Promised now (promises id) w' ∧ w.deadlineAt ≤ w'.deadlineAt)
    (hpromises : ∀ other, other ≠ id → promises other = s.promises other) (vetoedTotal : ℕ) :
    Goes s ⟨⟨s.coordinator.warnings.set id w', { s.coordinator.metrics with vetoedTotal }⟩, now, promises⟩ := by
  refine ⟨⟨fun other v hv => ?_, ?_⟩, fun other v v' hv hv' => ?_⟩
  · dsimp only at hv ⊢
    rw [OrderedMap.get_set] at hv
    split at hv
    · next heq =>
      cases hv
      exact heq ▸ hw.1
    · next hne =>
      rw [hpromises other (Ne.symm hne)]
      exact (h.promised other v hv).later hnow
  · have hsize := OrderedMap.countWhere_set (v := w') (fun _ => true) hget
    rw [← size_eq_countWhere, ← size_eq_countWhere] at hsize
    exact h.raised.trans (congrArg (· + _) (Nat.add_right_cancel hsize).symm)
  · rw [OrderedMap.get_set] at hv'
    split at hv'
    · next heq =>
      cases heq
      cases hget.symm.trans hv
      cases hv'
      exact hw.2
    · cases hv.symm.trans hv'
      exact le_refl _

theorem Kept.remove (h : s.Kept) {id : String} (hnow : s.clock ≤ now) (hget : s.coordinator.warnings.get id = some w)
    {metrics : ReapWarningMetrics} (hraised : metrics.warningsRaisedTotal = s.coordinator.metrics.warningsRaisedTotal)
    (hremoved : metrics.removed = s.coordinator.metrics.removed + 1) :
    Goes s ⟨⟨s.coordinator.warnings.delete id, metrics⟩, now, s.promises⟩ := by
  refine ⟨⟨fun other v hv => ?_, ?_⟩, fun other v v' hv hv' => ?_⟩
  · exact (h.promised other v (OrderedMap.get_delete_some hv).2).later hnow
  · have hsize := OrderedMap.countWhere_delete (fun _ => true) hget
    rw [← size_eq_countWhere, ← size_eq_countWhere] at hsize
    have hbefore := h.raised
    dsimp only [Bool.toNat_true] at hsize ⊢
    omega
  · cases hv.symm.trans (OrderedMap.get_delete_some hv').2
    exact le_refl _

theorem Kept.later (h : s.Kept) (hnow : s.clock ≤ now) (vetoRejectedTotal : ℕ) :
    Goes s ⟨{ s.coordinator with metrics.vetoRejectedTotal := vetoRejectedTotal }, now, s.promises⟩ := by
  refine ⟨⟨fun id w hw => (h.promised id w hw).later hnow, h.raised⟩, fun id w w' hw hw' => ?_⟩
  cases hw.symm.trans hw'
  exact le_refl _

theorem Kept.raise (h : s.Kept) (hnow : s.clock ≤ now) {id : String} (hget : s.coordinator.warnings.get id = none) {p : ReapPromise}
    (hw : Promised now p w) :
    Goes s ⟨⟨s.coordinator.warnings.set id w, { s.coordinator.metrics with
      warningsRaisedTotal := s.coordinator.metrics.warningsRaisedTotal + 1 }⟩, now, update s.promises id p⟩ := by
  refine ⟨⟨fun other v hv => ?_, ?_⟩, fun other v v' hv hv' => ?_⟩
  · rcases OrderedMap.get_set_some hv with ⟨rfl, rfl⟩ | ⟨hne, hv⟩
    · dsimp only
      rwa [update_self]
    · dsimp only
      rw [update_of_ne (Ne.symm hne)]
      exact (h.promised other v hv).later hnow
  · have hsize := OrderedMap.countWhere_set_new (v := w) (fun _ => true) hget
    rw [← size_eq_countWhere, ← size_eq_countWhere] at hsize
    have hbefore := h.raised
    rw [hsize, hbefore]
    exact Nat.add_right_comm _ _ _
  · rcases OrderedMap.get_set_some hv' with ⟨rfl, rfl⟩ | ⟨-, hv'⟩
    · cases hget.symm.trans hv
    · cases hv.symm.trans hv'
      exact le_refl _

theorem kept_step (h : s.Kept) {c : ReapCall} (hstep : s.step c = some s') : Goes s s' := by
  unfold step at hstep
  rw [Option.ite_none_right_eq_some] at hstep
  obtain ⟨hnow, hstep⟩ := hstep
  obtain rfl := Option.some.inj hstep
  cases c with
  | advance taskId agentId silentForMs now graceSeconds present =>
    unfold perform ReapWarningCoordinator.advance
    dsimp only
    cases hget : s.coordinator.warnings.get taskId with
    | none => exact h.raise hnow hget (promised_new taskId agentId silentForMs now graceSeconds present)
    | some w =>
      obtain ⟨hwarned, hsoon, hgrace, hvetoed, hbounded, hcounted, hcapped⟩ := h.promised taskId w hget
      have hfresh : Promised s.clock (s.promises taskId) { w with silentForMs, agentId } :=
        ⟨hwarned, hsoon, hgrace, hvetoed, hbounded, hcounted, hcapped⟩
      dsimp only
      split_ifs
      · exact h.remove hnow hget rfl (Nat.add_right_comm _ _ _)
      · exact h.set hnow hget (hfresh.presence hnow present graceSeconds) (fun _ _ => rfl) _
  | applyPresence taskId present now graceSeconds =>
    unfold perform ReapWarningCoordinator.applyPresence
    dsimp only
    cases hget : s.coordinator.warnings.get taskId with
    | none => exact h.later hnow _
    | some w => exact h.set hnow hget ((h.promised taskId w hget).presence hnow present graceSeconds) (fun _ _ => rfl) _
  | veto taskId now =>
    unfold perform ReapWarningCoordinator.veto
    dsimp only
    cases hget : s.coordinator.warnings.get taskId with
    | none => exact h.later hnow _
    | some w =>
      dsimp only
      split_ifs with hcap
      · exact h.later hnow _
      · refine h.set hnow hget ?_ (fun other hother => update_of_ne hother _ _) _
        dsimp only
        rw [update_self]
        exact (h.promised taskId w hget).veto hnow hcap
  | clear taskId reason =>
    unfold perform ReapWarningCoordinator.clear
    dsimp only
    cases hget : s.coordinator.warnings.get taskId with
    | none => exact h.later hnow _
    | some w =>
      refine h.remove hnow hget ?_ ?_ <;> cases reason <;> first | rfl | (simp only [ReapWarningMetrics.removed]; omega)
  | clearAll =>
    refine ⟨⟨nofun, ?_⟩, nofun⟩
    have hraised := h.raised
    simp only [perform, ReapWarningCoordinator.clearAll, ReapWarningMetrics.removed] at hraised ⊢
    have hempty : (OrderedMap.empty : OrderedMap String ReapWarning).size = 0 := rfl
    omega

theorem kept_start (clock : ℤ) : (start clock).Kept := ⟨nofun, rfl⟩

/-- In every run a deadline moves only forward, a task is reaped after the grace that its warning was raised with and ten minutes
after each veto, no later than the dashboard and three vetoes allow, and every warning that was raised is there or counted. -/
theorem reap_promise_kept {clock : ℤ} {calls : List ReapCall} (hrun : exec step (start clock) calls = some s) :
    s.Kept ∧ (∀ c s', s.step c = some s' → Extends s s') ∧
      ∀ taskId agentId silentForMs now graceSeconds present w coordinator, s.clock ≤ now →
        s.coordinator.advance ⟨taskId, agentId, silentForMs, now, graceMs graceSeconds, present⟩ = (.reap w, coordinator) →
        w.deadlineAt ≤ now ∧ w.warnedAt + (s.promises taskId).graceMs ≤ now ∧ ∀ veto ∈ (s.promises taskId).vetoes, veto + REAP_VETO_EXTENSION_MS ≤ now := by
  have h : s.Kept := exec_preserves (fun _ _ _ h hstep => (kept_step h hstep).1) (kept_start clock) hrun
  refine ⟨h, fun c s' hstep => (kept_step h hstep).2, ?_⟩
  intro taskId agentId silentForMs now graceSeconds present w coordinator hnow hreap
  unfold ReapWarningCoordinator.advance at hreap
  cases hget : s.coordinator.warnings.get taskId with
  | none =>
    rw [hget] at hreap
    cases hreap
  | some before =>
    obtain ⟨hwarned, hsoon, hgrace, hvetoed, hbounded, hcounted, hcapped⟩ := h.promised taskId before hget
    have hfresh : Promised s.clock (s.promises taskId) { before with silentForMs, agentId } :=
      ⟨hwarned, hsoon, hgrace, hvetoed, hbounded, hcounted, hcapped⟩
    rw [hget] at hreap
    dsimp only at hreap
    split_ifs at hreap with hdeadline
    · obtain rfl := ReapAdvance.reap.inj (Prod.mk.inj hreap).1
      have hlast := (hfresh.presence hnow present graceSeconds).1
      exact ⟨hdeadline, hlast.grace.trans hdeadline, fun veto hveto => (hlast.vetoed veto hveto).trans hdeadline⟩
    · cases (Prod.mk.inj hreap).1

/-- A warning is raised, vetoed and held, and the task is reaped. -/
def vetoedCalls : List ReapCall :=
  [.advance "a" "s" 0 0 120 false, .veto "a" 60000, .applyPresence "a" true 70000 600, .advance "a" "s" 0 800000 120 false]

theorem reap_promise_kept_vetoedCalls : ∃ s, exec step (start 0) vetoedCalls = some s ∧ s.coordinator.metrics.expiredToReapTotal = 1 ∧ s.Kept := by
  have hreaped : (exec step (start 0) vetoedCalls).any (fun s => s.coordinator.metrics.expiredToReapTotal = 1) = true := by decide +kernel
  obtain ⟨s, hrun, hreaped⟩ := (Option.any_eq_true _ _).1 hreaped
  exact ⟨s, hrun, of_decide_eq_true hreaped, (reap_promise_kept hrun).1⟩

end ReapRun

end Kookr.Core
