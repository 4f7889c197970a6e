import Kookr.Lib.OrderedMap
import Mathlib.Data.Rat.Floor

/-! Warnings before a task that hangs is reaped (`src/core/reap-warning-coordinator.ts`). Times are in milliseconds. What only the
views of a warning show is left out. -/

namespace Kookr.Core

open Kookr.Lib

def MIN_REAP_GRACE_SECONDS : ℤ := 10
def MAX_REAP_GRACE_SECONDS : ℤ := 600
def REAP_VETO_EXTENSION_MS : ℤ := 10 * 60000
def MAX_REAP_VETOES : ℕ := 3
def MAX_PRESENCE_HOLD_MS : ℤ := 15 * 60000

structure ReapWarning where
  taskId : String
  agentId : String
  warnedAt : ℤ
  deadlineAt : ℤ
  silentForMs : ℤ
  keptAliveCount : ℕ
  heldByPresence : Bool

inductive ReapAdvance where
  | warn (warning : ReapWarning)
  | wait (warning : ReapWarning)
  | reap (warning : ReapWarning)

inductive ReapWarningClearedReason where
  | recovered | gone | stale | disabled

inductive ReapVetoResult where
  | accepted (warning : ReapWarning)
  | noWarning
  | capReached

structure ReapWarningMetrics where
  warningsRaisedTotal : ℕ
  vetoedTotal : ℕ
  vetoRejectedTotal : ℕ
  expiredToReapTotal : ℕ
  clearedRecoveredTotal : ℕ
  clearedGoneTotal : ℕ
  clearedStaleTotal : ℕ
  clearedDisabledTotal : ℕ

structure ReapWarningCoordinator where
  warnings : OrderedMap String ReapWarning
  metrics : ReapWarningMetrics

structure ReapAdvanceInput where
  taskId : String
  agentId : String
  silentForMs : ℤ
  now : ℤ
  graceMs : ℤ
  present : Bool

namespace ReapWarning

def applyPresenceTo (w : ReapWarning) (present : Bool) (now graceMs maxHoldMs : ℤ) : ReapWarning :=
  let ceiling := w.warnedAt + maxHoldMs
  if present = true ∧ now < ceiling then
    { w with deadlineAt := max w.deadlineAt (min (now + graceMs) ceiling), heldByPresence := true }
  else { w with heldByPresence := false }

end ReapWarning

namespace ReapWarningCoordinator

variable (c : ReapWarningCoordinator)

def new : ReapWarningCoordinator := ⟨.empty, 0, 0, 0, 0, 0, 0, 0, 0⟩

def advance (input : ReapAdvanceInput) : ReapAdvance × ReapWarningCoordinator :=
  match c.warnings.get input.taskId with
  | none =>
    let warning := (⟨input.taskId, input.agentId, input.now, input.now + input.graceMs, input.silentForMs, 0, false⟩ : ReapWarning).applyPresenceTo
      input.present input.now input.graceMs MAX_PRESENCE_HOLD_MS
    (.warn warning, { c with
      warnings := c.warnings.set input.taskId warning
      metrics.warningsRaisedTotal := c.metrics.warningsRaisedTotal + 1 })
  | some existing =>
    let existing := { existing with silentForMs := input.silentForMs, agentId := input.agentId }.applyPresenceTo
      input.present input.now input.graceMs MAX_PRESENCE_HOLD_MS
    if existing.deadlineAt ≤ input.now then
      (.reap existing, { c with
        warnings := c.warnings.delete input.taskId
        metrics.expiredToReapTotal := c.metrics.expiredToReapTotal + 1 })
    else (.wait existing, { c with warnings := c.warnings.set input.taskId existing })

def applyPresence (taskId : String) (present : Bool) (now graceMs maxHoldMs : ℤ) : ReapWarningCoordinator :=
  match c.warnings.get taskId with
  | none => c
  | some w => { c with warnings := c.warnings.set taskId (w.applyPresenceTo present now graceMs maxHoldMs) }

def veto (taskId : String) (now extensionMs : ℤ) : ReapVetoResult × ReapWarningCoordinator :=
  match c.warnings.get taskId with
  | none => (.noWarning, { c with metrics.vetoRejectedTotal := c.metrics.vetoRejectedTotal + 1 })
  | some w =>
    if MAX_REAP_VETOES ≤ w.keptAliveCount then
      (.capReached, { c with metrics.vetoRejectedTotal := c.metrics.vetoRejectedTotal + 1 })
    else
      let w := { w with keptAliveCount := w.keptAliveCount + 1, deadlineAt := now + extensionMs, heldByPresence := false }
      (.accepted w, { c with
        warnings := c.warnings.set taskId w
        metrics.vetoedTotal := c.metrics.vetoedTotal + 1 })

def clear (taskId : String) (reason : Option ReapWarningClearedReason) : Option ReapWarning × ReapWarningCoordinator :=
  match c.warnings.get taskId with
  | none => (none, c)
  | some w =>
    let m := c.metrics
    (some w,
      { warnings := c.warnings.delete taskId
        metrics :=
          match reason with
          | some .recovered => { m with clearedRecoveredTotal := m.clearedRecoveredTotal + 1 }
          | some .gone => { m with clearedGoneTotal := m.clearedGoneTotal + 1 }
          | some .stale => { m with clearedStaleTotal := m.clearedStaleTotal + 1 }
          | some .disabled => { m with clearedDisabledTotal := m.clearedDisabledTotal + 1 }
          | none => m })

def clearAll : List String × ReapWarningCoordinator :=
  (c.warnings.keys, { c with
    warnings := .empty
    metrics.clearedDisabledTotal := c.metrics.clearedDisabledTotal + c.warnings.size })

end ReapWarningCoordinator

/-- `Math.round` rounds a half up. -/
def clampReapGraceSeconds (raw : ℚ) : ℤ := max MIN_REAP_GRACE_SECONDS (min MAX_REAP_GRACE_SECONDS ⌊raw + 1 / 2⌋)

end Kookr.Core
