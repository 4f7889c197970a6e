import Kookr.Spec.Core.AttentionQueue

/-! What the attention queue is for: a board of findings, one for each agent at most. A row
has the place at which its agent came onto the board last; the rows are shown in an order
that is stated and not computed. -/

namespace Kookr.Core

open Kookr.Lib

structure Row where
  anomaly : Anomaly
  skipped : Bool
  /-- How many agents had come onto the board before. -/
  position : ℕ

/-- A finding that waits for a time, or for something new. -/
structure Hidden where
  anomaly : Anomaly
  expiresAt : ℤ
  wakeOnChange : Bool

structure Board where
  active : String → Option Row
  /-- In the order in which they come back when they are due at once. -/
  hidden : OrderedMap String Hidden
  entered : ℕ

/-- Which of two findings is to be looked at first. -/
def Row.Precedes (r r' : Row) : Prop :=
  r.skipped = false ∧ r'.skipped = true ∨
    r.skipped = r'.skipped ∧
      (r.anomaly.severity.order < r'.anomaly.severity.order ∨
        r.anomaly.severity.order = r'.anomaly.severity.order ∧ r.position < r'.position)

/-- A hidden finding comes back for one that is worse, and for another one if it was hidden
until something changes or the other is critical. -/
def Hidden.Wakes (hidden : Hidden) (anomaly : Anomaly) : Prop :=
  anomaly.severity.order < hidden.anomaly.severity.order ∨
    anomalyFingerprint hidden.anomaly ≠ anomalyFingerprint anomaly ∧
      (hidden.wakeOnChange ∨ anomaly.severity = .critical)

instance (hidden : Hidden) (anomaly : Anomaly) : Decidable (hidden.Wakes anomaly) :=
  inferInstanceAs (Decidable (_ ∨ _))

namespace Board

def empty : Board := ⟨fun _ => none, .empty, 0⟩

def setRow (b : Board) (agentId : String) (row : Option Row) : Board :=
  { b with active := fun a => if a = agentId then row else b.active a }

/-- A finding comes onto the board; an agent that is on it keeps its place. -/
def enter (b : Board) (agentId : String) (anomaly : Anomaly) : Board :=
  match b.active agentId with
  | some row => b.setRow agentId (some ⟨anomaly, false, row.position⟩)
  | none => { b.setRow agentId (some ⟨anomaly, false, b.entered⟩) with entered := b.entered + 1 }

def reveal (b : Board) (agentId : String) : Board := { b with hidden := b.hidden.delete agentId }

/-- The same finding, seen again, changes nothing but its other members. -/
def see (b : Board) (agentId : String) (anomaly : Anomaly) : Board :=
  match b.active agentId with
  | some row =>
    if anomalyFingerprint row.anomaly = anomalyFingerprint anomaly then
      b.setRow agentId (some { row with anomaly := { anomaly with detectedAt := row.anomaly.detectedAt } })
    else b.enter agentId anomaly
  | none => b.enter agentId anomaly

/-- A finding for an agent whose finding is hidden. -/
def hear (b : Board) (agentId : String) (anomaly : Anomaly) (hidden : Hidden) : Board :=
  if hidden.Wakes anomaly then (b.enter agentId anomaly).reveal agentId
  else
    let seen := if anomalyFingerprint hidden.anomaly = anomalyFingerprint anomaly
      then { anomaly with detectedAt := hidden.anomaly.detectedAt } else anomaly
    { b with hidden := b.hidden.set agentId { hidden with anomaly := seen } }

def enqueue (b : Board) (agentId : String) (anomaly : Anomaly) (now now' : ℤ) : Board :=
  match b.hidden.get agentId with
  | none => b.see agentId anomaly
  | some hidden =>
    if hidden.expiresAt ≤ now then (b.reveal agentId).see agentId anomaly
    else if now' < hidden.expiresAt then b.hear agentId anomaly hidden
    else b.see agentId anomaly

/-- What is due comes back. -/
def restoreOne (now : ℤ) (b : Board) (hidden : String × Hidden) : Board :=
  if hidden.2.expiresAt ≤ now then (b.enter hidden.1 hidden.2.anomaly).reveal hidden.1 else b

def restore (b : Board) (now : ℤ) : Board := b.hidden.entries.foldl (restoreOne now) b

def skip (b : Board) (agentId : String) : Board :=
  b.setRow agentId ((b.active agentId).map fun row => { row with skipped := true })

def snooze (b : Board) (agentId : String) (durationMs : ℤ) (fallback : Option Anomaly) (now : ℤ) : Board :=
  match ((b.active agentId).map Row.anomaly).or fallback with
  | some anomaly =>
    { b.setRow agentId none with
      hidden := b.hidden.set agentId
        ⟨anomaly, now + durationMs, snoozeUntilNextChangeDurationMs ≤ durationMs⟩ }
  | none => b

def cancelSnooze (b : Board) (agentId restoreAgentId : String) : Board :=
  match b.hidden.get agentId with
  | some hidden => (b.enter restoreAgentId { hidden.anomaly with agentId := restoreAgentId }).reveal agentId
  | none => b

def apply (b : Board) : QueueEvent → Board
  | .enqueue agentId anomaly now now' => b.enqueue agentId anomaly now now'
  | .next now | .getAll now => b.restore now
  | .getDepth asked now => b.restore (asked.getD now)
  | .skip agentId => b.skip agentId
  | .snooze agentId durationMs _ fallback now => b.snooze agentId durationMs fallback now
  | .cancelSnooze agentId restoreAgentId => b.cancelSnooze agentId restoreAgentId
  | .remove agentId | .purge agentId => b.setRow agentId none
  | .respondAndAdvance agentId now => (b.setRow agentId none).restore now
  | .peek _ _ | .purgeTask _ | .importSnoozed _ | .expireDue _ _ | .clear => b

def run (es : List QueueEvent) : Board := es.foldl apply empty

end Board

/-- The operations of the board. -/
def QueueEvent.onBoard : QueueEvent → Bool
  | .purgeTask _ | .importSnoozed _ | .expireDue _ _ | .clear => false
  | _ => true

end Kookr.Core
