import Mathlib.Data.List.Sort
import Kookr.Lib.OrderedMap

/-! Findings about agents (`src/core/anomaly-types.ts`, `src/core/anomaly-fingerprint.ts`), with times in milliseconds, and
the attention queue (`src/core/attention-queue.ts`). An operation that reads the clock
takes its readings as arguments; a run is a run of operations whose readings never go
back. -/

namespace Kookr.Core

open Kookr.Lib

inductive AnomalyType where
  | needsInput
  | permissionBlocked
  | repeatedError
  | mergeConflict
  | staleAgent
  | hookDisconnected
  | hookMissing
  | hookParseDegraded
  | backendUnreachable
  | apiError
  | budgetExceeded
  deriving DecidableEq

def AnomalyType.text : AnomalyType → String
  | needsInput => "needs_input"
  | permissionBlocked => "permission_blocked"
  | repeatedError => "repeated_error"
  | mergeConflict => "merge_conflict"
  | staleAgent => "stale_agent"
  | hookDisconnected => "hook_disconnected"
  | hookMissing => "hook_missing"
  | hookParseDegraded => "hook_parse_degraded"
  | backendUnreachable => "backend_unreachable"
  | apiError => "api_error"
  | budgetExceeded => "budget_exceeded"

inductive AnomalySeverity where
  | info
  | warning
  | critical
  deriving DecidableEq

/-- `SEVERITY_ORDER`. -/
def AnomalySeverity.order : AnomalySeverity → ℕ
  | critical => 0
  | warning => 1
  | info => 2

inductive AnomalySubType where
  | stop
  | askUserQuestion
  deriving DecidableEq

def AnomalySubType.text : AnomalySubType → String
  | stop => "stop"
  | askUserQuestion => "ask_user_question"

structure Anomaly where
  agentId : String
  type : AnomalyType
  severity : AnomalySeverity
  explanation : String
  detectedAt : ℤ
  subType : Option AnomalySubType
  /-- The members that no function of the queue reads. -/
  details : String
  deriving DecidableEq

/-- The count of `Same error repeated <n> times:` at the start of a text is dropped. -/
def dropRepeatCount (text : String) : String :=
  let head := "Same error repeated ".toList
  let tail := " times:".toList
  let rest := text.toList.drop head.length
  let digits := rest.takeWhile fun c => '0' ≤ c && c ≤ '9'
  let after := rest.drop digits.length
  if head.isPrefixOf text.toList && !digits.isEmpty && tail.isPrefixOf after then
    "Same error repeated:" ++ String.ofList (after.drop tail.length)
  else text

def stableAnomalyExplanation (anomaly : Anomaly) : String :=
  match anomaly.type with
  | .staleAgent | .hookDisconnected => ""
  | .repeatedError => dropRepeatCount anomaly.explanation
  | _ => anomaly.explanation

def anomalyFingerprint (anomaly : Anomaly) : String :=
  anomaly.type.text ++ ":" ++ (anomaly.subType.map AnomalySubType.text).getD "" ++ ":" ++
    stableAnomalyExplanation anomaly

structure QueueEntry where
  agentId : String
  anomaly : Anomaly
  skipped : Bool
  deriving DecidableEq

inductive SnoozeKind where
  | finding
  | task
  deriving DecidableEq

structure SnoozeEntry where
  agentId : String
  /-- The key of the entry in the map. -/
  key : String
  kind : SnoozeKind
  anomaly : Option Anomaly
  expiresAt : ℤ
  createdAt : ℤ
  expiredPendingRestore : Option Bool
  reason : Option String
  wakeOnChange : Bool
  deriving DecidableEq

structure ImportedSnooze where
  agentId : String
  key : String
  kind : Option SnoozeKind
  anomaly : Option Anomaly
  expiresAt : ℤ
  createdAt : Option ℤ
  expiredPendingRestore : Option Bool
  reason : Option String
  wakeOnChange : Option Bool

structure SuppressionCounts where
  queueDedupe : ℕ
  queueSnoozed : ℕ

structure QueueOpts where
  taskIdFor : String → Option String
  maxLastRemoved : ℕ

structure AttentionQueue where
  entries : OrderedMap String QueueEntry
  snoozed : OrderedMap String SnoozeEntry
  lastRemoved : OrderedMap String Anomaly
  suppressionCounts : SuppressionCounts

/-- `SNOOZE_UNTIL_NEXT_CHANGE_DURATION_MS`: a hundred years. -/
def snoozeUntilNextChangeDurationMs : ℤ := 100 * 365 * 24 * 60 * 60 * 1000

def hasSameFingerprint (previous : Option Anomaly) (next : Anomaly) : Bool :=
  match previous with
  | some previous => anomalyFingerprint previous = anomalyFingerprint next
  | none => false

def QueueOpts.snoozeKey (opts : QueueOpts) (agentId : String) : String := (opts.taskIdFor agentId).getD agentId

/-- The comparison `sort` is given: whether the first may stand before the second. -/
def QueueEntry.before (a b : QueueEntry) : Bool :=
  if a.skipped ≠ b.skipped then !a.skipped else a.anomaly.severity.order ≤ b.anomaly.severity.order

namespace AttentionQueue

def initial : AttentionQueue := ⟨.empty, .empty, .empty, ⟨0, 0⟩⟩

variable (opts : QueueOpts)

def dropExpiredForKey (q : AttentionQueue) (key : String) (now : ℤ) : AttentionQueue :=
  match q.snoozed.get key with
  | some snooze => if now < snooze.expiresAt then q else { q with snoozed := q.snoozed.delete key }
  | none => q

def shouldWakeSnooze (snoozed : SnoozeEntry) (anomaly : Anomaly) : Bool :=
  match snoozed.anomaly with
  | none => snoozed.wakeOnChange
  | some hidden =>
    let sameFingerprint := hasSameFingerprint (some hidden) anomaly
    let severityEscalated := anomaly.severity.order < hidden.severity.order
    if snoozed.wakeOnChange then !sameFingerprint || severityEscalated
    else severityEscalated || (anomaly.severity = .critical && !sameFingerprint)

/-- The loop body of `restoreExpiredSnoozes`. What is keyed by task is left to the server. -/
def restoreOne (now : ℤ) (q : AttentionQueue) (snooze : String × SnoozeEntry) : AttentionQueue :=
  if now < snooze.2.expiresAt then q
  else
    match snooze.2.anomaly with
    | none => { q with snoozed := q.snoozed.delete snooze.1 }
    | some anomaly =>
      if snooze.2.key = snooze.2.agentId then
        { q with
          entries := q.entries.set snooze.2.agentId ⟨snooze.2.agentId, anomaly, false⟩
          snoozed := q.snoozed.delete snooze.1 }
      else q

def restoreExpiredSnoozes (q : AttentionQueue) (now : ℤ) : AttentionQueue :=
  q.snoozed.entries.foldl (restoreOne now) q

/-- The part of `enqueue` for an agent that is not snoozed. -/
def enqueueActive (q : AttentionQueue) (agentId : String) (anomaly : Anomaly) : AttentionQueue :=
  match q.entries.get agentId with
  | some existing =>
    if anomalyFingerprint existing.anomaly = anomalyFingerprint anomaly then
      { q with
        entries := q.entries.set agentId
          { existing with anomaly := { anomaly with detectedAt := existing.anomaly.detectedAt } }
        suppressionCounts :=
          { q.suppressionCounts with queueDedupe := q.suppressionCounts.queueDedupe + 1 } }
    else { q with entries := q.entries.set agentId ⟨agentId, anomaly, false⟩ }
  | none => { q with entries := q.entries.set agentId ⟨agentId, anomaly, false⟩ }

/-- The part of `enqueue` for an agent whose snooze has not expired. -/
def enqueueSnoozed (q : AttentionQueue) (key agentId : String) (anomaly : Anomaly) (snoozed : SnoozeEntry) : AttentionQueue :=
  if shouldWakeSnooze snoozed anomaly then
    { q with
      snoozed := q.snoozed.delete key
      entries := q.entries.set agentId ⟨agentId, anomaly, false⟩ }
  else
    let anomaly := match snoozed.anomaly with
      | some hidden =>
        if hasSameFingerprint (some hidden) anomaly then { anomaly with detectedAt := hidden.detectedAt } else anomaly
      | none => anomaly
    { q with
      snoozed := q.snoozed.set key { snoozed with anomaly := some anomaly }
      suppressionCounts :=
        { q.suppressionCounts with queueSnoozed := q.suppressionCounts.queueSnoozed + 1 } }

/-- The clock is read for the snooze that may be dropped, and again for the one that is left. -/
def enqueue (q : AttentionQueue) (agentId : String) (anomaly : Anomaly) (now now' : ℤ) : AttentionQueue :=
  let key := opts.snoozeKey agentId
  let q := ({ q with lastRemoved := q.lastRemoved.delete agentId }).dropExpiredForKey key now
  match q.snoozed.get key with
  | some snoozed =>
    if now' < snoozed.expiresAt then q.enqueueSnoozed key agentId anomaly snoozed
    else q.enqueueActive agentId anomaly
  | none => q.enqueueActive agentId anomaly

def getSorted (q : AttentionQueue) : List QueueEntry :=
  q.entries.values.insertionSort fun a b => a.before b

/-- `inspectActive`. -/
def inspectActive (q : AttentionQueue) : List (String × Anomaly) :=
  q.getSorted.map fun e => (e.agentId, e.anomaly)

def next (q : AttentionQueue) (now : ℤ) : Option (String × Anomaly) × AttentionQueue :=
  let q := q.restoreExpiredSnoozes now
  (q.getSorted.head?.map fun e => (e.agentId, e.anomaly), q)

def getAll (q : AttentionQueue) (now : ℤ) : List (String × Anomaly) × AttentionQueue :=
  let q := q.restoreExpiredSnoozes now
  (q.inspectActive, q)

def getDepth (q : AttentionQueue) (now : ℤ) : ℕ × AttentionQueue :=
  let q := q.restoreExpiredSnoozes now
  (q.entries.size, q)

def skip (q : AttentionQueue) (agentId : String) : AttentionQueue :=
  match q.entries.get agentId with
  | some entry => { q with entries := q.entries.set agentId { entry with skipped := true } }
  | none => q

def snooze (q : AttentionQueue) (agentId : String) (durationMs : ℤ) (reason : Option String)
    (fallbackAnomaly : Option Anomaly) (now : ℤ) : Option SnoozeEntry × AttentionQueue :=
  let anomaly := ((q.entries.get agentId).map QueueEntry.anomaly).or fallbackAnomaly
  let key := opts.snoozeKey agentId
  if anomaly.isNone && key = agentId then (none, q)
  else
    let snooze : SnoozeEntry := {
      agentId, key
      kind := if anomaly.isSome then .finding else .task
      anomaly
      expiresAt := now + durationMs
      createdAt := now
      expiredPendingRestore := none
      reason
      wakeOnChange := snoozeUntilNextChangeDurationMs ≤ durationMs }
    (some snooze, { q with
      snoozed := q.snoozed.set key snooze
      entries := q.entries.delete agentId
      lastRemoved := q.lastRemoved.delete agentId })

def cancelSnooze (q : AttentionQueue) (agentId restoreAgentId : String) : Bool × AttentionQueue :=
  match q.snoozed.get (opts.snoozeKey agentId) with
  | none => (false, q)
  | some snoozed =>
    let entries := match snoozed.anomaly with
      | some anomaly =>
        q.entries.set restoreAgentId ⟨restoreAgentId, { anomaly with agentId := restoreAgentId }, false⟩
      | none => q.entries
    (true, { q with entries, snoozed := q.snoozed.delete snoozed.key })

/-- The oldest entries go until the bound is met. -/
def rememberRemoved (q : AttentionQueue) (agentId : String) (anomaly : Anomaly) : AttentionQueue :=
  if opts.maxLastRemoved = 0 then { q with lastRemoved := q.lastRemoved.delete agentId }
  else
    let added := (q.lastRemoved.delete agentId).set agentId anomaly
    let oldest := added.keys.take (added.size - opts.maxLastRemoved)
    { q with lastRemoved := added.filter fun k _ => !oldest.contains k }

def remove (q : AttentionQueue) (agentId : String) : AttentionQueue :=
  let q := match q.entries.get agentId with
    | some entry => q.rememberRemoved opts agentId entry.anomaly
    | none => q
  { q with entries := q.entries.delete agentId }

def purge (q : AttentionQueue) (agentId : String) : AttentionQueue :=
  { q with entries := q.entries.delete agentId, lastRemoved := q.lastRemoved.delete agentId }

def purgeTask (q : AttentionQueue) (taskIdOrKey : String) : AttentionQueue :=
  { q with snoozed := q.snoozed.delete taskIdOrKey }

/-- The loop body of `importSnoozed`, with the clock's reading of that turn. -/
def importOne (q : AttentionQueue) (imported : ImportedSnooze × ℤ) : AttentionQueue :=
  let entry := imported.1
  let createdAt := entry.createdAt.getD imported.2
  let snooze : SnoozeEntry := {
    agentId := entry.agentId
    key := entry.key
    kind := entry.kind.getD (if entry.anomaly.isSome then .finding else .task)
    anomaly := entry.anomaly
    expiresAt := entry.expiresAt
    createdAt
    expiredPendingRestore := entry.expiredPendingRestore
    reason := entry.reason
    wakeOnChange := entry.wakeOnChange.getD (snoozeUntilNextChangeDurationMs ≤ entry.expiresAt - createdAt) }
  { q with snoozed := q.snoozed.set entry.key snooze, entries := q.entries.delete entry.agentId }

def importSnoozed (q : AttentionQueue) (entries : List (ImportedSnooze × ℤ)) : AttentionQueue :=
  entries.foldl importOne q

def getSnoozedUntil (q : AttentionQueue) (agentId : String) (now : ℤ) : Option ℤ :=
  match q.snoozed.get (opts.snoozeKey agentId) with
  | some entry => if entry.expiresAt ≤ now then none else some entry.expiresAt
  | none => none

/-- The active anomaly, or the one of a snooze that has not expired. -/
def peek (q : AttentionQueue) (agentId : String) (now : ℤ) : Option Anomaly :=
  ((q.entries.get agentId).map QueueEntry.anomaly).or
    (match q.snoozed.get (opts.snoozeKey agentId) with
      | some snoozed => if now < snoozed.expiresAt then snoozed.anomaly else none
      | none => none)

def respondAndAdvance (q : AttentionQueue) (agentId : String) (now : ℤ) : Option (String × Anomaly) × AttentionQueue :=
  ({ q with entries := q.entries.delete agentId }).next now

def expireDue (q : AttentionQueue) (now : ℤ) : List SnoozeEntry × AttentionQueue :=
  (q.snoozed.values.filter fun s => s.expiresAt ≤ now,
    { q with snoozed := q.snoozed.filter fun _ s => now < s.expiresAt })

/-- The counts of suppressed findings are kept. -/
def clear (q : AttentionQueue) : AttentionQueue := { initial with suppressionCounts := q.suppressionCounts }

end AttentionQueue

inductive QueueEvent where
  | enqueue (agentId : String) (anomaly : Anomaly) (now now' : ℤ)
  | next (now : ℤ)
  | skip (agentId : String)
  | snooze (agentId : String) (durationMs : ℤ) (reason : Option String) (fallbackAnomaly : Option Anomaly) (now : ℤ)
  | cancelSnooze (agentId restoreAgentId : String)
  | remove (agentId : String)
  | purge (agentId : String)
  | purgeTask (taskIdOrKey : String)
  | importSnoozed (entries : List (ImportedSnooze × ℤ))
  | respondAndAdvance (agentId : String) (now : ℤ)
  | getAll (now : ℤ)
  | peek (agentId : String) (now : ℤ)
  /-- `asked` is the time asked about, the clock's where none is given. -/
  | getDepth (asked : Option ℤ) (now : ℤ)
  | expireDue (asked : Option ℤ) (now : ℤ)
  | clear

/-- The readings of the clock, in order. -/
def QueueEvent.readings : QueueEvent → List ℤ
  | .enqueue _ _ now now' => [now, now']
  | .next now | .snooze _ _ _ _ now | .respondAndAdvance _ now | .getAll now | .peek _ now | .getDepth _ now
  | .expireDue _ now => [now]
  | .importSnoozed entries => entries.map Prod.snd
  | .skip _ | .cancelSnooze _ _ | .remove _ | .purge _ | .purgeTask _ | .clear => []

def AttentionQueue.apply (opts : QueueOpts) (q : AttentionQueue) : QueueEvent → AttentionQueue
  | .enqueue agentId anomaly now now' => q.enqueue opts agentId anomaly now now'
  | .next now => (q.next now).2
  | .skip agentId => q.skip agentId
  | .snooze agentId durationMs reason fallback now => (q.snooze opts agentId durationMs reason fallback now).2
  | .cancelSnooze agentId restoreAgentId => (q.cancelSnooze opts agentId restoreAgentId).2
  | .remove agentId => q.remove opts agentId
  | .purge agentId => q.purge agentId
  | .purgeTask key => q.purgeTask key
  | .importSnoozed entries => q.importSnoozed entries
  | .respondAndAdvance agentId now => (q.respondAndAdvance agentId now).2
  | .getAll now => (q.getAll now).2
  | .peek _ _ => q
  | .getDepth asked now => (q.getDepth (asked.getD now)).2
  | .expireDue asked now => (q.expireDue (asked.getD now)).2
  | .clear => q.clear

/-- A queue and the last reading of the clock. -/
structure TimedQueue where
  queue : AttentionQueue
  clock : ℤ

/-- The clock after readings that do not go back. -/
def advance (clock : ℤ) : List ℤ → Option ℤ
  | [] => some clock
  | now :: rest => if clock ≤ now then advance now rest else none

def TimedQueue.step (opts : QueueOpts) (s : TimedQueue) (e : QueueEvent) : Option TimedQueue :=
  (advance s.clock e.readings).map fun clock => ⟨s.queue.apply opts e, clock⟩

def TimedQueue.initial (clock : ℤ) : TimedQueue := ⟨.initial, clock⟩

end Kookr.Core
