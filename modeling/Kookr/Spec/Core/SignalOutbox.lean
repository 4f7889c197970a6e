import Mathlib.Data.Int.Notation
import Mathlib.Data.List.Sort
import Kookr.Lib.Exec
import Kookr.Lib.KeyedRows

/-! The outbox of signals (`src/core/signal-outbox.ts`): the bounds, and its calls on one pending file,
one read, delivery or rename at a time. A temporary file has a name of its own, so that nothing but the
rename is seen by others. Of the pending file there are the lines that are entries. What a date text
means and how two of them compare is a parameter. -/

namespace Kookr.Core

open Kookr.Lib

inductive AgentSignalKind where
  | completionReady
  deriving DecidableEq

structure SignalOutboxEntry where
  signalId : String
  taskId : String
  kind : AgentSignalKind
  note : Option String
  createdAt : String
  boundSessionId : Option String
  baseUrl : Option String
  lastError : Option String
  attemptCount : Option ℕ
  deriving DecidableEq

def DEFAULT_SIGNAL_OUTBOX_MAX_ENTRIES : ℕ := 200

def DEFAULT_SIGNAL_OUTBOX_MAX_AGE_MS : ℤ := 48 * 60 * 60 * 1000

structure OutboxOptions where
  now : ℤ
  maxEntries : Option ℕ
  maxAgeMs : Option ℤ
  deriving DecidableEq

def OutboxOptions.entryCap (opts : OutboxOptions) : ℕ := opts.maxEntries.getD DEFAULT_SIGNAL_OUTBOX_MAX_ENTRIES

/-- `Date.parse`, with the texts it does not read, and `localeCompare`. -/
structure OutboxDates where
  dateParse : String → Option ℤ
  localeCompare : String → String → Ordering

namespace OutboxDates

variable (dates : OutboxDates)

def sortByCreatedAt (entries : List SignalOutboxEntry) : List SignalOutboxEntry :=
  entries.insertionSort fun a b => dates.localeCompare a.createdAt b.createdAt ≠ .gt

/-- The last line of an id, at the place of its first one. -/
def readPendingSignals (file : List SignalOutboxEntry) : List SignalOutboxEntry :=
  dates.sortByCreatedAt (mapBy SignalOutboxEntry.signalId file).values

/-- What is kept. -/
def boundSignalOutbox (opts : OutboxOptions) (entries : List SignalOutboxEntry) : List SignalOutboxEntry :=
  let fresh := entries.filter fun e =>
    (dates.dateParse e.createdAt).any fun created => opts.now - created ≤ opts.maxAgeMs.getD DEFAULT_SIGNAL_OUTBOX_MAX_AGE_MS
  if fresh.length ≤ opts.entryCap then fresh
  else (dates.sortByCreatedAt fresh).drop (fresh.length - opts.entryCap)

/-- What an append writes. The new entry is kept in any case. -/
def appended (opts : OutboxOptions) (existing : List SignalOutboxEntry) (entry : SignalOutboxEntry) : List SignalOutboxEntry :=
  let kept := dates.boundSignalOutbox opts (existing ++ [entry])
  if entry.signalId ∈ kept.map SignalOutboxEntry.signalId then kept
  else dates.boundSignalOutbox { opts with maxEntries := some (opts.entryCap - 1) } existing ++ [entry]

end OutboxDates

inductive DeliverSignalResult where
  | delivered
  | permanentFail (error : Option String)
  | transientFail (error : Option String)
  deriving DecidableEq

/-- How far a drain has come. -/
structure DrainProgress where
  /-- Not yet attempted. -/
  pending : List SignalOutboxEntry
  remaining : List SignalOutboxEntry
  deliveredIds : List String
  failedIds : List String
  deriving DecidableEq

/-- A signal that failed for now. -/
def SignalOutboxEntry.retried (entry : SignalOutboxEntry) (error : Option String) : SignalOutboxEntry :=
  { entry with
    attemptCount := some (entry.attemptCount.getD 0 + 1)
    lastError := (error.map fun text => String.ofList (text.toList.take 500)).or entry.lastError }

def DrainProgress.deliver (drain : DrainProgress) (entry : SignalOutboxEntry) (rest : List SignalOutboxEntry) :
    DeliverSignalResult → DrainProgress
  | .delivered => { drain with pending := rest, deliveredIds := drain.deliveredIds ++ [entry.signalId] }
  | .permanentFail _ => { drain with pending := rest, failedIds := drain.failedIds ++ [entry.signalId] }
  | .transientFail error =>
    { drain with
      pending := rest
      failedIds := drain.failedIds ++ [entry.signalId]
      remaining := drain.remaining ++ [entry.retried error] }

/-- Where a call waits: for its read, for a delivery, or for the rename of what it has written. The
entries it has read come first. -/
inductive OutboxCall where
  | appending (entry : SignalOutboxEntry) (opts : OutboxOptions)
  | writingAppend (read : List SignalOutboxEntry) (entry : SignalOutboxEntry) (next : List SignalOutboxEntry)
  | removing (signalId : String)
  | writingRemove (read : List SignalOutboxEntry) (signalId : String)
  | draining (opts : OutboxOptions)
  | writingBound (read : List SignalOutboxEntry) (pending : List SignalOutboxEntry)
  | delivering (read : List SignalOutboxEntry) (drain : DrainProgress)
  | writingDrain (read : List SignalOutboxEntry) (drain : DrainProgress)
  deriving DecidableEq

/-- Why a signal is no longer due. -/
inductive SignalEnd where
  | delivered
  | permanentlyFailed
  | removed
  | dropped
  deriving DecidableEq

structure SignalOutbox where
  pending : List SignalOutboxEntry
  calls : List OutboxCall
  /-- The appends that reported `appended`, and what became of signals, which nothing of the code reads. -/
  appended : List String
  ended : List (String × SignalEnd)

inductive OutboxEvent where
  | start (call : OutboxCall)
  | read (i : ℕ)
  | deliver (i : ℕ) (result : DeliverSignalResult)
  | rename (i : ℕ)
  /-- A read or a write that throws, and the call with it. -/
  | fail (i : ℕ)

namespace SignalOutbox

def start (pending : List SignalOutboxEntry) : SignalOutbox := ⟨pending, [], [], []⟩

variable (s : SignalOutbox)

def goto (i : ℕ) (call : OutboxCall) : SignalOutbox := { s with calls := s.calls.set i call }

def settle (i : ℕ) : SignalOutbox := { s with calls := s.calls.eraseIdx i }

/-- A drain without signals is over. -/
def startDeliveries (i : ℕ) (read pending : List SignalOutboxEntry) : SignalOutbox :=
  if pending = [] then s.settle i else s.goto i (.delivering read ⟨pending, [], [], []⟩)

/-- The pending file is read whole, and what is written of it is settled with that. -/
def afterRead (dates : OutboxDates) (i : ℕ) : OutboxCall → Option SignalOutbox
  | .appending entry opts =>
    let existing := dates.readPendingSignals s.pending
    if entry.signalId ∈ existing.map SignalOutboxEntry.signalId then some (s.settle i)
    else some (s.goto i (.writingAppend existing entry (dates.appended opts existing entry)))
  | .removing signalId =>
    let pending := dates.readPendingSignals s.pending
    if signalId ∈ pending.map SignalOutboxEntry.signalId then some (s.goto i (.writingRemove pending signalId))
    else some (s.settle i)
  | .draining opts =>
    let raw := dates.readPendingSignals s.pending
    let pending := dates.boundSignalOutbox opts raw
    if pending.length = raw.length then some (s.startDeliveries i raw pending)
    else some (s.goto i (.writingBound raw pending))
  | _ => none

/-- What was read and is not written. -/
def dropped (read next : List SignalOutboxEntry) : List (String × SignalEnd) :=
  (read.filter fun e => e.signalId ∉ next.map SignalOutboxEntry.signalId).map fun e => (e.signalId, .dropped)

def afterRename (i : ℕ) : OutboxCall → Option SignalOutbox
  | .writingAppend read entry next =>
    some { s.settle i with
      pending := next
      appended := entry.signalId :: s.appended
      ended := dropped read next ++ s.ended }
  | .writingRemove read signalId =>
    some { s.settle i with
      pending := read.filter fun e => e.signalId ≠ signalId
      ended := (signalId, .removed) :: s.ended }
  | .writingBound read pending =>
    some { s.startDeliveries i read pending with pending, ended := dropped read pending ++ s.ended }
  | .writingDrain _ drain => some { s.settle i with pending := drain.remaining }
  | _ => none

def afterDelivery (i : ℕ) (result : DeliverSignalResult) : OutboxCall → Option SignalOutbox
  | .delivering read drain =>
    match drain.pending with
    | [] => none
    | entry :: rest =>
      let drain := drain.deliver entry rest result
      let after := s.goto i (if rest = [] then .writingDrain read drain else .delivering read drain)
      match result with
      | .delivered => some { after with ended := (entry.signalId, .delivered) :: s.ended }
      | .permanentFail _ => some { after with ended := (entry.signalId, .permanentlyFailed) :: s.ended }
      | .transientFail _ => some after
  | _ => none

def startCall : OutboxCall → Option SignalOutbox
  | .appending entry opts => some { s with calls := s.calls ++ [.appending entry opts] }
  | .removing signalId => some { s with calls := s.calls ++ [.removing signalId] }
  | .draining opts => some { s with calls := s.calls ++ [.draining opts] }
  | _ => none

def step (dates : OutboxDates) (s : SignalOutbox) : OutboxEvent → Option SignalOutbox
  | .start call => s.startCall call
  | .read i => s.calls[i]?.bind (s.afterRead dates i)
  | .deliver i result => s.calls[i]?.bind (s.afterDelivery i result)
  | .rename i => s.calls[i]?.bind (s.afterRename i)
  | .fail i => s.calls[i]?.map fun _ => s.settle i

end SignalOutbox

end Kookr.Core
