import Mathlib.Data.List.Sort
import Mathlib.Logic.Function.Basic
import Kookr.Lib.JsonNumber

/-! The output queues of terminal viewers and the fleet that they share
(`src/server/terminal-output-queue.ts`). Viewers, the segments of a viewer and the
callbacks it has handed to `send` are numbered in the order of their creation; the number
is the identity of the JavaScript object. Counters that the code decreases are integers.

A deferred task is the flag that it clears, a stall timer the flag that its firing clears.
What a call of `send` does before it returns comes with the event: the completions it
reports at once, and whether it throws. -/

namespace Kookr.Server

open Kookr.Lib

def VIEWER_BYTES : ℕ := 2 * 1024 * 1024

/-- `TERMINAL_CREDIT_BYTES`. -/
def CREDIT_BYTES : ℕ := 128 * 1024

/-- `TERMINAL_FRAME_BYTES`. -/
def FRAME_BYTES : ℕ := 8 * 1024

inductive LagReason where
  | viewerBudget
  | fleetBudget
  | controlBudget
  | ackStalled
  | sendFailed
  deriving DecidableEq

structure TerminalSourceRange where
  epoch : String
  start : ℤ
  stop : ℤ
  geometryRevision : ℕ
  cols : ℕ
  rows : ℕ
  deriving DecidableEq

/-- The written part of the buffer is `data`. -/
structure Segment where
  data : List UInt8
  length : ℕ
  offset : ℕ
  source : Option TerminalSourceRange
  sentEnd : Option ℕ
  transmitting : ℤ
  deriving DecidableEq

inductive Entry where
  | bytes (segment : ℕ)
  | control (text : List Char)
  deriving DecidableEq

inductive Payload where
  | control (bytes : ℕ)
  /-- A piece of a segment, up to this position of the transport. -/
  | frame (segment : ℕ) (sentTo : ℕ)
  deriving DecidableEq

structure Callback where
  payload : Payload
  completed : Bool
  deriving DecidableEq

/-- What the queue was given and what it has handed to `send`, in order. -/
inductive OutputEvent where
  | enqueued (bytes : List UInt8) (source : Option TerminalSourceRange)
  | discarded
  | seeded (snapshot : TerminalSourceRange) (bytes : List UInt8) (useAttachReplay : Bool)
  | control (text : List Char)
  | frame (bytes : List UInt8)
  deriving DecidableEq

structure TerminalOutputQueue where
  id : String
  generation : String
  outstandingBytes : ℤ
  reservedBytes : ℤ
  lastProgressAt : ℤ
  segments : ℕ → Segment
  created : ℕ
  pending : List Entry
  held : List ℕ
  sent : ℕ
  acknowledged : ℕ
  controlCount : ℤ
  transmittingControls : ℤ
  scheduled : Bool
  paused : Bool
  disposed : Bool
  stallTimer : Bool
  callbacks : List Callback
  closed : Option LagReason
  history : List OutputEvent

structure SendOutcome where
  /-- Whether each completion reported before the call returns has an error. -/
  completions : List Bool
  throws : Bool
  deriving DecidableEq

namespace TerminalOutputQueue

def blankSegment : Segment := ⟨[], 0, 0, none, none, 0⟩

def new (id generation : String) (now : ℤ) : TerminalOutputQueue := {
  id, generation
  outstandingBytes := 0
  reservedBytes := 0
  lastProgressAt := now
  segments := fun _ => blankSegment
  created := 0
  pending := []
  held := []
  sent := 0
  acknowledged := 0
  controlCount := 0
  transmittingControls := 0
  scheduled := false
  paused := false
  disposed := false
  stallTimer := false
  callbacks := []
  closed := none
  history := [] }

def retainedPressure (q : TerminalOutputQueue) : ℤ := max q.outstandingBytes q.reservedBytes

def record (q : TerminalOutputQueue) (e : OutputEvent) : TerminalOutputQueue :=
  { q with history := q.history ++ [e] }

def setSegment (q : TerminalOutputQueue) (i : ℕ) (s : Segment) : TerminalOutputQueue :=
  { q with segments := Function.update q.segments i s }

def sameSource (left right : Option TerminalSourceRange) (offset : ℕ) : Bool :=
  match left, right with
  | some left, some right =>
    left.epoch = right.epoch && left.geometryRevision = right.geometryRevision && left.cols = right.cols &&
      left.rows = right.rows && left.stop = right.start + offset
  | none, none => true
  | _, _ => false

/-- The last pending segment, when the next bytes fit into it. -/
def openSegment (q : TerminalOutputQueue) (source : Option TerminalSourceRange) (offset : ℕ) : Option ℕ :=
  match q.pending.getLast? with
  | some (.bytes i) =>
    let last := q.segments i
    if last.offset = 0 && last.length < FRAME_BYTES && sameSource last.source source offset then some i else none
  | _ => none

def addSegment (q : TerminalOutputQueue) (source : Option TerminalSourceRange) (offset : ℕ) : TerminalOutputQueue :=
  { q with
    segments := Function.update q.segments q.created { blankSegment with
      source := source.map fun s => { s with start := s.start + offset, stop := s.start + offset } }
    created := q.created + 1
    pending := q.pending ++ [.bytes q.created]
    held := q.held ++ [q.created] }

/-- Copy the bytes from `offset` on that still fit into the segment. -/
def fillSegment (q : TerminalOutputQueue) (i : ℕ) (bytes : List UInt8) (offset : ℕ) : ℕ × TerminalOutputQueue :=
  let segment := q.segments i
  let count := min (FRAME_BYTES - segment.length) (bytes.length - offset)
  (count, q.setSegment i { segment with
    data := segment.data ++ (bytes.drop offset).take count
    length := segment.length + count
    source := segment.source.map fun s => { s with stop := s.stop + count } })

def schedule (q : TerminalOutputQueue) : TerminalOutputQueue :=
  if q.disposed || q.paused || q.scheduled then q
  else match q.pending with
    | [] => q
    | .bytes _ :: _ => if q.sent - q.acknowledged ≥ CREDIT_BYTES then q else { q with scheduled := true }
    | .control _ :: _ => { q with scheduled := true }

def setPaused (q : TerminalOutputQueue) (paused : Bool) : TerminalOutputQueue :=
  let q := { q with paused := paused }
  if paused then q else q.schedule

def hasUnpositionedOutput (q : TerminalOutputQueue) : Bool :=
  q.pending.any fun entry => match entry with
    | .bytes i => (q.segments i).source.isNone
    | .control _ => false

def armStallTimer (q : TerminalOutputQueue) (progress : Bool) : TerminalOutputQueue :=
  if q.disposed then q
  else
    let stallTimer := q.stallTimer && !progress
    { q with stallTimer := stallTimer || decide (q.sent > q.acknowledged) }

/-- The first loop of `seed`: only bytes are pending, and those beyond the snapshot
continue it without a gap. -/
def seedAccepts (q : TerminalOutputQueue) (snapshot : TerminalSourceRange) : List Entry → ℤ → Bool
  | [], _ => true
  | .control _ :: _, _ => false
  | .bytes i :: rest, expected =>
    match (q.segments i).source with
    | none => q.seedAccepts snapshot rest expected
    | some source =>
      if source.epoch ≠ snapshot.epoch then false
      else if source.stop ≤ snapshot.stop then q.seedAccepts snapshot rest expected
      else if max (source.start + (q.segments i).offset) snapshot.stop ≠ expected then false
      else q.seedAccepts snapshot rest source.stop

/-- The bytes of a positioned segment that the snapshot covers. -/
def skipped (snapshot : TerminalSourceRange) (entry : Segment) (source : TerminalSourceRange) : ℕ :=
  min (entry.length - entry.offset) (snapshot.stop - (source.start + entry.offset)).toNat

/-- The unsent bytes of a segment no longer count. -/
def dropUnsent (q : TerminalOutputQueue) (i : ℕ) : TerminalOutputQueue :=
  { q with outstandingBytes := q.outstandingBytes - ((q.segments i).length - (q.segments i).offset : ℤ) }

def skipBytes (q : TerminalOutputQueue) (i count : ℕ) : TerminalOutputQueue :=
  { q with
    outstandingBytes := q.outstandingBytes - count
    segments := Function.update q.segments i { q.segments i with offset := (q.segments i).offset + count } }

def setSentEnd (q : TerminalOutputQueue) (i : ℕ) : TerminalOutputQueue :=
  q.setSegment i { q.segments i with sentEnd := some q.sent }

/-- `Buffer.byteLength`. -/
def byteLength (text : List Char) : ℕ := (text.map Char.utf8Size).sum

/-- The message in front of positioned bytes. -/
def sourceText (generation : String) (source : TerminalSourceRange) (start stop : ℤ) : List Char :=
  Json.stringify (.obj [("type", .str "source"), ("epoch", .str source.epoch), ("start", .num (.ofInt start)),
    ("end", .num (.ofInt stop)), ("geometryRevision", .num (.ofInt source.geometryRevision)),
    ("cols", .num (.ofInt source.cols)), ("rows", .num (.ofInt source.rows)), ("generation", .str generation)])

end TerminalOutputQueue

structure OutputFleet where
  reservedBytes : ℤ
  /-- The set of the fleet, in the order of insertion. -/
  viewers : List ℕ
  queues : ℕ → TerminalOutputQueue
  opened : ℕ

structure FleetOptions where
  limit : ℕ
  localeCompare : String → String → ℤ

namespace OutputFleet

open TerminalOutputQueue

/-- No viewer; calls on a queue that is not there do as on a disposed one. -/
def initial : OutputFleet := ⟨0, [], fun _ => { TerminalOutputQueue.new "" "" 0 with disposed := true }, 0⟩

def put (w : OutputFleet) (v : ℕ) (q : TerminalOutputQueue) : OutputFleet :=
  { w with queues := Function.update w.queues v q }

def «open» (w : OutputFleet) (id generation : String) (now : ℤ) : OutputFleet :=
  { w.put w.opened (TerminalOutputQueue.new id generation now) with opened := w.opened + 1 }

def release (w : OutputFleet) (v : ℕ) (bytes : ℤ) : OutputFleet :=
  { w with
    reservedBytes := w.reservedBytes - bytes
    viewers := if (w.queues v).reservedBytes = 0 then w.viewers.erase v else w.viewers }

def dispose (w : OutputFleet) (v : ℕ) : OutputFleet :=
  let q := w.queues v
  if q.disposed then w
  else
    (w.put v { q with
      disposed := true
      stallTimer := false
      pending := []
      held := []
      reservedBytes := 0
      outstandingBytes := 0 }).release v q.reservedBytes

def retire (w : OutputFleet) (v : ℕ) (reason : LagReason) : OutputFleet :=
  if (w.queues v).disposed then w
  else
    let w := w.dispose v
    w.put v { w.queues v with closed := some reason }

variable (opts : FleetOptions)

/-- The order of the sort: pressure first, then the longest without progress. -/
def notAfter (w : OutputFleet) (a b : ℕ) : Bool :=
  let pressure := (w.queues b).retainedPressure - (w.queues a).retainedPressure
  let progress := (w.queues a).lastProgressAt - (w.queues b).lastProgressAt
  if pressure ≠ 0 then pressure ≤ 0
  else if progress ≠ 0 then progress ≤ 0
  else opts.localeCompare (w.queues a).id (w.queues b).id ≤ 0

def largest (w : OutputFleet) (v : ℕ) : Option ℕ :=
  ((w.viewers.filter (· ≠ v)).insertionSort fun a b => notAfter opts w a b = true).head?

/-- The loop of `reserve`. Every turn takes a viewer out of the set, so that its size is
enough fuel. -/
def reserveLoop (v : ℕ) (bytes : ℕ) : ℕ → OutputFleet → Bool × OutputFleet
  | 0, w => (false, w.retire v .fleetBudget)
  | fuel + 1, w =>
    if (bytes : ℤ) > opts.limit - w.reservedBytes then
      match w.largest opts v with
      | none => (false, w.retire v .fleetBudget)
      | some u =>
        if (w.queues u).retainedPressure ≤ (w.queues v).retainedPressure then (false, w.retire v .fleetBudget)
        else reserveLoop v bytes fuel (w.retire u .fleetBudget)
    else (true, { w with
      viewers := if v ∈ w.viewers then w.viewers else w.viewers ++ [v]
      reservedBytes := w.reservedBytes + bytes })

def reserve (w : OutputFleet) (v : ℕ) (bytes : ℕ) : Bool × OutputFleet :=
  reserveLoop opts v bytes (w.viewers.length + 1) w

/-- `reserve`, and the viewer's own count when it is granted. -/
def charge (w : OutputFleet) (v : ℕ) (bytes : ℕ) : Bool × OutputFleet :=
  let (granted, w) := w.reserve opts v bytes
  if granted then
    (true, w.put v { w.queues v with reservedBytes := (w.queues v).reservedBytes + bytes })
  else (false, w)

def discharge (w : OutputFleet) (v : ℕ) (bytes : ℕ) : OutputFleet :=
  (w.put v { w.queues v with reservedBytes := (w.queues v).reservedBytes - bytes }).release v bytes

def releaseSegment (w : OutputFleet) (v i : ℕ) : OutputFleet :=
  (w.put v { w.queues v with held := (w.queues v).held.erase i }).discharge v FRAME_BYTES

def releaseAcknowledged (w : OutputFleet) (v : ℕ) : OutputFleet :=
  (w.queues v).held.foldl (fun w i =>
    let segment := (w.queues v).segments i
    let done := match segment.sentEnd with
      | none => false
      | some sentEnd => sentEnd ≤ (w.queues v).acknowledged
    if segment.transmitting = 0 && done then w.releaseSegment v i else w) w

end OutputFleet

end Kookr.Server
