import Kookr.Lib.History
import Kookr.Spec.Server.TerminalOutputQueue
import Kookr.Lib.Exec

/-! What a viewer is to be sent. The stream is a list of bytes with their positions in the
source; each event of a queue's history says what becomes of the bytes not yet sent. No
segment, credit or buffer occurs here. -/

namespace Kookr.Server

open Kookr.Lib

structure SourceMark where
  epoch : String
  geometryRevision : ℕ
  cols : ℕ
  rows : ℕ
  position : ℤ
  deriving DecidableEq

abbrev MarkedByte := UInt8 × Option SourceMark

def TerminalSourceRange.mark (source : TerminalSourceRange) (n : ℕ) : SourceMark :=
  ⟨source.epoch, source.geometryRevision, source.cols, source.rows, source.start + n⟩

/-- The bytes with their positions in the source, which starts with the first of them. -/
def marked (source : Option TerminalSourceRange) (bytes : List UInt8) : List MarkedByte :=
  bytes.mapIdx fun n b => (b, source.map fun s => s.mark n)

def isUnpositioned (b : MarkedByte) : Bool := b.2.isNone

/-- The byte has a position, and the snapshot ends at or before it. -/
def isBeyond (stop : ℤ) (b : MarkedByte) : Bool :=
  match b.2 with
  | none => false
  | some mark => stop ≤ mark.position

/-- The bytes not yet sent after an event. A snapshot goes before them and replaces those
it covers. -/
def receive (unsent : List MarkedByte) : OutputEvent → List MarkedByte
  | .enqueued bytes source => unsent ++ marked source bytes
  | .discarded => []
  | .seeded snapshot bytes useAttachReplay =>
    marked none bytes ++ (if useAttachReplay then unsent.filter isUnpositioned else []) ++
      unsent.filter (isBeyond snapshot.stop)
  | .control _ => unsent
  | .frame bytes => unsent.drop bytes.length

def unsentAfter (history : List OutputEvent) : List MarkedByte := history.foldl receive []

/-- A frame is the next bytes of the stream; when they have positions, the message right
before it says which. -/
def FrameFits (generation : String) (past : List OutputEvent) (e : OutputEvent) : Prop :=
  ∀ bytes, e = .frame bytes → bytes ≠ [] ∧ ∃ source : Option TerminalSourceRange,
    marked source bytes <+: unsentAfter past ∧ ∀ s, source = some s → s.stop = s.start + bytes.length ∧
      past.getLast? = some (.control (TerminalOutputQueue.sourceText generation s s.start s.stop))

/-- The positions of the bytes go up one by one from `start`. -/
def ContinuesFrom (epoch : String) (start : ℤ) (bytes : List MarkedByte) : Prop :=
  ∀ (n : ℕ) (b : MarkedByte), bytes[n]? = some b →
    ∃ mark, b.2 = some mark ∧ mark.epoch = epoch ∧ mark.position = start + n

/-- What stays behind a snapshot continues it without a gap. -/
def SeedFits (past : List OutputEvent) (e : OutputEvent) : Prop :=
  ∀ snapshot bytes useAttachReplay, e = .seeded snapshot bytes useAttachReplay →
    ContinuesFrom snapshot.epoch snapshot.stop ((unsentAfter past).filter (isBeyond snapshot.stop))

end Kookr.Server

/-! The operations of a terminal output queue on the fleet
(`src/server/terminal-output-queue.ts`), and the runs of all viewers. An operation that
throws says so; `flush` is the deferred task, which catches it. -/

namespace Kookr.Server

open Kookr.Lib

namespace OutputFleet

open TerminalOutputQueue

variable (opts : FleetOptions)

/-- The segment that takes the next bytes, or nothing when the viewer was retired. -/
def segmentFor (w : OutputFleet) (v : ℕ) (source : Option TerminalSourceRange) (offset : ℕ) : Option ℕ × OutputFleet :=
  let q := w.queues v
  match q.openSegment source offset with
  | some i => (some i, w)
  | none =>
    if q.reservedBytes + FRAME_BYTES > VIEWER_BYTES then (none, w.retire v .viewerBudget)
    else match w.charge opts v FRAME_BYTES with
      | (false, w) => (none, w)
      | (true, w) => (some (w.queues v).created, w.put v ((w.queues v).addSegment source offset))

/-- The loop of `enqueue`. Every turn copies a byte at least, so that the number of bytes
is enough fuel. -/
def enqueueLoop (v : ℕ) (bytes : List UInt8) (source : Option TerminalSourceRange) :
    ℕ → ℕ → OutputFleet → Bool × OutputFleet
  | 0, _, w => (true, w)
  | fuel + 1, offset, w =>
    if offset < bytes.length then
      match w.segmentFor opts v source offset with
      | (none, w) => (false, w)
      | (some i, w) =>
        let (count, q) := (w.queues v).fillSegment i bytes offset
        enqueueLoop v bytes source fuel (offset + count) (w.put v q)
    else (true, w)

def mismatched (bytes : List UInt8) (source : Option TerminalSourceRange) : Bool :=
  match source with
  | none => false
  | some source => source.stop - source.start ≠ bytes.length

def enqueue (w : OutputFleet) (v : ℕ) (bytes : List UInt8) (source : Option TerminalSourceRange) : Bool × OutputFleet :=
  let q := w.queues v
  if q.disposed then (false, w)
  else if (bytes.length : ℤ) > VIEWER_BYTES - q.outstandingBytes then (false, w.retire v .viewerBudget)
  else if mismatched bytes source then (false, w)
  else
    let w := w.put v { q with outstandingBytes := q.outstandingBytes + bytes.length }
    match enqueueLoop opts v bytes source bytes.length 0 w with
    | (false, w) => (false, w)
    | (true, w) => (true, w.put v (w.queues v).schedule)

def control (w : OutputFleet) (v : ℕ) (message : List (String × Json)) : Bool × OutputFleet :=
  let q := w.queues v
  let text := Json.stringify (.obj message)
  if q.disposed then (false, w)
  else if byteLength text > 4096 || q.controlCount + q.transmittingControls ≥ 64 then
    (false, w.retire v .controlBudget)
  else
    let q := { q with
      pending := q.pending ++ [Entry.control text]
      controlCount := q.controlCount + 1 }
    (true, w.put v q.schedule)

def discardEntry (v : ℕ) (w : OutputFleet) : Entry → OutputFleet
  | .control _ => w
  | .bytes i =>
    let q := (w.queues v).dropUnsent i
    if (q.segments i).offset = 0 then (w.put v q).releaseSegment v i
    else w.put v (q.setSentEnd i)

def discardUnsent (w : OutputFleet) (v : ℕ) : OutputFleet :=
  let w := (w.queues v).pending.foldl (discardEntry v) w
  (w.put v { w.queues v with pending := [], controlCount := 0 }).releaseAcknowledged v

/-- The second loop of `seed`: what of the pending bytes goes behind the snapshot. -/
structure SeedProgress where
  fleet : OutputFleet
  live : List Entry
  replay : List Entry

def seedEntry (v : ℕ) (snapshot : TerminalSourceRange) (useAttachReplay : Bool) (acc : SeedProgress) :
    Entry → SeedProgress
  -- the first loop has refused these
  | .control _ => acc
  | .bytes i =>
    let q := acc.fleet.queues v
    let entry := q.segments i
    match entry.source with
    | none =>
      if useAttachReplay then { acc with replay := acc.replay ++ [.bytes i] }
      else { acc with fleet := (acc.fleet.put v (q.dropUnsent i)).releaseSegment v i }
    | some source =>
      let count := skipped snapshot entry source
      let q := q.skipBytes i count
      if entry.offset + count = entry.length then
        if entry.offset = 0 then { acc with fleet := (acc.fleet.put v q).releaseSegment v i }
        else { acc with fleet := acc.fleet.put v (q.setSentEnd i) }
      else { acc with fleet := acc.fleet.put v q, live := acc.live ++ [.bytes i] }

def pushPending (w : OutputFleet) (v : ℕ) (entries : List Entry) : OutputFleet :=
  w.put v { w.queues v with pending := (w.queues v).pending ++ entries }

/-- `seed`, from the point where the snapshot goes in. -/
def seedInsert (w : OutputFleet) (v : ℕ) (bytes : List UInt8) (before after : List (String × Json))
    (live replay : List Entry) : Bool × OutputFleet :=
  match w.control v before with
  | (false, w) => (false, w)
  | (true, w) =>
    match w.enqueue opts v bytes none with
    | (false, w) => (false, w)
    | (true, w) =>
      match (w.pushPending v replay).control v after with
      | (false, w) => (false, w)
      | (true, w) => (true, w.pushPending v live)

def seed (w : OutputFleet) (v : ℕ) (snapshot : TerminalSourceRange) (bytes : List UInt8)
    (before after : List (String × Json)) (useAttachReplay : Bool) : Bool × OutputFleet :=
  let q := w.queues v
  if q.disposed || !q.paused then (false, w)
  else if !q.seedAccepts snapshot q.pending snapshot.stop then (false, w)
  else
    let done := q.pending.foldl (seedEntry v snapshot useAttachReplay) ⟨w, [], []⟩
    let w := done.fleet.put v { done.fleet.queues v with pending := [] }
    seedInsert opts (w.releaseAcknowledged v) v bytes before after done.live done.replay

def isSafeInteger (n : ℤ) : Bool := n.natAbs ≤ 9007199254740991

/-- A count that is no integer is refused like one that is not safe. -/
def acknowledge (w : OutputFleet) (v : ℕ) (generation : String) (bytes : ℤ) (now : ℤ) : Bool × OutputFleet :=
  let q := w.queues v
  if q.disposed || generation ≠ q.generation || !isSafeInteger bytes || bytes < 0 || bytes > q.sent then (false, w)
  else if bytes ≤ q.acknowledged then (true, w)
  else
    let w := w.put v { q with
      outstandingBytes := q.outstandingBytes - (bytes - q.acknowledged)
      acknowledged := bytes.toNat
      lastProgressAt := now }
    let w := w.releaseAcknowledged v
    (true, w.put v ((w.queues v).armStallTimer true).schedule)

/-- A callback of `send`; it acts once, and not for a disposed queue. -/
def complete (w : OutputFleet) (v k : ℕ) (error : Bool) : OutputFleet :=
  let q := w.queues v
  match q.callbacks[k]? with
  | none => w
  | some callback =>
    if callback.completed || q.disposed then w
    else
      let q := { q with callbacks := q.callbacks.set k { callback with completed := true } }
      match callback.payload with
      | .control bytes =>
        let w := (w.put v { q with transmittingControls := q.transmittingControls - 1 }).discharge v bytes
        if error then w.retire v .sendFailed else w
      | .frame i _ =>
        let segment := q.segments i
        let w := w.put v (q.setSegment i { segment with transmitting := segment.transmitting - 1 })
        if error then w.retire v .sendFailed else w.releaseAcknowledged v

/-- Whether `send` threw, and the fleet after the completions it reported. -/
def send (w : OutputFleet) (v : ℕ) (payload : Payload) (event : OutputEvent) (outcome : SendOutcome) : Bool × OutputFleet :=
  let q := w.queues v
  let k := q.callbacks.length
  let q := { q with callbacks := q.callbacks ++ [Callback.mk payload false] }
  let w := w.put v (q.record event)
  (outcome.throws, outcome.completions.foldl (fun w error => w.complete v k error) w)

/-- Nothing when `send` throws. -/
def sendControl (w : OutputFleet) (v : ℕ) (text : List Char) (outcome : SendOutcome) : Option Bool × OutputFleet :=
  let q := w.queues v
  let bytes := byteLength text
  if q.transmittingControls ≥ 64 then (some false, w.retire v .controlBudget)
  else if (bytes : ℤ) > VIEWER_BYTES - q.reservedBytes then (some false, w.retire v .viewerBudget)
  else match w.charge opts v bytes with
    | (false, w) => (some false, w)
    | (true, w) =>
      let w := w.put v { w.queues v with transmittingControls := (w.queues v).transmittingControls + 1 }
      match w.send v (.control bytes) (.control text) outcome with
      | (true, w) => (none, w)
      | (false, w) => (some (!(w.queues v).disposed), w)

/-- Send the next bytes of a segment, with its ownership registered first. -/
def sendFrame (w : OutputFleet) (v i count : ℕ) (outcome : SendOutcome) : Bool × OutputFleet :=
  let q := w.queues v
  let next := q.segments i
  let frame := (next.data.drop next.offset).take count
  let sent := q.sent + count
  let finished : Bool := next.offset + count = next.length
  let q := { q with
    sent := sent
    pending := if finished then q.pending.tail else q.pending }
  let q := q.setSegment i { next with
    offset := next.offset + count
    sentEnd := if finished then some sent else next.sentEnd
    transmitting := next.transmitting + 1 }
  match (w.put v q).send v (.frame i sent) (.frame frame) outcome with
  | (true, w) => (true, w)
  | (false, w) => (false, w.put v ((w.queues v).armStallTimer false))

/-- Whether a call of `send` threw. -/
def flushOne (w : OutputFleet) (v : ℕ) (control frame : SendOutcome) : Bool × OutputFleet :=
  let q := w.queues v
  match q.pending with
  | [] => (false, w)
  | .control text :: rest =>
    let w := w.put v { q with pending := rest, controlCount := q.controlCount - 1 }
    let (result, w) := w.sendControl opts v text control
    (result.isNone, w)
  | .bytes i :: _ =>
    let next := q.segments i
    let count := min (next.length - next.offset) (CREDIT_BYTES - (q.sent - q.acknowledged))
    if count = 0 then (false, w)
    else match next.source with
      | none => w.sendFrame v i count frame
      | some source =>
        let start := source.start + next.offset
        match w.sendControl opts v (sourceText q.generation source start (start + count)) control with
        | (none, w) => (true, w)
        | (some false, w) => (false, w)
        | (some true, w) => w.sendFrame v i count frame

def flush (w : OutputFleet) (v : ℕ) (control frame : SendOutcome) : OutputFleet :=
  let w := w.put v { w.queues v with scheduled := false }
  if (w.queues v).disposed || (w.queues v).paused then w
  else
    let (threw, w) := w.flushOne opts v control frame
    let w := if threw then w.retire v .sendFailed else w
    w.put v (w.queues v).schedule

inductive Action where
  | «open» (id generation : String) (now : ℤ)
  | enqueue (v : ℕ) (bytes : List UInt8) (source : Option TerminalSourceRange)
  | control (v : ℕ) (message : List (String × Json))
  | setPaused (v : ℕ) (paused : Bool)
  | seed (v : ℕ) (snapshot : TerminalSourceRange) (bytes : List UInt8) (before after : List (String × Json))
      (useAttachReplay : Bool)
  | discardUnsent (v : ℕ)
  | acknowledge (v : ℕ) (generation : String) (bytes : ℤ) (now : ℤ)
  | flush (v : ℕ) (control frame : SendOutcome)
  | complete (v k : ℕ) (error : Bool)
  | stall (v : ℕ)
  | dispose (v : ℕ)

/-- The history of a viewer takes up what it was given when the call succeeds. -/
def recordIf (v : ℕ) (e : OutputEvent) (result : Bool × OutputFleet) : OutputFleet :=
  if result.1 then result.2.put v ((result.2.queues v).record e) else result.2

def step (w : OutputFleet) : Action → Option OutputFleet
  | .open name generation now => some (w.open name generation now)
  | .enqueue v bytes source => some (recordIf v (.enqueued bytes source) (w.enqueue opts v bytes source))
  | .control v message => some (w.control v message).2
  | .setPaused v paused => some (w.put v ((w.queues v).setPaused paused))
  | .seed v snapshot bytes before after useAttachReplay =>
    some (recordIf v (.seeded snapshot bytes useAttachReplay)
      (w.seed opts v snapshot bytes before after useAttachReplay))
  | .discardUnsent v => some (recordIf v .discarded (true, w.discardUnsent v))
  | .acknowledge v generation bytes now => some (w.acknowledge v generation bytes now).2
  | .flush v control frame =>
    if (w.queues v).scheduled then some (w.flush opts v control frame) else none
  | .complete v k error => some (w.complete v k error)
  | .stall v => if (w.queues v).stallTimer then some (w.retire v .ackStalled) else none
  | .dispose v => some (w.dispose v)

end OutputFleet

end Kookr.Server
