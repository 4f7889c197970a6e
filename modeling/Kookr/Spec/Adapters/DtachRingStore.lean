import Kookr.Lib.JsonFields
import Kookr.Lib.RingBuffer
import Kookr.Lib.Utf8
import Kookr.Lib.History
import Kookr.Spec.Server.TerminalOutputQueue
import Mathlib.Data.List.DropRight

/-! The scrollback ring of a terminal session and its file (`src/adapters/dtach-ring-store.ts`). Positions,
capacities and times are natural numbers; what else a file may hold as a number is a parameter. -/

namespace Kookr.Adapters

open Kookr.Lib

def ringBufferBytes : ℕ := 1024 * 1024

structure DtachRingState (ν : Type) where
  id : String
  ringHead : ℕ
  lastByteAt : Option ν
  ringBuffer : Bytes
  /-- `-1` until the first flush, and after a new layout. -/
  lastFlushedHead : ℤ
  resetSeq : ℕ
  capacity_pos : 0 < ringBuffer.length

/-- The files of one session: the combined one, and the pair it replaced. -/
structure RingFiles where
  ring : Option Bytes
  bin : Option Bytes
  binMeta : Option Bytes

namespace DtachRingState

variable {ν : Type}

def create (id : String) (capacity : ℕ) : DtachRingState ν where
  id
  ringHead := 0
  lastByteAt := none
  ringBuffer := List.replicate (max 1 capacity) 0
  lastFlushedHead := -1
  resetSeq := 0
  capacity_pos := by simp

variable (state : DtachRingState ν)

def ringCapacity : ℕ := state.ringBuffer.length

def available : ℕ := min state.ringHead state.ringCapacity

/-- What the ring retains. -/
def contents : Bytes := RingBuffer.read state.ringBuffer state.ringHead state.available

/-- The last `keep` bytes at the start of a new buffer. -/
def relinearize (target keep : ℕ) (h : 0 < target) : DtachRingState ν :=
  { state with
    ringBuffer := RingBuffer.copyAt (List.replicate target 0) 0 (RingBuffer.read state.ringBuffer state.ringHead keep)
    ringHead := keep
    lastFlushedHead := -1
    resetSeq := state.resetSeq + 1
    capacity_pos := by
      refine Nat.lt_of_lt_of_le ?_ (RingBuffer.length_le_copyAt _ _ _)
      rwa [List.length_replicate] }

def shrinkRing (newCapacity : ℕ) : DtachRingState ν × Bool :=
  if state.ringCapacity ≤ max 1 newCapacity then (state, false)
  else (state.relinearize (max 1 newCapacity) (min state.available (max 1 newCapacity)) (Nat.le_max_left _ _), true)

def expandRing (newCapacity : ℕ) : DtachRingState ν × Bool :=
  if max 1 newCapacity ≤ state.ringCapacity then (state, false)
  else (state.relinearize (max 1 newCapacity) state.available (Nat.le_max_left _ _), true)

def copyInto (bytes : Bytes) : DtachRingState ν :=
  let cap := state.ringBuffer.length
  -- of a chunk that is longer than the ring only the end is retained
  let retained := if cap < bytes.length then bytes.drop (bytes.length - cap) else bytes
  let firstLogical := if cap < bytes.length then state.ringHead + (bytes.length - cap) else state.ringHead
  if bytes = [] then state
  else
    { state with
      ringBuffer := RingBuffer.write state.ringBuffer firstLogical retained
      ringHead := state.ringHead + bytes.length
      capacity_pos := Nat.lt_of_lt_of_le state.capacity_pos (RingBuffer.length_le_write _ _ _) }

variable [NatCast ν] [DecidableEq ν] (num : NumberText ν)

/-- The header of a combined file, which is one line. -/
def snapshotHeader (savedAt : Timestamp) : Json :=
  .obj [("version", .num (num.lit (2 : ℕ))), ("size", .num (num.lit state.available)), ("savedAt", Json.date savedAt),
    ("lastByteAt", state.lastByteAt.elim .null fun t => .num (num.lit t))]

def snapshot (savedAt : Timestamp) : Bytes :=
  Utf8.encode (state.snapshotHeader num savedAt).stringify ++ 0x0A :: state.contents

def numberAt (j : Json) (k : String) : Option ν := ((j.get k).bind Json.asNum).bind fun n => num.value n.text

/-- The bytes, if the header says this version and this size, and `lastByteAt` where it is a finite number. -/
def checked (version : ℕ) (header : List Char) (buf : Bytes) : Option (Bytes × Option ν) :=
  (Json.parse header).bind fun header =>
    if numberAt num header "version" = some (version : ν) ∧ numberAt num header "size" = some (buf.length : ν) then
      some (buf, numberAt num header "lastByteAt")
    else none

/-- `loadCombined` up to `applySnapshot`. -/
def readCombined (file : Bytes) : Option (Bytes × Option ν) :=
  match file.dropWhile fun b => b ≠ 0x0A with
  | [] => none
  | _ :: payload => checked num 2 (Utf8.decode (file.takeWhile fun b => b ≠ 0x0A)) payload

/-- `loadLegacy` up to `applySnapshot`. -/
def readLegacy (bin binMeta : Bytes) : Option (Bytes × Option ν) := checked num 1 (Utf8.decode binMeta) bin

/-- A combined file that is there is authoritative, whether or not it can be read. -/
def savedSnapshot (files : RingFiles) : Option (Bytes × Option ν) :=
  match files.ring with
  | some file => readCombined num file
  | none =>
    match files.bin, files.binMeta with
    | some bin, some binMeta => readLegacy num bin binMeta
    | _, _ => none

omit [NatCast ν] [DecidableEq ν] in
def applySnapshot (buf : Bytes) (lastByteAt : Option ν) : DtachRingState ν :=
  let size := min buf.length state.ringCapacity
  if size = 0 then state
  else
    { state with
      ringBuffer := RingBuffer.copyAt state.ringBuffer 0 (buf.drop (buf.length - size))
      ringHead := size
      lastByteAt
      lastFlushedHead := size
      capacity_pos := Nat.lt_of_lt_of_le state.capacity_pos (RingBuffer.length_le_copyAt _ _ _) }

def load (files : RingFiles) : DtachRingState ν :=
  match savedSnapshot num files with
  | none => state
  | some (buf, lastByteAt) => state.applySnapshot buf lastByteAt

/-- `persist` without asynchronous persistence, where no write fails. -/
def persist (savedAt : Timestamp) : DtachRingState ν × RingFiles :=
  ({ state with lastFlushedHead := state.ringHead }, ⟨some (state.snapshot num savedAt), none, none⟩)

end DtachRingState

end Kookr.Adapters

/-! The byte stream of one session (`src/adapters/local-dtach-stream.ts`): its ring is restored when the session is
attached, takes in the live chunks, and is captured with positions in the stream. `uuid n` is the epoch drawn after
`n` others. Whether the fleet has room for a full ring comes with a chunk, and what the fleet budget does to a ring
at any other time is a shrink of its own. A chunk comes from an attach child, and a session that is gone has none. -/

namespace Kookr.Adapters

open Kookr.Lib Kookr.Server

def recoverySettleMs : ℕ := 250

structure GridSize where
  cols : ℕ
  rows : ℕ
  deriving DecidableEq

structure AttachedSession (ν : Type) extends DtachRingState ν where
  sourceEpoch : String
  sourcePosition : ℕ
  sourceOriginComplete : Bool
  geometryRevision : ℕ
  currentSize : Option GridSize
  attachReplayUntil : ℕ
  attachReplayPending : Bool

inductive DataSource where
  | live
  | attachReplay
  deriving DecidableEq

structure StreamSnapshot extends TerminalSourceRange where
  bytes : Bytes
  originComplete : Bool

/-- What a session restores, what its subscribers are told, and what captures return. -/
inductive StreamOutput where
  | restored (bytes : Bytes) (epoch : String)
  | announced (bytes : Bytes) (source : DataSource) (range : TerminalSourceRange)
  /-- `none` is a buffer of negative size, which is refused. -/
  | captured (maxBytes : ℤ) (result : Option StreamSnapshot)

inductive StreamEvent where
  /-- The files are changed by others. -/
  | files (files : RingFiles)
  | createAttachedState (originComplete : Bool)
  | attachPtyInto (now : ℕ) (initialSize : Option GridSize) (suppressAttachReplay classifyFirstChunkAsReplay : Bool)
  | data (now : ℕ) (bytes : Bytes) (room : Bool)
  | setGeometry (size : GridSize)
  | shrinkRing (capacity : ℕ)
  | expandRing (capacity : ℕ)
  | persist (savedAt : Timestamp)
  | captureStreamSnapshot (maxBytes : ℤ)
  | disposeAttach

structure SessionStream (ν : Type) where
  id : String
  files : RingFiles
  attached : Option (AttachedSession ν)
  epochs : ℕ
  log : List StreamOutput

namespace AttachedSession

variable {ν : Type} (sess : AttachedSession ν)

def setGeometry (size : GridSize) : AttachedSession ν :=
  if sess.currentSize = some size then sess
  else { sess with currentSize := some size, geometryRevision := sess.geometryRevision + 1 }

def sourceRange (start : ℤ) : TerminalSourceRange where
  epoch := sess.sourceEpoch
  start
  stop := sess.sourcePosition
  geometryRevision := sess.geometryRevision
  cols := (sess.currentSize.map GridSize.cols).getD 80
  rows := (sess.currentSize.map GridSize.rows).getD 24

def withRing (ring : DtachRingState ν) : AttachedSession ν := { sess with toDtachRingState := ring }

def tryExpandRing (room : Bool) : AttachedSession ν :=
  if ringBufferBytes ≤ sess.ringCapacity then sess
  else if room then sess.withRing (sess.expandRing ringBufferBytes).1
  else sess

def copyIntoRing [NatCast ν] (now : ℕ) (bytes : Bytes) (room : Bool) : AttachedSession ν :=
  if bytes = [] then sess
  else
    let sess := sess.tryExpandRing room
    let ring : DtachRingState ν := { sess.toDtachRingState with lastByteAt := some (now : ν) }
    { sess.withRing (ring.copyInto bytes) with
      sourcePosition := sess.sourcePosition + bytes.length }

def attachPtyInto (now : ℕ) (initialSize : Option GridSize) (suppressAttachReplay classifyFirstChunkAsReplay : Bool) :
    AttachedSession ν :=
  { sess.setGeometry ((initialSize.or sess.currentSize).getD ⟨80, 24⟩) with
    attachReplayUntil := if suppressAttachReplay then now + recoverySettleMs else 0
    attachReplayPending := classifyFirstChunkAsReplay }

def captureBytes (maxBytes : ℤ) : Option Bytes :=
  let size := min (min maxBytes sess.ringCapacity) sess.available
  if size < 0 then none else some (RingBuffer.read sess.ringBuffer sess.ringHead size.toNat)

def captureStreamSnapshot (maxBytes : ℤ) : Option StreamSnapshot :=
  (sess.captureBytes maxBytes).map fun bytes =>
    let start : ℤ := sess.sourcePosition - bytes.length
    { sess.sourceRange start with
      bytes
      originComplete := sess.sourceOriginComplete && start = 0 }

end AttachedSession

namespace SessionStream

variable {ν : Type}

def start (id : String) (files : RingFiles) : SessionStream ν := ⟨id, files, none, 0, []⟩

variable [NatCast ν] [DecidableEq ν] (num : NumberText ν) (uuid : ℕ → String) (s : SessionStream ν)

def createAttachedState (originComplete : Bool) : SessionStream ν × AttachedSession ν :=
  match s.attached with
  | some sess => (s, sess)
  | none =>
    let ring := (DtachRingState.create s.id ringBufferBytes).load num s.files
    let sourcePosition := ring.available
    let sess : AttachedSession ν :=
      { ring with
        sourceEpoch := uuid s.epochs
        sourcePosition
        sourceOriginComplete := if 0 < sourcePosition then false else originComplete
        geometryRevision := 0
        currentSize := none
        attachReplayUntil := 0
        attachReplayPending := false }
    let restored := ((DtachRingState.savedSnapshot num s.files).map Prod.fst).getD []
    ({ s with
      attached := some sess
      epochs := s.epochs + 1
      log := s.log ++ [.restored (restored.rtake ringBufferBytes) (uuid s.epochs)] }, sess)

/-- `ensureReadable`, of a session whose socket is there. -/
def ensureReadable : SessionStream ν × AttachedSession ν :=
  match s.attached with
  | some sess => (s, sess)
  | none =>
    let (s, sess) := s.createAttachedState num uuid false
    let sess := sess.attachPtyInto 0 none false false
    ({ s with attached := some sess }, sess)

omit [DecidableEq ν] in
/-- A chunk from the attach child. -/
def onData (sess : AttachedSession ν) (now : ℕ) (bytes : Bytes) (room : Bool) : SessionStream ν :=
  let isAttachReplay := sess.attachReplayPending || now < sess.attachReplayUntil
  if bytes = [] then s
  else
    let sess := { sess with attachReplayPending := false }
    let start := sess.sourcePosition
    if isAttachReplay then
      let sess := { sess with sourceEpoch := uuid s.epochs, sourceOriginComplete := false }
      { s with
        attached := some sess
        epochs := s.epochs + 1
        log := s.log ++ [.announced bytes .attachReplay (sess.sourceRange start)] }
    else
      let sess := sess.copyIntoRing now bytes room
      { s with
        attached := some sess
        log := s.log ++ [.announced bytes .live (sess.sourceRange start)] }

def step : StreamEvent → SessionStream ν
  | .files files => { s with files }
  | .createAttachedState originComplete => (s.createAttachedState num uuid originComplete).1
  | .attachPtyInto now initialSize suppress classify =>
    { s with attached := s.attached.map fun sess => sess.attachPtyInto now initialSize suppress classify }
  | .data now bytes room =>
    match s.attached with
    | none => s
    | some sess => s.onData uuid sess now bytes room
  | .setGeometry size => { s with attached := s.attached.map fun sess => sess.setGeometry size }
  | .shrinkRing capacity => { s with attached := s.attached.map fun sess => sess.withRing (sess.shrinkRing capacity).1 }
  | .expandRing capacity => { s with attached := s.attached.map fun sess => sess.withRing (sess.expandRing capacity).1 }
  | .persist savedAt =>
    match s.attached with
    | none => s
    | some sess =>
      let (ring, files) := sess.persist num savedAt
      { s with attached := some (sess.withRing ring), files }
  | .captureStreamSnapshot maxBytes =>
    let (s, sess) := s.ensureReadable num uuid
    { s with log := s.log ++ [.captured maxBytes (sess.captureStreamSnapshot maxBytes)] }
  | .disposeAttach => { s with attached := none }

def run (s : SessionStream ν) (events : List StreamEvent) : SessionStream ν := events.foldl (step num uuid) s

end SessionStream

end Kookr.Adapters
