import Kookr.Spec.Realtime.ClientStore

/-! What a stream is for: a client sees a table of rows under their keys and a list of
relations, and a delta takes one such view to the next. The dashboard's store refines
this view; it also keeps the history of every row. -/

namespace Kookr.Realtime

open Kookr.Lib

/-- The row of a key. -/
def rowOf (agents : List AgentState) (key : String) : Option AgentState := rowAt agentStreamKey agents key

@[ext]
structure View where
  row : String → Option AgentState
  relations : List TaskRelation

namespace View

def ofSnapshot (S : SnapshotMessage) : View := ⟨rowOf S.agents, S.taskRelations.getD []⟩

/-- Rows that are sent replace those of their keys, keys that are removed lose theirs. -/
def applyRows (row : String → Option AgentState) (delta : AgentDelta) (key : String) : Option AgentState :=
  (rowOf delta.upserts key).or (if key ∈ delta.removed then none else row key)

def apply (v : View) (δ : DeltaMessage) : View where
  row := applyRows v.row (δ.agents.getD ⟨[], []⟩)
  relations := δ.taskRelations.getD v.relations

end View

/-- The tasks of the rows in scope. -/
def scopedTasks (projectIds : List String) (agents : List AgentState) : List String :=
  (agents.filter (inScope projectIds)).filterMap taskOf

def edgeAmong (tasks : List String) (rel : TaskRelation) : Bool :=
  decide (rel.sourceTaskId ∈ tasks) && decide (rel.targetTaskId ∈ tasks)

/-- What a viewer of some projects may see of a snapshot. -/
def scopedView (projectIds : List String) (S : SnapshotMessage) : View where
  row := rowOf (S.agents.filter (inScope projectIds))
  relations := (S.taskRelations.getD []).filter (edgeAmong (scopedTasks projectIds S.agents))

end Kookr.Realtime

/-! A server, a dashboard and the socket between them: the sequencer
(`src/server/snapshot-stream-sequencer.ts`), the flush of `broadcastToAll`, the snapshot a
connect or a resync request is answered with, and the dashboard's sequence tracker
(`src/frontend/delta-sequence.ts`). Frames of one socket arrive in the order they were
sent. A flush while load is shed sends nothing and moves nothing, and is left out. -/

namespace Kookr.Realtime

open Kookr.Lib

structure StreamPosition where
  epoch : String
  seq : ℕ
  deriving DecidableEq

structure SnapshotStreamSequencer where
  epochValue : String
  seqValue : ℕ

namespace SnapshotStreamSequencer

/-- The next flush position. -/
def advance (q : SnapshotStreamSequencer) : StreamPosition × SnapshotStreamSequencer :=
  (⟨q.epochValue, q.seqValue + 1⟩, { q with seqValue := q.seqValue + 1 })

def current (q : SnapshotStreamSequencer) : StreamPosition := ⟨q.epochValue, q.seqValue⟩

end SnapshotStreamSequencer

def stampSnapshotPosition (msg : SnapshotMessage) (position : StreamPosition) : SnapshotMessage :=
  { msg with epoch := some position.epoch, seq := some position.seq }

inductive Frame where
  | snapshot (msg : SnapshotMessage)
  | delta (msg : DeltaMessage)

structure RealtimeServer where
  /-- The snapshot of the state as it is now, without a position. -/
  live : SnapshotMessage
  sequencer : SnapshotStreamSequencer
  lastBroadcastSnapshot : Option SnapshotMessage

namespace RealtimeServer

/-- The snapshot of the next flush. -/
def flushSnapshot (s : RealtimeServer) : SnapshotMessage :=
  stampSnapshotPosition s.live s.sequencer.advance.1

/-- `broadcastToAll` of a snapshot: the frame for the sockets, and the new baseline. -/
def broadcastToAll (s : RealtimeServer) : Option (Frame × RealtimeServer) := do
  let msg := s.flushSnapshot
  let next := { s with sequencer := s.sequencer.advance.2, lastBroadcastSnapshot := some msg }
  match s.lastBroadcastSnapshot with
  | some previous =>
    let delta ← buildDeltaFromSnapshots previous msg
    return (.delta delta, next)
  | none => return (.snapshot msg, next)

def buildConnectSnapshot (s : RealtimeServer) : SnapshotMessage :=
  stampSnapshotPosition s.live s.sequencer.current

end RealtimeServer

inductive ResyncReason where
  | seqGap
  | epochChange
  | applyError
  deriving DecidableEq

inductive DeltaVerdict where
  | apply
  | resync (reason : ResyncReason)
  deriving DecidableEq

/-- The position last adopted; `none` before a snapshot that carries one. -/
structure DeltaSequenceTracker where
  position : Option StreamPosition

namespace DeltaSequenceTracker

def onSnapshot (t : DeltaSequenceTracker) (msg : SnapshotMessage) : DeltaSequenceTracker :=
  match msg.epoch, msg.seq with
  | some epoch, some seq => ⟨some ⟨epoch, seq⟩⟩
  | _, _ => t

def evaluateDelta (t : DeltaSequenceTracker) (position : StreamPosition) : DeltaVerdict :=
  match t.position with
  | none => .resync .applyError
  | some stored =>
    if position.epoch ≠ stored.epoch then .resync .epochChange
    else if position.seq ≠ stored.seq + 1 then .resync .seqGap
    else .apply

def advance (position : StreamPosition) : DeltaSequenceTracker := ⟨some position⟩

end DeltaSequenceTracker

structure Dashboard where
  tracker : DeltaSequenceTracker
  store : ClientStore
  /-- The rows it was sent, without the histories the store gathers. -/
  seen : String → Option AgentState

/-- A delta out of order changes nothing; the dashboard asks for a snapshot. -/
def Dashboard.receive (d : Dashboard) : Frame → Dashboard
  | .snapshot msg => ⟨d.tracker.onSnapshot msg, handleSnapshot d.store msg, rowOf msg.agents⟩
  | .delta msg =>
    match d.tracker.evaluateDelta ⟨msg.epoch, msg.seq⟩ with
    | .apply => ⟨.advance ⟨msg.epoch, msg.seq⟩, handleDelta d.store msg,
        View.applyRows d.seen (msg.agents.getD ⟨[], []⟩)⟩
    | .resync _ => d

structure StreamSystem where
  server : RealtimeServer
  /-- The frames in flight, where the dashboard is connected. -/
  socket : Option (List Frame)
  dashboard : Dashboard
  /-- The snapshots of all flushes, the `n`-th being flush `n`. -/
  flushes : List SnapshotMessage
  /-- The rows of the server's state that the last frame to the dashboard was made of. -/
  sent : List AgentState

inductive StreamEvent where
  | change (live : SnapshotMessage)
  | flush
  | connect
  | disconnect
  | requestResync
  | deliver

namespace StreamSystem

def initial (epoch : String) (live : SnapshotMessage) (dashboard : Dashboard) : StreamSystem where
  server := ⟨live, ⟨epoch, 0⟩, none⟩
  socket := none
  dashboard := dashboard
  flushes := []
  sent := []

def step (s : StreamSystem) : StreamEvent → Option StreamSystem
  | .change live => some { s with server := { s.server with live } }
  | .flush => do
    let (frame, server) ← s.server.broadcastToAll
    return { s with
      server
      socket := s.socket.map fun frames => frames ++ [frame]
      flushes := s.flushes ++ [s.server.flushSnapshot]
      sent := s.server.live.agents }
  | .connect => some { s with
      socket := some [.snapshot s.server.buildConnectSnapshot]
      sent := s.server.live.agents }
  | .disconnect => some { s with socket := none }
  | .requestResync => do
    let frames ← s.socket
    return { s with
      socket := some (frames ++ [.snapshot s.server.buildConnectSnapshot])
      sent := s.server.live.agents }
  | .deliver =>
    match s.socket with
    | some (frame :: frames) => some { s with socket := some frames, dashboard := s.dashboard.receive frame }
    | _ => none

end StreamSystem

end Kookr.Realtime
