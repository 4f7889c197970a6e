import Kookr.Spec.Realtime.SnapshotDelta
import Mathlib.Data.List.Lex
import Mathlib.Data.List.Sort
import Mathlib.Logic.Function.Basic

/-! The fan-out of frames to dashboard sockets (`src/server/viewer-broadcaster.ts`). Sockets
are numbered. The texts a frame is serialized to are not kept: a send goes by the type of
its message. What the sockets do is given from outside: the queue length each send reads,
and whether the socket throws. A socket that is closed is not open again. -/

namespace Kookr.Realtime

open Kookr.Lib

inductive Scope where
  | all
  | projects (projectIds : List String)

inductive Actor where
  | owner
  | viewer (scope : Scope)

/-- The UTF-16 code units of a string, by which JavaScript orders strings. -/
def codeUnits (s : String) : List ℕ :=
  s.toList.flatMap fun c =>
    if c.toNat < 0x10000 then [c.toNat]
    else [0xD800 + (c.toNat - 0x10000) / 0x400, 0xDC00 + (c.toNat - 0x10000) % 0x400]

def canonicalizeScope : Scope → Scope
  | .all => .all
  | .projects projectIds =>
    .projects (projectIds.dedup.insertionSort fun a b => codeUnits a ≤ codeUnits b)

def actorScope : Actor → Scope
  | .owner => .all
  | .viewer scope => canonicalizeScope scope

inductive NoticeKind where
  | resyncNeeded
  | loadShedActive
  | loadShedRecovered
  deriving DecidableEq

inductive MessageType where
  | snapshot
  | delta
  | coordinatorSnapshot
  | wsBackpressureNotice
  | other
  deriving DecidableEq

/-- A server message; `other` stands for the types that are all fanned out alike. -/
inductive ServerMessage where
  | snapshot (msg : SnapshotMessage)
  | delta (msg : DeltaMessage)
  | coordinatorSnapshot (coordinator : Json)
  | wsBackpressureNotice (kind : NoticeKind)
  | other (body : Json)

def ServerMessage.type : ServerMessage → MessageType
  | .snapshot _ => .snapshot
  | .delta _ => .delta
  | .coordinatorSnapshot _ => .coordinatorSnapshot
  | .wsBackpressureNotice _ => .wsBackpressureNotice
  | .other _ => .other

/-- The thresholds, as the constructor normalizes them. -/
structure BackpressureLimits where
  softBytes : ℕ
  hardBytes : ℕ
  /-- `0` switches the sustained-skip disconnect off. -/
  disconnectAfterSkips : ℕ
  soft_pos : 1 ≤ softBytes
  soft_le_hard : softBytes ≤ hardBytes

/-- Options are the floors of the numbers given. -/
def BackpressureLimits.ofDeps (softBytes hardBytes disconnectAfterSkips : Option ℤ) : BackpressureLimits where
  softBytes := max 1 (softBytes.getD 1048576).toNat
  hardBytes := max (max 1 (softBytes.getD 1048576).toNat) (hardBytes.getD 16777216).toNat
  disconnectAfterSkips := (disconnectAfterSkips.getD 5).toNat
  soft_pos := le_max_left _ _
  soft_le_hard := le_max_left _ _

/-- What a socket does at one send. -/
structure Reading where
  bufferedAmount : ℕ
  sendThrows : Bool

structure BroadcasterDeps where
  limits : BackpressureLimits
  /-- `shouldSendSerializedSnapshotFrame`: the frame is within the payload cap. -/
  shouldSend : ServerMessage → Bool
  /-- The reading of the `n`-th send. -/
  readings : ℕ → Reading

structure Connection where
  ws : ℕ
  actor : Actor

inductive SendResult where
  | notOpen
  | hardClosed
  | softSkipped (disconnected : Bool)
  | failed
  | sent
  deriving DecidableEq

/-- One call of `send`. -/
structure SendRecord where
  ws : ℕ
  payloadType : MessageType
  result : SendResult
  deriving DecidableEq

structure Broadcaster where
  connections : List Connection
  isOpen : ℕ → Bool
  /-- `consecutiveSkips` of the sockets that skipped a snapshot. -/
  staleClients : ℕ → Option ℕ
  needsSnapshotClients : ℕ → Bool
  loadShedActive : Bool
  wasLoadShedActive : Bool
  log : List SendRecord

namespace Broadcaster

def initial : Broadcaster where
  connections := []
  isOpen _ := true
  staleClients _ := none
  needsSnapshotClients _ := false
  loadShedActive := false
  wasLoadShedActive := false
  log := []

def record (s : Broadcaster) (ws : ℕ) (msg : ServerMessage) (result : SendResult) : Broadcaster :=
  { s with log := s.log ++ [⟨ws, msg.type, result⟩] }

/-- `registry.unregister(ws)` and `ws.close(..)`. -/
def drop (s : Broadcaster) (ws : ℕ) : Broadcaster :=
  { s with
    connections := s.connections.filter fun c => decide (c.ws ≠ ws)
    isOpen := Function.update s.isOpen ws false }

/-- Both latches are cleared. -/
def forget (s : Broadcaster) (ws : ℕ) : Broadcaster :=
  { s with
    staleClients := Function.update s.staleClients ws none
    needsSnapshotClients := Function.update s.needsSnapshotClients ws false }

variable (deps : BroadcasterDeps)

/-- A frame is skipped for a socket above the soft threshold. -/
def softSkip (s : Broadcaster) (ws : ℕ) (msg : ServerMessage) : Broadcaster :=
  let s := { s with needsSnapshotClients := Function.update s.needsSnapshotClients ws true }
  if msg.type = .snapshot ∧ 0 < deps.limits.disconnectAfterSkips then
    let consecutiveSkips := (s.staleClients ws).getD 0 + 1
    if deps.limits.disconnectAfterSkips ≤ consecutiveSkips then
      (({ s with staleClients := Function.update s.staleClients ws none }).drop ws).record ws msg (.softSkipped true)
    else
      ({ s with staleClients := Function.update s.staleClients ws (some consecutiveSkips) }).record ws msg
        (.softSkipped false)
  else s.record ws msg (.softSkipped false)

/-- Whether the frame was sent. A socket that was stale gets a `resyncNeeded` notice first,
whose failure is ignored. -/
def send (s : Broadcaster) (ws : ℕ) (msg : ServerMessage) : Bool × Broadcaster :=
  if s.isOpen ws = false then (false, s.record ws msg .notOpen)
  else
    let reading := deps.readings s.log.length
    if deps.limits.hardBytes < reading.bufferedAmount then
      (false, ((s.forget ws).drop ws).record ws msg .hardClosed)
    else if deps.limits.softBytes < reading.bufferedAmount then (false, s.softSkip deps ws msg)
    else
      let s := { s with staleClients := Function.update s.staleClients ws none }
      if reading.sendThrows then (false, ((s.forget ws).drop ws).record ws msg .failed)
      else if msg.type = .snapshot then
        (true, ({ s with needsSnapshotClients :=
          Function.update s.needsSnapshotClients ws false }).record ws msg .sent)
      else (true, s.record ws msg .sent)

structure SerializedSnapshot where
  data : Option ServerMessage
  coordinatorData : Option ServerMessage

def serializeSnapshot (msg : SnapshotMessage) : SerializedSnapshot :=
  let sendData := deps.shouldSend (.snapshot msg)
  { data := if sendData then some (.snapshot msg) else none
    coordinatorData := (msg.coordinator.map ServerMessage.coordinatorSnapshot).filter fun frame =>
      sendData && deps.shouldSend frame }

/-- The snapshot of a connection's scope; `none` where the scoped build throws. A build is
the same for all connections of a scope, which the source keeps in a cache. -/
def serializedFor (msg : SnapshotMessage) (buildScopedSnapshot : Scope → Option SnapshotMessage) :
    Scope → Option SerializedSnapshot
  | .all => some (serializeSnapshot deps msg)
  | .projects projectIds => (buildScopedSnapshot (.projects projectIds)).map fun scopedMsg =>
    serializeSnapshot deps
      (if msg.seq.isSome then { scopedMsg with epoch := msg.epoch, seq := msg.seq } else scopedMsg)

/-- The primary frame, and after it the coordinator frame. -/
def sendSnapshot (s : Broadcaster) (ws : ℕ) (serialized : SerializedSnapshot) : Broadcaster :=
  match serialized.data with
  | none => s
  | some data =>
    match s.send deps ws data, serialized.coordinatorData with
    | (true, s), some coordinatorData => (s.send deps ws coordinatorData).2
    | (_, s), _ => s

def sendScoped (msg : SnapshotMessage) (buildScopedSnapshot : Scope → Option SnapshotMessage) (s : Broadcaster)
    (c : Connection) : Broadcaster :=
  match serializedFor deps msg buildScopedSnapshot (actorScope c.actor) with
  | some serialized => s.sendSnapshot deps c.ws serialized
  | none => s

def snapshotDashboardConnections (s : Broadcaster) : List Connection :=
  s.connections.filter fun c => s.isOpen c.ws

def broadcastBackpressureNotice (s : Broadcaster) (connections : List Connection) (kind : NoticeKind) : Broadcaster :=
  connections.foldl (fun s c => (s.send deps c.ws (.wsBackpressureNotice kind)).2) s

/-- The load-shed gate in front of a flush: `Sum.inl` where the flush is shed. -/
def gate (s : Broadcaster) (connections : List Connection) : Broadcaster ⊕ Broadcaster :=
  if s.loadShedActive then
    .inl { s.broadcastBackpressureNotice deps connections .loadShedActive with wasLoadShedActive := true }
  else if s.wasLoadShedActive then
    .inr (({ s with wasLoadShedActive := false }).broadcastBackpressureNotice deps connections .loadShedRecovered)
  else .inr s

/-- A frame that is not scoped, to owners and viewers of everything. -/
def sendUnscoped (msg : ServerMessage) (s : Broadcaster) (c : Connection) : Broadcaster :=
  match actorScope c.actor with
  | .all => (s.send deps c.ws msg).2
  | .projects _ => s

def broadcast (s : Broadcaster) (msg : ServerMessage) (buildScopedSnapshot : Scope → Option SnapshotMessage) : Broadcaster :=
  let connections := s.snapshotDashboardConnections
  match msg with
  | .snapshot snapshot =>
    match s.gate deps connections with
    | .inl s => s
    | .inr s => connections.foldl (sendScoped deps snapshot buildScopedSnapshot) s
  | msg => connections.foldl (sendUnscoped deps msg) s

/-- The frame of a flush for one connection: a snapshot where one is owed, else the delta. -/
def sendDelta (delta : DeltaMessage) (fullSnapshot : SnapshotMessage) (previousAgents : List AgentState)
    (buildScopedSnapshot : Scope → Option SnapshotMessage) (s : Broadcaster) (c : Connection) : Broadcaster :=
  if s.needsSnapshotClients c.ws then sendScoped deps fullSnapshot buildScopedSnapshot s c
  else
    match actorScope c.actor with
    | .all => (s.send deps c.ws (.delta delta)).2
    | .projects projectIds =>
      (s.send deps c.ws (.delta (scopeDeltaForProjects delta previousAgents projectIds))).2

def broadcastDelta (s : Broadcaster) (delta : DeltaMessage) (fullSnapshot : SnapshotMessage)
    (previousAgents : List AgentState) (buildScopedSnapshot : Scope → Option SnapshotMessage) : Broadcaster :=
  let connections := s.snapshotDashboardConnections
  match s.gate deps connections with
  | .inl s => s
  | .inr s => connections.foldl (sendDelta deps delta fullSnapshot previousAgents buildScopedSnapshot) s

end Broadcaster

inductive BroadcastEvent where
  | broadcast (msg : ServerMessage) (buildScopedSnapshot : Scope → Option SnapshotMessage)
  | broadcastDelta (delta : DeltaMessage) (fullSnapshot : SnapshotMessage) (previousAgents : List AgentState)
      (buildScopedSnapshot : Scope → Option SnapshotMessage)
  | register (c : Connection)
  | closed (ws : ℕ)
  | loadShed (active : Bool)

def Broadcaster.step (deps : BroadcasterDeps) (s : Broadcaster) : BroadcastEvent → Broadcaster
  | .broadcast msg buildScopedSnapshot => s.broadcast deps msg buildScopedSnapshot
  | .broadcastDelta delta fullSnapshot previousAgents buildScopedSnapshot =>
    s.broadcastDelta deps delta fullSnapshot previousAgents buildScopedSnapshot
  | .register c => { s with connections := s.connections ++ [c] }
  | .closed ws => s.drop ws
  | .loadShed active => { s with loadShedActive := active }

def Broadcaster.run (deps : BroadcasterDeps) (s : Broadcaster) (events : List BroadcastEvent) : Broadcaster :=
  events.foldl (Broadcaster.step deps) s

end Kookr.Realtime
