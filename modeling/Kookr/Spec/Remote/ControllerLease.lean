import Kookr.Lib.OrderedMap

/-! The controller leases of remote sessions (`src/remote/controller-lease.ts`). Every
reading of the clock is given by its number. A pending timer is a field that its firing
or its cancelling clears; what it has captured stays with it. -/

namespace Kookr.Remote

open Kookr.Lib

inductive ControllerLeaseState where
  | none
  | acquiring
  | heldLocal
  | heldRemote
  | heldUncertain
  | heldPresumedLost
  | revoked
  | releasing
  deriving DecidableEq

inductive LeaseRevocationReason where
  | ownerOverride
  | heartbeatTimeout
  | nodeDisconnect
  | policyRevoke
  | sessionEpochBump
  | released
  deriving DecidableEq

structure ControllerLease where
  leaseId : String
  sessionId : String
  sessionEpoch : String
  state : ControllerLeaseState
  actorId : Option String
  clientId : Option String
  heartbeatMisses : ℕ
  updatedAtMs : ℕ
  deriving DecidableEq

inductive LeaseError where
  | leaseMissing
  | leaseRevoked
  | leaseMismatch
  | staleSessionEpoch
  deriving DecidableEq

structure SessionLeaseRecord where
  lease : Option ControllerLease
  /-- The lease and the reason that the pending timer has captured. -/
  presumedLostTimer : Option (ControllerLease × LeaseRevocationReason)
  deriving DecidableEq

structure LeaseChangedPayload where
  sessionId : String
  sessionEpoch : String
  leaseId : String
  previousState : ControllerLeaseState
  newState : ControllerLeaseState
  actorId : Option String
  clientId : Option String
  reason : Option LeaseRevocationReason
  deriving DecidableEq

/-- A published event, with the lease its session had then and whether it was made for
this event. -/
structure Publication where
  payload : LeaseChangedPayload
  current : Option String
  first : Bool
  deriving DecidableEq

structure LeaseOptions where
  heartbeatIntervalMs : ℕ
  presumedLostGraceMs : ℕ
  /-- The `n`-th reading of the clock. -/
  now : ℕ → ℕ

def LeaseOptions.presumedLostDelayMs (opts : LeaseOptions) : ℕ :=
  2 * opts.heartbeatIntervalMs + opts.presumedLostGraceMs

structure LeaseManager where
  sessions : OrderedMap String SessionLeaseRecord
  /-- The delay the sweep was armed with. -/
  sweepTimer : Option ℕ
  reads : ℕ
  published : List Publication

structure RemoteHolder where
  sessionId : String
  actorId : String
  clientId : String

namespace LeaseManager

def initial : LeaseManager := ⟨.empty, none, 0, []⟩

/-- `TERMINAL_STATES`. -/
def isTerminal (state : ControllerLeaseState) : Bool := state = .none || state = .revoked

/-- The state as clients see it; `releasing` is not shown. -/
def visibleOr (state fallback : ControllerLeaseState) : ControllerLeaseState :=
  if state = .releasing then fallback else state

/-- `current(sessionId)`. -/
def current (m : LeaseManager) (sessionId : String) : Option ControllerLease :=
  (m.sessions.get sessionId).bind SessionLeaseRecord.lease

def record (m : LeaseManager) (sessionId : String) : SessionLeaseRecord :=
  (m.sessions.get sessionId).getD ⟨none, none⟩

def setRecord (m : LeaseManager) (sessionId : String) (r : SessionLeaseRecord) : LeaseManager :=
  { m with sessions := m.sessions.set sessionId r }

def setLease (m : LeaseManager) (sessionId : String) (lease : ControllerLease) : LeaseManager :=
  m.setRecord sessionId { m.record sessionId with lease := some lease }

def cancelPresumedLost (m : LeaseManager) (sessionId : String) : LeaseManager :=
  m.setRecord sessionId { m.record sessionId with presumedLostTimer := none }

variable (opts : LeaseOptions)

/-- One reading of the clock. -/
def tick (m : LeaseManager) : ℕ × LeaseManager := (opts.now m.reads, { m with reads := m.reads + 1 })

/-- The timestamp of the event is one more reading. -/
def emit (m : LeaseManager) (lease : ControllerLease) (previousState newState : ControllerLeaseState)
    (reason : Option LeaseRevocationReason) (first : Bool) : LeaseManager :=
  let payload : LeaseChangedPayload := {
    sessionId := lease.sessionId
    sessionEpoch := lease.sessionEpoch
    leaseId := lease.leaseId
    previousState, newState
    actorId := lease.actorId
    clientId := lease.clientId
    reason }
  { m with
    reads := m.reads + 1
    published := m.published ++ [⟨payload, (m.current lease.sessionId).map ControllerLease.leaseId, first⟩] }

def nextSweepDelayMs (m : LeaseManager) (now : ℕ) : Option ℕ :=
  m.sessions.values.foldl (fun next record =>
    match record.lease with
    | some lease =>
      if lease.state = .heldRemote then
        let delayMs := min opts.heartbeatIntervalMs (lease.updatedAtMs + opts.presumedLostDelayMs - now)
        some (match next with | some delay => min delay delayMs | none => delayMs)
      else next
    | none => next) none

def scheduleSweep (m : LeaseManager) : LeaseManager :=
  if m.sweepTimer.isSome then m
  else
    let (now, m) := m.tick opts
    match m.nextSweepDelayMs opts now with
    | some delayMs => { m with sweepTimer := some delayMs }
    | none => m

def revoke (m : LeaseManager) (sessionId : String) (reason : LeaseRevocationReason) : LeaseManager :=
  match m.current sessionId with
  | none => m
  | some lease =>
    if lease.state = .revoked then m
    else
      let (now, m) := m.tick opts
      let revoked := { lease with state := .revoked, updatedAtMs := now }
      let m := (m.setLease sessionId revoked).cancelPresumedLost sessionId
      m.emit revoked (visibleOr lease.state .heldRemote) .revoked (some reason) false

/-- The loop body of the sweep. -/
def sweepOne (now : ℕ) (m : LeaseManager) (sessionId : String) : LeaseManager :=
  match m.current sessionId with
  | some lease =>
    if lease.state = .heldRemote ∧ lease.updatedAtMs + opts.presumedLostDelayMs ≤ now then
      m.revoke opts lease.sessionId .heartbeatTimeout
    else m
  | none => m

def sweepStaleRemoteLeases (m : LeaseManager) : LeaseManager :=
  let (now, m) := ({ m with sweepTimer := none }).tick opts
  (m.sessions.keys.foldl (sweepOne opts now) m).scheduleSweep opts

/-- `generated` is the identifier drawn where none was asked for. -/
def acquireRemote (m : LeaseManager) (input : RemoteHolder) (sessionEpoch : String) (leaseId : Option String)
    (generated : String) : Except LeaseError ControllerLease × LeaseManager :=
  let create (previous : ControllerLeaseState) : Except LeaseError ControllerLease × LeaseManager :=
    let (now, m) := m.tick opts
    let lease : ControllerLease := {
      leaseId := leaseId.getD generated
      sessionId := input.sessionId
      sessionEpoch
      state := .heldRemote
      actorId := some input.actorId
      clientId := some input.clientId
      heartbeatMisses := 0
      updatedAtMs := now }
    let m := ((m.setLease input.sessionId lease).cancelPresumedLost input.sessionId).scheduleSweep opts
    (.ok lease, m.emit lease previous .heldRemote none true)
  match m.current input.sessionId with
  | some current =>
    if !isTerminal current.state then
      if current.state = .heldRemote ∧ current.actorId = some input.actorId ∧
          current.clientId = some input.clientId ∧ current.sessionEpoch = sessionEpoch then
        let (now, m) := m.tick opts
        let current := { current with updatedAtMs := now, heartbeatMisses := 0 }
        (.ok current, (m.setLease input.sessionId current).scheduleSweep opts)
      else (.error .leaseMismatch, m)
    else create (visibleOr current.state .none)
  | none => create .none

def acquireLocal (m : LeaseManager) (sessionId sessionEpoch generated : String) : LeaseManager :=
  let create (m : LeaseManager) (previous : ControllerLeaseState) : LeaseManager :=
    let (now, m) := m.tick opts
    let lease : ControllerLease := {
      leaseId := generated, sessionId, sessionEpoch
      state := .heldLocal
      actorId := none
      clientId := none
      heartbeatMisses := 0
      updatedAtMs := now }
    (m.setLease sessionId lease).emit lease previous .heldLocal none true
  match m.current sessionId with
  | some lease =>
    if lease.state = .heldLocal ∧ lease.sessionEpoch = sessionEpoch then
      let (now, m) := m.tick opts
      m.setLease sessionId { lease with updatedAtMs := now }
    else if lease.state = .heldRemote then
      -- the lease is revoked in place, and is what the new one follows
      create (m.revoke opts sessionId .ownerOverride) .revoked
    else create m (visibleOr lease.state .none)
  | none => create m .none

def validateRemoteSubmit (m : LeaseManager) (input : RemoteHolder) (sessionEpoch leaseId : String) :
    Except LeaseError ControllerLease × LeaseManager :=
  match m.current input.sessionId with
  | none => (.error .leaseMissing, m)
  | some lease =>
    if lease.sessionEpoch ≠ sessionEpoch then (.error .staleSessionEpoch, m)
    else if lease.state = .revoked ∨ lease.state = .none then (.error .leaseRevoked, m)
    else if lease.state = .heldLocal then (.error .leaseRevoked, m)
    else if lease.state ≠ .heldRemote ∨ lease.leaseId ≠ leaseId ∨ lease.actorId ≠ some input.actorId ∨
        lease.clientId ≠ some input.clientId then (.error .leaseMismatch, m)
    else
      let (now, m) := m.tick opts
      let lease := { lease with updatedAtMs := now }
      (.ok lease, (m.setLease input.sessionId lease).scheduleSweep opts)

/-- The checks that both heartbeat operations start with. -/
def heartbeatLease (m : LeaseManager) (input : RemoteHolder) (leaseId : String) : Except LeaseError ControllerLease :=
  match m.current input.sessionId with
  | none => .error .leaseMissing
  | some lease =>
    if lease.leaseId ≠ leaseId then .error .leaseMissing
    else if lease.actorId ≠ some input.actorId ∨ lease.clientId ≠ some input.clientId then .error .leaseMismatch
    else if lease.state = .revoked ∨ lease.state = .none then .error .leaseRevoked
    else .ok lease

def recordHeartbeatAck (m : LeaseManager) (input : RemoteHolder) (leaseId : String) :
    Except LeaseError ControllerLease × LeaseManager :=
  match m.heartbeatLease input leaseId with
  | .error e => (.error e, m)
  | .ok lease =>
    let (now, m) := m.tick opts
    let acked := { lease with heartbeatMisses := 0, updatedAtMs := now }
    if acked.state = .heldUncertain ∨ acked.state = .heldPresumedLost then
      let held := { acked with state := .heldRemote }
      let m := (m.setLease input.sessionId held).cancelPresumedLost input.sessionId
      (.ok held, (m.emit held acked.state .heldRemote none false).scheduleSweep opts)
    else
      let m := (m.setLease input.sessionId acked).cancelPresumedLost input.sessionId
      (.ok acked, if acked.state = .heldRemote then m.scheduleSweep opts else m)

def recordHeartbeatMiss (m : LeaseManager) (input : RemoteHolder) (leaseId : String) :
    Except LeaseError ControllerLease × LeaseManager :=
  match m.heartbeatLease input leaseId with
  | .error e => (.error e, m)
  | .ok lease =>
    let (now, m) := m.tick opts
    let missed := { lease with heartbeatMisses := lease.heartbeatMisses + 1, updatedAtMs := now }
    if missed.heartbeatMisses = 1 then
      let uncertain := { missed with state := .heldUncertain }
      (.ok uncertain, (m.setLease input.sessionId uncertain).emit uncertain (visibleOr lease.state .heldRemote)
        .heldUncertain none false)
    else (.error .leaseRevoked, (m.setLease input.sessionId missed).revoke opts input.sessionId .heartbeatTimeout)

/-- A lease of a lost relay is shown as uncertain, is revoked here, and is presumed lost
after a while. -/
def disconnectOne (reason : LeaseRevocationReason) (m : LeaseManager) (sessionId : String) : LeaseManager :=
  match m.current sessionId with
  | some lease =>
    if lease.state = .heldRemote then
      let m := (m.setLease sessionId { lease with state := .heldUncertain }).emit lease .heldRemote .heldUncertain
        none false
      let (now, m) := m.tick opts
      let revoked := { lease with state := .revoked, updatedAtMs := now }
      m.setRecord sessionId ⟨some revoked, some (revoked, reason)⟩
    else m
  | none => m

def handleRelayDisconnect (m : LeaseManager) (reason : LeaseRevocationReason) : LeaseManager :=
  m.sessions.keys.foldl (disconnectOne opts reason) m

def reconnectOne (m : LeaseManager) (sessionId : String) : LeaseManager :=
  match m.current sessionId with
  | some lease =>
    if lease.state = .revoked then
      (m.cancelPresumedLost sessionId).emit lease .heldPresumedLost .revoked (some .nodeDisconnect) false
    else m
  | none => m

def handleRelayReconnect (m : LeaseManager) : LeaseManager := m.sessions.keys.foldl reconnectOne m

/-- The pending timer of a session fires. -/
def firePresumedLost (m : LeaseManager) (sessionId : String) : Option LeaseManager :=
  (m.record sessionId).presumedLostTimer.map fun captured =>
    (m.cancelPresumedLost sessionId).emit captured.1 .heldUncertain .heldPresumedLost (some captured.2) false

def dispose (m : LeaseManager) : LeaseManager :=
  m.sessions.keys.foldl cancelPresumedLost { m with sweepTimer := none }

end LeaseManager

inductive LeaseEvent where
  | acquireRemote (input : RemoteHolder) (sessionEpoch : String) (leaseId : Option String) (generated : String)
  | acquireLocal (sessionId sessionEpoch generated : String)
  | validateRemoteSubmit (input : RemoteHolder) (sessionEpoch leaseId : String)
  | recordHeartbeatAck (input : RemoteHolder) (leaseId : String)
  | recordHeartbeatMiss (input : RemoteHolder) (leaseId : String)
  | revoke (sessionId : String) (reason : LeaseRevocationReason)
  | handleRelayDisconnect (reason : LeaseRevocationReason)
  | handleRelayReconnect
  | sweepFires
  | presumedLostFires (sessionId : String)
  | dispose

/-- A timer fires only while it is pending. -/
def LeaseManager.step (opts : LeaseOptions) (m : LeaseManager) : LeaseEvent → Option LeaseManager
  | .acquireRemote input epoch leaseId generated => some (m.acquireRemote opts input epoch leaseId generated).2
  | .acquireLocal sessionId epoch generated => some (m.acquireLocal opts sessionId epoch generated)
  | .validateRemoteSubmit input epoch leaseId => some (m.validateRemoteSubmit opts input epoch leaseId).2
  | .recordHeartbeatAck input leaseId => some (m.recordHeartbeatAck opts input leaseId).2
  | .recordHeartbeatMiss input leaseId => some (m.recordHeartbeatMiss opts input leaseId).2
  | .revoke sessionId reason => some (m.revoke opts sessionId reason)
  | .handleRelayDisconnect reason => some (m.handleRelayDisconnect opts reason)
  | .handleRelayReconnect => some m.handleRelayReconnect
  | .sweepFires => if m.sweepTimer.isSome then some (m.sweepStaleRemoteLeases opts) else none
  | .presumedLostFires sessionId => m.firePresumedLost sessionId
  | .dispose => some m.dispose

end Kookr.Remote
