import Kookr.Spec.Realtime.ViewerBroadcaster
import Kookr.Spec.Relay.InvitationStore

/-! The client sockets of the relay (`relay/server.ts`): who is subscribed to a node, what is sent to them, and the commands
that they send. A set of subscribers has an identity, as a close handler keeps the set in which its socket was registered.
What other stores of the relay answer comes with an event. -/

namespace Kookr.Relay

open Kookr.Lib

structure RelayClientAuth where
  isOwner : Bool
  actorId : String
  grants : List ShareGrant
  grantId : String
  memberId : Option String
  deviceId : Option String
  invitationId : Option String
  expiresAt : Option ℤ
  deriving DecidableEq

/-- A terminal that a client watches, by session or by the projection that leads to it. -/
structure RelayTerminal where
  sessionId : String
  sessionEpoch : String
  projectionId : Option String
  primaryAlias : Bool
  deriving DecidableEq

/-- A subscription with the socket's state: `isOpen` is its `readyState`, and `isGone` once its close handler has run. -/
structure RelayClient where
  nodeId : String
  auth : RelayClientAuth
  terminal : Option RelayTerminal
  terminalTransportAllowed : Bool
  set : ℕ
  isOpen : Bool
  isGone : Bool
  deriving DecidableEq

structure ShareSessionProjection where
  invitationId : String
  projectionId : String
  projectionVersion : ℚ
  policyVersion : ℚ
  nodeId : String
  nodeInstanceId : String
  expiresAt : Option ℤ
  primarySharedSession : Option (String × Option String)
  deriving DecidableEq

inductive ControlPayload where
  | taskProjection (invitationId nodeId taskId : String)
  | sessionProjection (envelope : ShareSessionProjection)
  | other
  deriving DecidableEq

structure RemoteControlEvent where
  nodeId : String
  seq : ℕ
  payload : ControlPayload
  deriving DecidableEq

inductive RelayFrame where
  | presence
  | memberShareState
  | control (event : RemoteControlEvent)
  | terminal (seq : ℕ)
  /-- The answer to a command, under the command's number. -/
  | commandResult (command : ℕ) (outcome : String) (reason : Option String)
  deriving DecidableEq

inductive AuditOutcome where
  | forwarded | rejectedPreAudit | nodeOffline
  deriving DecidableEq

structure ForwardedCommand where
  commandId : Option String
  nodeId : String
  nodeEpoch : String
  idempotencyKey : String
  leaseId : Option String
  session : Option RelayTerminal
  /-- The text and the line feed of a `submitMessage` by a member. -/
  submit : Option (String × Bool)
  actorId : String
  clientId : ℕ
  grantId : String
  deriving DecidableEq

/-- What the relay does, in order. -/
inductive RelayOutput where
  | sent (client : ℕ) (frame : RelayFrame)
  | closes (client : ℕ) (code : ℕ) (reason : String)
  | gone (client : ℕ)
  | audit (command : ℕ) (outcome : AuditOutcome) (reason : Option String)
  /-- The row that is written for a result of the node. -/
  | resultAudit (command : ℕ) (outcome : String)
  | handed (command : ℕ) (forwarded : ForwardedCommand)
  deriving DecidableEq

/-- A command by its number: who sent it, and whether the node has it and has answered. -/
structure IssuedCommand where
  client : ℕ
  nodeId : String
  commandId : String
  echoed : Bool
  handed : Bool
  answered : Bool
  deriving DecidableEq

structure ClientRelay where
  clients : List RelayClient
  members : ℕ → List ℕ
  newSet : ℕ
  subscribers : OrderedMap String ℕ
  presence : List (String × ℕ × Option String)
  replay : String → List RemoteControlEvent
  shareSessionProjections : String × String → Option ShareSessionProjection
  nodeEpochs : String → Option String
  commandRecipients : OrderedMap String ℕ
  commands : List IssuedCommand
  log : List RelayOutput

/-- What is read of the rest of the relay while an event is handled. -/
structure RelayReads where
  now : ℤ
  invitations : List InvitationRecord
  /-- `memberNodeState` has a registration. -/
  nodeKnown : Bool

def RelayReads.invitationOf (reads : RelayReads) (auth : RelayClientAuth) : Option InvitationRecord :=
  auth.invitationId.bind fun invitationId => reads.invitations.find? fun candidate => candidate.invitationId = invitationId

def grantsAllow (grants : List ShareGrant) : ShareGrant → Bool
  | .terminalInput => grants.contains .terminalInput
  | .terminalView => grants.contains .terminalView || grants.contains .terminalInput
  | .other _ => false
  | grant => grants.contains grant

def authAllows (reads : RelayReads) (auth : RelayClientAuth) (grant : Option ShareGrant) : Bool :=
  if auth.isOwner || auth.grants.contains .admin then true
  else if auth.expiresAt.any fun expiresAt => expiresAt ≤ reads.now then false
  else
    match grant with
    | none => false
    | some grant =>
      if auth.invitationId.isNone then grantsAllow auth.grants grant
      else
        match reads.invitationOf auth with
        | none => false
        | some invitation =>
          if invitation.revokedAt.isSome || invitation.expiresAt ≤ reads.now then false
          else if isGuestLinkTaskShare invitation && grant ≠ .view && grant ≠ .terminalView then false
          else grantsAllow invitation.grants grant

def guestSessionHasApprovedTerminalView (invitation : InvitationRecord) (auth : RelayClientAuth) : Bool :=
  !auth.isOwner && isGuestLinkTaskShare invitation && invitation.requests.any fun request =>
    request.status = .approved && request.requestedBy = some (auth.memberId.getD auth.actorId) &&
      isTerminalViewOnlyGrantSet request.requestedGrants

def authAllowsTerminalStream (reads : RelayReads) (auth : RelayClientAuth) : Bool :=
  authAllows reads auth (some .terminalView) &&
    (auth.isOwner || (reads.invitationOf auth).all fun invitation =>
      !isGuestLinkTaskShare invitation || guestSessionHasApprovedTerminalView invitation auth)

def isTaskShareGrant (grant : ShareGrant) : Bool :=
  [.view, .terminalView, .terminalInput, .launch, .stop, .permissionApprove].contains grant

def isNodeTaskShare (invitation : InvitationRecord) : Bool :=
  (match invitation.subject with
    | .task .. => true
    | _ => false) &&
  invitation.grants.contains .view && invitation.grants.all isTaskShareGrant

/-- The invitation of the client, if the envelope is for it and it stands. -/
def standingInvitation (reads : RelayReads) (nodeId : String) (auth : RelayClientAuth) (invitationId : String) : Option InvitationRecord :=
  if auth.invitationId = some invitationId then
    (reads.invitationOf auth).filter fun invitation =>
      invitation.nodeId = nodeId && invitation.grantId = auth.grantId && invitation.revokedAt.isNone &&
        reads.now < invitation.expiresAt && isNodeTaskShare invitation
  else none

def projectionAuthStillAuthorized (reads : RelayReads) (nodeId : String) (auth : RelayClientAuth)
    (invitationId projectionNodeId taskId : String) : Bool :=
  auth.isOwner || (standingInvitation reads nodeId auth invitationId).any fun invitation =>
    (match invitation.subject with
      | .task _ subjectTaskId => subjectTaskId = taskId
      | _ => false) &&
    invitation.grants.contains .view && projectionNodeId = nodeId

def shareSessionProjectionAuthStillAuthorized (reads : RelayReads) (nodeEpoch : Option String) (nodeId : String) (auth : RelayClientAuth)
    (envelope : ShareSessionProjection) : Bool :=
  auth.isOwner || (standingInvitation reads nodeId auth envelope.invitationId).any fun invitation =>
    (!isGuestLinkTaskShare invitation || guestSessionHasApprovedTerminalView invitation auth) &&
    (invitation.grants.contains .terminalView || invitation.grants.contains .terminalInput) &&
    envelope.nodeId = nodeId && envelope.nodeInstanceId = nodeEpoch.getD "" &&
    envelope.expiresAt.all fun expiresAt => reads.now < expiresAt

namespace ClientRelay

def start : ClientRelay where
  clients := []
  members := fun _ => []
  newSet := 0
  subscribers := .empty
  presence := []
  replay := fun _ => []
  shareSessionProjections := fun _ => none
  nodeEpochs := fun _ => none
  commandRecipients := .empty
  commands := []
  log := []

def isOpen (s : ClientRelay) (c : ℕ) : Bool := s.clients[c]?.any RelayClient.isOpen

def isGone (s : ClientRelay) (c : ℕ) : Bool := s.clients[c]?.any RelayClient.isGone

def subscribed (s : ClientRelay) (nodeId : String) : List ℕ := ((s.subscribers.get nodeId).map s.members).getD []

def send (s : ClientRelay) (c : ℕ) (frame : RelayFrame) : ClientRelay :=
  if s.isOpen c then { s with log := s.log ++ [.sent c frame] } else s

def closeSocket (s : ClientRelay) (c : ℕ) (code : ℕ) (reason : String) : ClientRelay :=
  { s with clients := s.clients.modify c fun client => { client with isOpen := false }, log := s.log ++ [.closes c code reason] }

/-- `set.delete(sub)`. -/
def leaveSet (s : ClientRelay) (set c : ℕ) : ClientRelay :=
  { s with members := Function.update s.members set ((s.members set).erase c) }

/-- `if (set.size === 0) subscribers.delete(nodeId)`. -/
def dropEmptySet (s : ClientRelay) (nodeId : String) (set : ℕ) : ClientRelay :=
  if s.members set = [] then { s with subscribers := s.subscribers.delete nodeId } else s

/-- Both for the node's set, if there is one. -/
def leaveNode (s : ClientRelay) (nodeId : String) (c : ℕ) : ClientRelay :=
  match s.subscribers.get nodeId with
  | some set => (s.leaveSet set c).dropEmptySet nodeId set
  | none => s

/-- The closing of a subscriber of the node's set. -/
def evict (set : ℕ) (code : ℕ) (reason : String) (s : ClientRelay) (c : ℕ) : ClientRelay :=
  (s.closeSocket c code reason).leaveSet set c

def subscriptionStillAuthorized (s : ClientRelay) (now : ℤ) (nodeId : String) (c : ℕ) : Bool × ClientRelay :=
  match s.clients[c]? with
  | none => (false, s)
  | some sub =>
    if sub.auth.isOwner || sub.auth.expiresAt.all fun expiresAt => now < expiresAt then (true, s)
    else
      let left := (s.closeSocket c 4002 "grant expired").leaveNode nodeId c
      (false, { left with
        presence := if sub.auth.invitationId.isNone then left.presence
          else left.presence.filter fun row => !(row.1 = nodeId && row.2.2 = sub.auth.invitationId) })

/-- What is done for a subscription if it is still authorised. -/
def turn (now : ℤ) (nodeId : String) (deliver : ClientRelay → ℕ → ClientRelay) (s : ClientRelay) (c : ℕ) : ClientRelay :=
  let authorized := s.subscriptionStillAuthorized now nodeId c
  if authorized.1 then deliver authorized.2 c else authorized.2

/-- The loops over the subscribers of a node. -/
def broadcast (s : ClientRelay) (now : ℤ) (nodeId : String) (deliver : ClientRelay → ℕ → ClientRelay) : ClientRelay :=
  (s.subscribed nodeId).foldl (turn now nodeId deliver) s

def broadcastPresence (s : ClientRelay) (reads : RelayReads) (nodeId : String) : ClientRelay :=
  s.broadcast reads.now nodeId fun s c => s.send c .presence

def deliverShareState (reads : RelayReads) (s : ClientRelay) (c : ℕ) : ClientRelay :=
  if s.clients[c]?.any fun sub => !sub.auth.isOwner && (reads.invitationOf sub.auth).isSome && reads.nodeKnown then
    s.send c .memberShareState
  else s

def broadcastMemberShareState (s : ClientRelay) (reads : RelayReads) (nodeId : String) : ClientRelay :=
  s.broadcast reads.now nodeId (deliverShareState reads)

/-- `canSendEventToSubscriber` for a subscription that is still authorised. -/
def canSendEvent (reads : RelayReads) (event : RemoteControlEvent) (s : ClientRelay) (c : ℕ) : Bool × ClientRelay :=
  match s.clients[c]? with
  | none => (false, s)
  | some sub =>
    if sub.auth.isOwner then (true, s)
    else
      match event.payload with
      | .taskProjection invitationId projectionNodeId taskId =>
        if projectionAuthStillAuthorized reads event.nodeId sub.auth invitationId projectionNodeId taskId then (true, s)
        else
          match reads.invitationOf sub.auth with
          | none => (false, s)
          | some invitation =>
            if invitation.revokedAt.isSome then (false, s.closeSocket c 4001 "grant revoked")
            else if invitation.expiresAt ≤ reads.now then (false, s.closeSocket c 4002 "grant expired")
            else (false, s)
      | .sessionProjection envelope =>
        (shareSessionProjectionAuthStillAuthorized reads (s.nodeEpochs event.nodeId) event.nodeId sub.auth envelope, s)
      | .other => (false, s)

def deliverEvent (reads : RelayReads) (event : RemoteControlEvent) (s : ClientRelay) (c : ℕ) : ClientRelay :=
  let allowed := s.canSendEvent reads event c
  if allowed.1 then allowed.2.send c (.control event) else allowed.2

def watchesProjection (s : ClientRelay) (c : ℕ) (p : String → Bool) : Bool :=
  s.clients[c]?.any fun sub => (sub.terminal.bind RelayTerminal.projectionId).any p

/-- The subscribers of the node's set that watch a projection of the kind are closed. The set stays, also when it is empty. -/
def closeWatchers (s : ClientRelay) (nodeId : String) (p : String → Bool) (reason : String) : ClientRelay :=
  match s.subscribers.get nodeId with
  | none => s
  | some set => ((s.members set).filter fun c => s.watchesProjection c p).foldl (evict set 4004 reason) s

def replaceProjection (s : ClientRelay) (nodeId : String) (envelope : ShareSessionProjection) : ClientRelay :=
  let key := (nodeId, envelope.projectionId)
  let previous := s.shareSessionProjections key
  let s := { s with shareSessionProjections := Function.update s.shareSessionProjections key (some envelope) }
  if previous.any fun previous => previous.invitationId ≠ envelope.invitationId ||
      previous.projectionVersion ≠ envelope.projectionVersion || previous.nodeInstanceId ≠ envelope.nodeInstanceId then
    s.closeWatchers nodeId (fun projectionId => projectionId = envelope.projectionId) "projection replaced"
  else s

def projectEvent (s : ClientRelay) (event : RemoteControlEvent) : ClientRelay :=
  match event.payload with
  | .sessionProjection envelope => s.replaceProjection event.nodeId envelope
  | _ => s

/-- The last hundred events are kept. -/
def rememberEvent (s : ClientRelay) (event : RemoteControlEvent) : ClientRelay :=
  let events := s.replay event.nodeId ++ [event]
  { s with replay := Function.update s.replay event.nodeId (events.drop (events.length - 100)) }

def routeControlEvent (s : ClientRelay) (reads : RelayReads) (event : RemoteControlEvent) : ClientRelay :=
  ((s.projectEvent event).rememberEvent event).broadcast reads.now event.nodeId (deliverEvent reads event)

def greetNode (s : ClientRelay) (nodeId nodeEpoch : String) : ClientRelay :=
  { s with
    nodeEpochs := Function.update s.nodeEpochs nodeId (some nodeEpoch)
    shareSessionProjections := fun key => (s.shareSessionProjections key).filter fun projection =>
      !(projection.nodeId = nodeId && projection.nodeInstanceId ≠ nodeEpoch) }

/-- The hello of a node that connects. -/
def acceptNode (s : ClientRelay) (reads : RelayReads) (nodeId nodeEpoch : String) : ClientRelay :=
  ((s.greetNode nodeId nodeEpoch).closeWatchers nodeId (fun projectionId => projectionId ≠ "") "projection stale").broadcastMemberShareState
    reads nodeId

structure TerminalStreamEvent where
  nodeId : String
  sessionId : String
  sessionEpoch : String
  seq : ℕ
  /-- `terminalStreamEventAllowedForAuth`. -/
  allowedFor : RelayClientAuth → Bool

/-- A frame of a terminal, unless the socket's buffer is above its bound. -/
def deliverStream (reads : RelayReads) (event : TerminalStreamEvent) (congested : ℕ → Bool) (s : ClientRelay) (c : ℕ) : ClientRelay :=
  if s.clients[c]?.any fun sub => authAllowsTerminalStream reads sub.auth && event.allowedFor sub.auth &&
      sub.terminal.any fun terminal => terminal.sessionId = event.sessionId && terminal.sessionEpoch = event.sessionEpoch then
    if s.isOpen c && congested c then s.closeSocket c 1013 "terminal stream backpressure" else s.send c (.terminal event.seq)
  else s

def routeTerminalStreamEvent (s : ClientRelay) (reads : RelayReads) (event : TerminalStreamEvent) (terminalBlock : Option String)
    (congested : ℕ → Bool) : ClientRelay :=
  if terminalBlock.isSome then s else s.broadcast reads.now event.nodeId (deliverStream reads event congested)

def closeRevokedSubscribers (s : ClientRelay) (nodeId invitationId : String) : ClientRelay :=
  match s.subscribers.get nodeId with
  | none => s
  | some set =>
    (((s.members set).filter fun c => s.clients[c]?.any fun sub => sub.auth.invitationId = some invitationId).foldl
      (evict set 4001 "grant revoked") s).dropEmptySet nodeId set

/-- The loop body of `closeTenantTerminalSubscribers`. -/
def closeNodeTerminals (tenantNode : String → Bool) (reason : String) (s : ClientRelay) (entry : String × ℕ) : ClientRelay :=
  if tenantNode entry.1 then
    (((s.members entry.2).filter fun c => s.clients[c]?.any fun sub => sub.terminal.isSome).foldl
      (evict entry.2 4005 reason) s).dropEmptySet entry.1 entry.2
  else s

def closeTenantTerminalSubscribers (s : ClientRelay) (tenantNode : String → Bool) (reason : String) : ClientRelay :=
  s.subscribers.entries.foldl (closeNodeTerminals tenantNode reason) s

def register (s : ClientRelay) (nodeId : String) (auth : RelayClientAuth) (terminal : Option RelayTerminal)
    (terminalTransportAllowed : Bool) : ClientRelay :=
  let known := s.subscribers.get nodeId
  let set := known.getD s.newSet
  { s with
    clients := s.clients ++ [⟨nodeId, auth, terminal, terminalTransportAllowed, set, true, false⟩]
    subscribers := s.subscribers.set nodeId set
    newSet := if known.isSome then s.newSet else s.newSet + 1
    members := Function.update s.members set (s.members set ++ [s.clients.length]) }

/-- The events that a new client gets. -/
def replayTo (s : ClientRelay) (reads : RelayReads) (nodeId : String) (c : ℕ) : ClientRelay :=
  (s.replay nodeId).foldl (fun s event => s.turn reads.now nodeId (deliverEvent reads event) c) s

def recordPresence (s : ClientRelay) (reads : RelayReads) (nodeId : String) (c : ℕ) (invitationId : Option String) : ClientRelay :=
  ({ s with presence := s.presence ++ [(nodeId, c, invitationId)] }).broadcastPresence reads nodeId

def removePresence (s : ClientRelay) (reads : RelayReads) (nodeId : String) (c : ℕ) : ClientRelay :=
  if s.presence.any fun row => row.1 = nodeId then
    ({ s with presence := s.presence.filter fun row => !(row.1 = nodeId && row.2.1 = c) }).broadcastPresence reads nodeId
  else s

/-- The socket of a client whose terminal subscription resolves. -/
def connect (s : ClientRelay) (reads : RelayReads) (nodeId : String) (auth : RelayClientAuth) (terminal : Option RelayTerminal)
    (terminalTransportAllowed : Bool) : ClientRelay :=
  let c := s.clients.length
  let replayed := (s.register nodeId auth terminal terminalTransportAllowed).replayTo reads nodeId c
  deliverShareState reads (replayed.recordPresence reads nodeId c auth.invitationId) c

def markGone (s : ClientRelay) (c : ℕ) : ClientRelay :=
  { s with clients := s.clients.modify c fun client => { client with isGone := true }, log := s.log ++ [.gone c] }

def forgetRecipients (s : ClientRelay) (c : ℕ) : ClientRelay :=
  { s with commandRecipients := s.commandRecipients.filter fun _ recipient => recipient ≠ c }

/-- The close handler, which has the set of the registration. -/
def closeHandler (s : ClientRelay) (reads : RelayReads) (c : ℕ) (sub : RelayClient) : ClientRelay :=
  ((((s.markGone c).leaveSet sub.set c).dropEmptySet sub.nodeId sub.set).forgetRecipients c).removePresence reads sub.nodeId c

end ClientRelay

/-- Fields that a command has itself or in its payload. -/
structure CommandFields where
  projectionId : Option String
  primaryAlias : Bool
  leaseId : Option String
  projectionVersion : Option ℚ
  policyVersion : Option ℚ
  retryToken : Option String

/-- A `remote.command`. A member that is not of its type is none; `appendNewline` has one more case, for what is no boolean. -/
structure RemoteCommand where
  commandId : Option String
  nodeId : Option String
  action : Option String
  own : CommandFields
  payload : CommandFields
  text : Option String
  appendNewline : Option (Option Bool)
  idempotencyKey : Option String

structure RetryBinding where
  expiresAt : ℤ
  invitationId : Option String
  deviceId : Option String
  leaseId : String
  projectionVersion : ℚ
  policyVersion : ℚ
  payloadHash : String

/-- What is read while a command is handled, besides the invitations. -/
structure CommandReads extends RelayReads where
  /-- `hostedTerminalViewingBlockReason`. -/
  terminalBlock : Option String
  policyAckedForInput : ℕ → Bool
  policyStatus : String
  /-- `terminalProjectionForAuth`. -/
  projectionFor : String → Option ShareSessionProjection
  /-- `resolveTerminalSubscription`, with the error or the terminal. -/
  resolve : Option String → Option (Except String RelayTerminal)
  retryBinding : String → Option RetryBinding
  payloadHash : String
  /-- The node's socket is there and open. -/
  nodeOpen : Bool
  ownerId : String

def grantForRemoteCommandAction : Option String → Option ShareGrant
  | some "presetReply" | some "submitMessage" | some "leaseAcquire" | some "leaseHeartbeat" | some "leaseOverride" => some .terminalInput
  | some "permissionApprove" => some .permissionApprove
  | some "launch" => some .launch
  | some "skip" | some "snooze" | some "mark-done" => some .stop
  | _ => none

namespace RemoteCommand

def id (command : RemoteCommand) (reads : CommandReads) : String := command.commandId.getD ("invalid-" ++ toString reads.now)

/-- The checks before the row of the audit. -/
def earlyReject (command : RemoteCommand) (reads : CommandReads) (sub : RelayClient) : Option String :=
  let requiredGrant := grantForRemoteCommandAction command.action
  if requiredGrant = some .terminalInput ∧ sub.terminalTransportAllowed = false then some "transport.insecure"
  else if requiredGrant = some .terminalInput ∧ reads.terminalBlock.isSome then reads.terminalBlock
  else if authAllows reads.toRelayReads sub.auth requiredGrant then none
  else
    match requiredGrant with
    | some grant => some ("missing " ++ grant.name ++ " grant")
    | none => some "unknown action"

def invalidSubmit (command : RemoteCommand) : Bool :=
  match command.text with
  | none => true
  | some text =>
    4096 < (Realtime.codeUnits text).length || command.appendNewline = some none || (text = "" && command.appendNewline = some (some false))

/-- The checks of a member's terminal input: the reason of a refusal, or the terminal and the message. -/
def memberInput (command : RemoteCommand) (reads : CommandReads) (auth : RelayClientAuth) :
    Except String (RelayTerminal × Option (String × Bool)) := do
  let some invitation := (reads.toRelayReads.invitationOf auth).filter fun invitation => reads.policyAckedForInput invitation.policyVersion
    | throw ("policy sync " ++ reads.policyStatus)
  let projectionId := command.own.projectionId.or command.payload.projectionId
  let primaryAlias := command.own.primaryAlias || command.payload.primaryAlias
  let projection := if primaryAlias then projectionId.bind reads.projectionFor else none
  let terminal ← match reads.resolve (if primaryAlias then projectionId else none) with
    | none => throw "projection-required"
    | some resolved => resolved
  let leaseId := (command.own.leaseId.or command.payload.leaseId).getD ""
  if (command.action = some "submitMessage" ∨ command.action = some "leaseHeartbeat") ∧ leaseId = "" then
    throw "controller-lease-required"
  let projectionVersion := command.own.projectionVersion.or command.payload.projectionVersion
  let policyVersion := command.own.policyVersion.or command.payload.policyVersion
  if let some retryToken := (command.own.retryToken.or command.payload.retryToken).filter fun token => token ≠ "" then
    unless (reads.retryBinding retryToken).any fun binding => reads.now < binding.expiresAt && binding.invitationId = auth.invitationId &&
        binding.deviceId = auth.deviceId && binding.leaseId = leaseId && some binding.projectionVersion = projectionVersion &&
        some binding.policyVersion = policyVersion && binding.payloadHash = reads.payloadHash do
      throw "retry-token-mismatch"
  if projection.any fun projection => projectionVersion ≠ some projection.projectionVersion || policyVersion ≠ some projection.policyVersion then
    throw "projection-stale"
  if command.action = some "submitMessage" ∧ command.invalidSubmit = true then
    throw "invalid submit message"
  let submit := if command.action = some "submitMessage" then
      command.text.map fun text => (text, decide (command.appendNewline ≠ some (some false)))
    else none
  let activeLease := invitation.controllerLease.filter fun lease => reads.now < lease.expiresAt
  unless activeLease.any fun lease => auth.deviceId = some lease.deviceId do
    throw (if activeLease.isSome then "controller-lease-held-by-another-device" else "controller-lease-required")
  return (terminal, submit)

end RemoteCommand

def commandRecipientKey (nodeId commandId : String) : String := nodeId ++ "\x00" ++ commandId

/-- What becomes of a command. -/
inductive CommandFate where
  /-- It is for another node: the socket is closed. -/
  | mismatched
  | rejected (reason : String)
  /-- It is rejected behind the row that says that it was forwarded. -/
  | rejectedLate (reason : String) (outcome : AuditOutcome)
  | handed (forwarded : ForwardedCommand)
  deriving DecidableEq

def commandFate (reads : CommandReads) (nodeEpoch : Option String) (c : ℕ) (sub : RelayClient) (command : RemoteCommand) : CommandFate :=
  if command.nodeId.any fun nodeId => nodeId ≠ sub.nodeId then .mismatched
  else
    match command.earlyReject reads sub with
    | some reason => .rejected reason
    | none =>
      let input : Except String (Option (RelayTerminal × Option (String × Bool))) :=
        if !sub.auth.isOwner && grantForRemoteCommandAction command.action = some .terminalInput then
          (command.memberInput reads sub.auth).map some
        else .ok none
      match input with
      | .error reason => .rejectedLate reason .rejectedPreAudit
      | .ok input =>
        if reads.nodeOpen then
          match nodeEpoch with
          | none => .rejectedLate "node epoch unavailable" .nodeOffline
          | some nodeEpoch => .handed {
              commandId := command.commandId
              nodeId := sub.nodeId
              nodeEpoch
              idempotencyKey := command.idempotencyKey.getD ("idem-" ++ command.id reads)
              leaseId := command.own.leaseId.or command.payload.leaseId
              session := input.map Prod.fst
              submit := input.bind Prod.snd
              actorId := if sub.auth.actorId = "" then reads.ownerId else sub.auth.actorId
              clientId := c
              grantId := sub.auth.grantId }
        else .rejectedLate "node offline" .nodeOffline

namespace ClientRelay

def appendAudit (s : ClientRelay) (row : RelayOutput) : ClientRelay := { s with log := s.log ++ [row] }

/-- The row of a rejection and the answer to the client. -/
def sendCommandReject (s : ClientRelay) (n c : ℕ) (reason : String) (outcome : AuditOutcome) : ClientRelay :=
  (s.appendAudit (.audit n outcome (some reason))).send c (.commandResult n (if outcome = .nodeOffline then "node-offline" else "rejected-pre-audit") (some reason))

/-- The command gets a number. -/
def issueCommand (s : ClientRelay) (reads : CommandReads) (c : ℕ) (sub : RelayClient) (command : RemoteCommand) (handed : Bool) : ClientRelay :=
  { s with commands := s.commands ++ [⟨c, sub.nodeId, command.id reads, command.commandId.isSome, handed, false⟩] }

def rememberCommandRecipient (s : ClientRelay) (nodeId commandId : String) (c : ℕ) : ClientRelay :=
  { s with commandRecipients := s.commandRecipients.set (commandRecipientKey nodeId commandId) c }

def forgetCommandRecipient (s : ClientRelay) (nodeId commandId : String) : ClientRelay :=
  { s with commandRecipients := s.commandRecipients.delete (commandRecipientKey nodeId commandId) }

def handleCommand (s : ClientRelay) (reads : CommandReads) (c : ℕ) (sub : RelayClient) (command : RemoteCommand) : ClientRelay :=
  let n := s.commands.length
  match commandFate reads (s.nodeEpochs sub.nodeId) c sub command with
  | .mismatched => (s.issueCommand reads c sub command false).closeSocket c 1008 "command node mismatch"
  | .rejected reason => (s.issueCommand reads c sub command false).sendCommandReject n c reason .rejectedPreAudit
  | .rejectedLate reason outcome =>
    ((s.issueCommand reads c sub command false).appendAudit (.audit n .forwarded none)).sendCommandReject n c reason outcome
  | .handed forwarded =>
    (((s.issueCommand reads c sub command true).appendAudit (.audit n .forwarded none)).rememberCommandRecipient
      sub.nodeId (command.id reads) c).appendAudit (.handed n forwarded)

def answer (s : ClientRelay) (n : ℕ) (outcome : String) : ClientRelay :=
  { s with
    commands := s.commands.modify n fun command => { command with answered := true }
    log := s.log ++ [.resultAudit n outcome] }

/-- What an owner gets that has not asked. -/
def deliverResult (n : ℕ) (outcome : String) (reason : Option String) (s : ClientRelay) (c : ℕ) : ClientRelay :=
  if s.clients[c]?.any fun sub => sub.auth.isOwner then s.send c (.commandResult n outcome reason) else s

/-- The answer to the client of the key, and to the owners if there is none. -/
def sendResult (s : ClientRelay) (reads : RelayReads) (n : ℕ) (nodeId commandId outcome : String) (reason : Option String) : ClientRelay :=
  match s.commandRecipients.get (commandRecipientKey nodeId commandId) with
  | some recipient =>
    (s.forgetCommandRecipient nodeId commandId).turn reads.now nodeId (fun s c => s.send c (.commandResult n outcome reason)) recipient
  | none => s.broadcast reads.now nodeId (deliverResult n outcome reason)

/-- A result of the node for the command of the number. -/
def routeCommandResult (s : ClientRelay) (reads : RelayReads) (n : ℕ) (command : IssuedCommand) (outcome : String) (reason : Option String) :
    ClientRelay :=
  let answered := s.answer n outcome
  if (answered.subscribers.get command.nodeId).isNone then answered
  else answered.sendResult reads n command.nodeId command.commandId outcome reason

end ClientRelay

inductive ClientRelayEvent where
  | connect (reads : RelayReads) (nodeId : String) (auth : RelayClientAuth) (terminal : Option RelayTerminal) (transportAllowed : Bool)
  /-- The client's side closes the socket. -/
  | peerCloses (c : ℕ)
  /-- A message that the relay closes the socket for. -/
  | violates (c code : ℕ) (reason : String)
  /-- The close event of a socket that is no longer open. -/
  | closeEvent (reads : RelayReads) (c : ℕ)
  | controlEvent (reads : RelayReads) (event : RemoteControlEvent)
  | terminalEvent (reads : RelayReads) (event : ClientRelay.TerminalStreamEvent) (terminalBlock : Option String) (congested : ℕ → Bool)
  | shareState (reads : RelayReads) (nodeId : String)
  | nodeHello (reads : RelayReads) (nodeId nodeEpoch : String)
  | revoke (nodeId invitationId : String)
  | killTenant (tenantNode : String → Bool) (reason : String)
  | command (reads : CommandReads) (c : ℕ) (command : RemoteCommand)
  | result (reads : RelayReads) (n : ℕ) (outcome : String) (reason : Option String)

def ClientRelay.step (s : ClientRelay) : ClientRelayEvent → Option ClientRelay
  | .connect reads nodeId auth terminal transportAllowed => some (s.connect reads nodeId auth terminal transportAllowed)
  | .peerCloses c => some { s with clients := s.clients.modify c fun client => { client with isOpen := false } }
  | .violates c code reason => if s.clients[c]?.any (!·.isGone) then some (s.closeSocket c code reason) else none
  | .closeEvent reads c =>
    match s.clients[c]? with
    | some sub => if sub.isOpen || sub.isGone then none else some (s.closeHandler reads c sub)
    | none => none
  | .controlEvent reads event => some (s.routeControlEvent reads event)
  | .terminalEvent reads event terminalBlock congested => some (s.routeTerminalStreamEvent reads event terminalBlock congested)
  | .shareState reads nodeId => some (s.broadcastMemberShareState reads nodeId)
  | .nodeHello reads nodeId nodeEpoch => some (s.acceptNode reads nodeId nodeEpoch)
  | .revoke nodeId invitationId => some (s.closeRevokedSubscribers nodeId invitationId)
  | .killTenant tenantNode reason => some (s.closeTenantTerminalSubscribers tenantNode reason)
  | .command reads c command =>
    match s.clients[c]? with
    | some sub => if sub.isGone then none else some (s.handleCommand reads c sub command)
    | none => none
  | .result reads n outcome reason =>
    match s.commands[n]? with
    | some command =>
      if command.handed && command.echoed && !command.answered then some (s.routeCommandResult reads n command outcome reason) else none
    | none => none

end Kookr.Relay
