import Kookr.Spec.Relay.InvitationStore

/-! What a member is shown of a share (`relay/src/member-state.ts`). -/

namespace Kookr.Relay

inductive PolicySyncStatus where
  | notSent | sentAwaitingAck | acked | stale | timedOut | failed
  deriving DecidableEq

structure MemberNodeState where
  displayName : Option String
  connected : Bool
  lastSeen : Option String
  supportedFeatures : Option (List String)
  policySyncStatus : PolicySyncStatus
  lastPolicyAckAt : Option String
  deriving DecidableEq

inductive MemberBlockedReason where
  | grantRequired | syncPending | syncFailed | syncTimedOut | syncStale | offline | featureUnavailable | untrusted
  | guestTerminalDisabled | insecure
  deriving DecidableEq

def memberBlockedMessage : MemberBlockedReason → String
  | .grantRequired => "Terminal viewing requires owner approval."
  | .syncPending => "The owner is still applying your approval."
  | .syncFailed => "The owner could not apply the latest sharing policy."
  | .syncTimedOut => "The owner has not acknowledged the latest sharing policy yet."
  | .syncStale => "The owner is using an older sharing policy."
  | .offline => "The owner node is offline right now."
  | .featureUnavailable => "Terminal sharing is not available for this session."
  | .untrusted => "The owner has not enabled terminal sharing on this node."
  | .guestTerminalDisabled => "Guest Links are view-only and do not support terminal viewing."
  | .insecure => "Terminal sharing requires HTTPS for public links."

inductive MemberTerminalSharingStatus where
  | available
  | viewOnly
  | pendingApproval (requestId : String)
  | denied (deniedAt : ℤ)
  | blocked (reason : MemberBlockedReason) (message : String) (nextRetryAt : Option ℤ)
  | revoked
  | expired
  deriving DecidableEq

inductive MemberShareLifecycleState where
  | pending | approved | revoked | expired
  deriving DecidableEq

/-- A request without the one who asked. -/
structure MemberGrantRequest where
  requestId : String
  invitationId : String
  requestedGrants : List ShareGrant
  status : GrantRequestStatus
  requestedAt : ℤ
  comment : Option String
  resolvedAt : Option ℤ
  resolution : Option GrantRequestStatus
  deriving DecidableEq

inductive MemberControllerLease where
  | available
  | heldByThisDevice (holderLabel : Option String) (expiresAt : ℤ)
  | heldByAnotherDevice (holderLabel : Option String) (expiresAt : ℤ)
  deriving DecidableEq

structure MemberShare where
  state : MemberShareLifecycleState
  label : Option String
  expiresAt : ℤ
  deriving DecidableEq

structure MemberNode where
  online : Bool
  displayName : Option String
  lastSeenAt : Option String
  nextRetryAt : Option ℤ
  deriving DecidableEq

structure MemberFreshness where
  checkedAt : ℤ
  lastNodeSeenAt : Option String
  lastPolicyAckAt : Option String
  nextRetryAt : Option ℤ
  deriving DecidableEq

@[ext]
structure MemberShareState where
  invitationId : String
  nodeId : String
  share : MemberShare
  grants : List ShareGrant
  grantRequests : List MemberGrantRequest
  node : MemberNode
  terminal : MemberTerminalSharingStatus
  controllerLease : MemberControllerLease
  freshness : MemberFreshness
  deriving DecidableEq

def hasGuestSessionTerminalView (invitation : InvitationRecord) (memberSessionId : Option String) : Bool :=
  isGuestLinkTaskShare invitation && invitation.requests.any fun request =>
    request.status = .approved && request.requestedBy = memberSessionId && isTerminalViewOnlyGrantSet request.requestedGrants

def blocked (reason : MemberBlockedReason) (nextRetryAt : Option ℤ) : MemberTerminalSharingStatus :=
  .blocked reason (memberBlockedMessage reason) nextRetryAt

/-- The member's last request for the terminal with the status. -/
def terminalRequest (invitation : InvitationRecord) (status : GrantRequestStatus) (memberSessionId : Option String) :
    Option TaskShareGrantRequest :=
  invitation.requests.reverse.find? fun request =>
    request.status = status && request.requestedBy = memberSessionId &&
      (request.requestedGrants.contains .terminalInput || request.requestedGrants.contains .terminalView)

def buildTerminalStatus (invitation : InvitationRecord) (node : MemberNodeState) (expired : Bool) (nextRetryAt : Option ℤ)
    (memberSessionId : Option String) : MemberTerminalSharingStatus :=
  if invitation.revokedAt.isSome then .revoked
  else if expired then .expired
  else
    let guestLink := isGuestLinkTaskShare invitation
    let hasTerminalInput := !guestLink && invitation.grants.contains .terminalInput
    let guestSessionMayViewTerminal := hasGuestSessionTerminalView invitation memberSessionId
    let hasTerminalView :=
      (!guestLink && (invitation.grants.contains .terminalView || hasTerminalInput)) || guestSessionMayViewTerminal
    if hasTerminalView || hasTerminalInput then
      if !node.connected then blocked .offline nextRetryAt
      else
        let features := node.supportedFeatures.getD []
        let needsTerminalInput := !guestLink && hasTerminalInput
        if !features.contains "terminal-stream" && (!needsTerminalInput || !features.contains "terminal-input") then
          blocked .untrusted nextRetryAt
        else if !features.contains "terminal-stream" || (needsTerminalInput && !features.contains "terminal-input") then
          blocked .featureUnavailable nextRetryAt
        else
          match node.policySyncStatus with
          | .notSent | .sentAwaitingAck => blocked .syncPending nextRetryAt
          | .timedOut => blocked .syncTimedOut nextRetryAt
          | .stale => blocked .syncStale nextRetryAt
          | .failed => blocked .syncFailed nextRetryAt
          | .acked => if needsTerminalInput then .available else .viewOnly
    else
      match terminalRequest invitation .pending memberSessionId with
      | some pending => .pendingApproval pending.requestId
      | none =>
        match terminalRequest invitation .denied memberSessionId with
        | some denied => .denied (denied.resolvedAt.getD denied.requestedAt)
        | none => blocked .grantRequired nextRetryAt

def controllerLeaseState (invitation : InvitationRecord) (deviceId : Option String) (now : ℤ) : MemberControllerLease :=
  match invitation.controllerLease.filter fun lease => now < lease.expiresAt with
  | none => .available
  | some lease =>
    if nonEmpty deviceId = some lease.deviceId then .heldByThisDevice (nonEmpty lease.holderLabel) lease.expiresAt
    else .heldByAnotherDevice (nonEmpty lease.holderLabel) lease.expiresAt

/-- A grant of the record that the member is shown. -/
def showsGrant (guestLink guestSessionTerminalApproved : Bool) (grant : ShareGrant) : Bool :=
  grant = .view ||
    (grant = .terminalView && (!guestLink || guestSessionTerminalApproved)) ||
    (!guestLink && (grant = .terminalInput || grant = .launch || grant = .stop || grant = .permissionApprove))

/-- A request of the record that the member is shown: on a guest link only the member's own for terminal viewing. -/
def showsRequest (guestLink : Bool) (memberId : Option String) (request : TaskShareGrantRequest) : Bool :=
  !guestLink || (request.requestedBy = memberId && isTerminalViewOnlyGrantSet request.requestedGrants)

def memberGrantRequest (request : TaskShareGrantRequest) : MemberGrantRequest where
  requestId := request.requestId
  invitationId := request.invitationId
  requestedGrants := request.requestedGrants
  status := request.status
  requestedAt := request.requestedAt
  comment := nonEmpty request.comment
  resolvedAt := request.resolvedAt
  resolution := request.resolution

def buildMemberShareState (invitation : InvitationRecord) (node : MemberNodeState) (deviceId : Option String) (now : ℤ) :
    MemberShareState :=
  let expired : Bool := invitation.expiresAt ≤ now
  let nodeNextRetryAt := if node.connected then none else some (now + 5000)
  let guestLink := isGuestLinkTaskShare invitation
  let guestSessionTerminalApproved := hasGuestSessionTerminalView invitation invitation.memberId
  { invitationId := invitation.invitationId
    nodeId := invitation.nodeId
    share :=
      { state :=
          if invitation.revokedAt.isSome then .revoked
          else if expired then .expired
          else if invitation.acceptedAt.isSome then .approved
          else .pending
        label := nonEmpty invitation.redactedShareLabel
        expiresAt := invitation.expiresAt }
    grants := invitation.grants.filter (showsGrant guestLink guestSessionTerminalApproved)
    grantRequests := (invitation.requests.filter (showsRequest guestLink invitation.memberId)).map memberGrantRequest
    node :=
      { online := node.connected
        displayName := nonEmpty node.displayName
        lastSeenAt := nonEmpty node.lastSeen
        nextRetryAt := nodeNextRetryAt }
    terminal := buildTerminalStatus invitation node expired nodeNextRetryAt invitation.memberId
    controllerLease := if guestLink then .available else controllerLeaseState invitation deviceId now
    freshness :=
      { checkedAt := now
        lastNodeSeenAt := nonEmpty node.lastSeen
        lastPolicyAckAt := nonEmpty node.lastPolicyAckAt
        nextRetryAt := nodeNextRetryAt } }

end Kookr.Relay
