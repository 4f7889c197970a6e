import Kookr.Spec.Core.LessonWriteSpool

/-! The invitations of the relay (`relay/src/invitations/store.ts`) and the rows its state store keeps of them
(`saveInvitation` and `load` of `relay/src/state/sqlite.ts`). Times are milliseconds. What an operation draws from outside
(the clock, random bytes, share ids) comes with the call. -/

namespace Kookr.Relay

open Kookr.Lib Kookr.Core

inductive ShareGrant where
  | view | comment | terminalView | terminalInput | launch | stop | permissionApprove | admin
  | other (name : String)
  deriving DecidableEq

def ShareGrant.name : ShareGrant → String
  | view => "view"
  | comment => "comment"
  | terminalView => "terminalView"
  | terminalInput => "terminalInput"
  | launch => "launch"
  | stop => "stop"
  | permissionApprove => "permissionApprove"
  | admin => "admin"
  | other name => name

inductive ShareSubject where
  | node (nodeId : String)
  | project (nodeId projectId : String)
  | task (nodeId taskId : String)
  | session (nodeId sessionId : String)
  deriving DecidableEq

/-- Terminal input brings terminal viewing, in the place before it. -/
def normalizeTerminalGrantDependency (grants : List ShareGrant) : List ShareGrant :=
  let normalized :=
    if .terminalInput ∈ grants ∧ .terminalView ∉ grants then
      grants.insertIdx (grants.idxOf .terminalInput) .terminalView
    else grants
  normalized.eraseDups

def normalizeShareGrants (grants : List ShareGrant) : List ShareGrant := normalizeTerminalGrantDependency grants

def normalizeMutableShareGrants (grants : List ShareGrant) : List ShareGrant := normalizeTerminalGrantDependency grants

def sameGrantSet (a b : List ShareGrant) : Bool :=
  let left := a.eraseDups.insertionSort fun x y => x.name ≤ y.name
  let right := b.eraseDups.insertionSort fun x y => x.name ≤ y.name
  left = right

def isTerminalViewOnlyGrantSet (grants : List ShareGrant) : Bool :=
  grants.length > 0 && grants.all fun grant => grant = .terminalView

inductive GrantRequestStatus where
  | pending | approved | denied
  deriving DecidableEq

structure TaskShareGrantRequest where
  requestId : String
  invitationId : String
  requestedGrants : List ShareGrant
  status : GrantRequestStatus
  requestedAt : ℤ
  requestedBy : Option String
  comment : Option String
  resolvedAt : Option ℤ
  resolution : Option GrantRequestStatus
  deriving DecidableEq

structure MemberSessionRecord where
  memberTokenHash : String
  memberId : String
  deviceId : String
  csrfTokenHash : String
  createdAt : ℤ
  acceptedBy : Option String
  deriving DecidableEq

structure ControllerLeaseRecord where
  leaseId : String
  deviceId : String
  holderLabel : Option String
  acquiredAt : ℤ
  expiresAt : ℤ
  projectionVersion : Option ℕ
  policyVersion : Option ℕ
  deriving DecidableEq

/-- The last two parts of `scrypt:16384:8:1:salt:digest`. -/
structure PasswordVerifier where
  salt : String
  digest : String
  deriving DecidableEq

structure InvitationRecord where
  invitationId : String
  nodeId : String
  subject : ShareSubject
  grants : List ShareGrant
  grantId : String
  tokenHash : String
  createdAt : ℤ
  expiresAt : ℤ
  revokedAt : Option ℤ
  acceptedAt : Option ℤ
  acceptedBy : Option String
  memberTokenHash : Option String
  memberId : Option String
  memberDeviceId : Option String
  memberCsrfTokenHash : Option String
  memberSessions : Option (List MemberSessionRecord)
  controllerLease : Option ControllerLeaseRecord
  shareId : Option String
  passwordVerifier : Option PasswordVerifier
  failedAcceptCount : Option ℕ
  lockedUntil : Option ℤ
  redactedShareLabel : Option String
  grantRequests : Option (List TaskShareGrantRequest)
  policyVersion : ℕ
  deriving DecidableEq

namespace InvitationRecord

def sessions (invitation : InvitationRecord) : List MemberSessionRecord := invitation.memberSessions.getD []

def requests (invitation : InvitationRecord) : List TaskShareGrantRequest := invitation.grantRequests.getD []

end InvitationRecord

def normalizeGrantRequest (request : TaskShareGrantRequest) : TaskShareGrantRequest :=
  { request with requestedGrants := normalizeMutableShareGrants request.requestedGrants }

def normalizeInvitationRecord (invitation : InvitationRecord) : InvitationRecord :=
  { invitation with
    grants := normalizeShareGrants invitation.grants
    grantRequests := invitation.grantRequests.map fun requests => requests.map normalizeGrantRequest }

/-- A text that is there and not empty. -/
def nonEmpty (text : Option String) : Option String := text.filter fun text => text ≠ ""

def isGuestLinkTaskShare (invitation : InvitationRecord) : Bool :=
  (match invitation.subject with
    | .task .. => true
    | _ => false) &&
  invitation.grants.contains .view &&
  ((nonEmpty invitation.shareId).isSome || invitation.passwordVerifier.isSome ||
    (nonEmpty invitation.redactedShareLabel).isSome)

/-- `createHash('sha256')` in hex, and `scryptSync` of a password and a salt. -/
structure TokenCrypto where
  hashToken : String → String
  scrypt : String → String → String

/-- What one call draws: the readings of its clock, its random ids and random texts in the order it asks for them, the share
ids it tries and the password it issues. -/
structure Draws where
  clock : ℕ → ℤ
  uuid : ℕ → String
  bytes : ℕ → String
  shareId : ℕ → String
  password : String

/-- The draws that are left once the clock has been read. -/
def Draws.afterReading (draws : Draws) : Draws := { draws with clock := fun i => draws.clock (i + 1) }

def Draws.token (draws : Draws) (kind : String) (i : ℕ) : String := kind ++ "_" ++ draws.bytes i

def defaultTtlMs : ℤ := 24 * 60 * 60 * 1000

def shareIdDigits : ℕ := 6

def shareTicketMaxFailedAttempts : ℕ := 5

def shareTicketLockoutMs : ℤ := 15 * 60 * 1000

def maxGrantRequestCommentLength : ℕ := 160

def deniedGrantRequestCooldownMs : ℤ := 5 * 60 * 1000

def dashed (digits : List Char) : String := String.ofList (digits.take 3 ++ '-' :: digits.drop 3)

def normalizeShareId (shareId : String) : String :=
  let digits := shareId.toList.filter Char.isDigit
  if digits.length ≠ shareIdDigits then "" else dashed digits

def redactShareId (shareId : String) : String :=
  let normalized := normalizeShareId shareId
  if normalized = "" then "***" else String.ofList (normalized.toList.take 3) ++ "-***"

def isControl (c : Char) : Bool :=
  c.toNat ≤ 0x1f || (0x7f ≤ c.toNat && c.toNat ≤ 0x9f) || (0x202a ≤ c.toNat && c.toNat ≤ 0x202e) ||
    (0x2066 ≤ c.toNat && c.toNat ≤ 0x2069)

def sanitizeGrantRequestComment (comment : Option String) : Option String :=
  nonEmpty (comment.map fun comment =>
    String.ofList (sliceUnits maxGrantRequestCommentLength (trimLine (comment.toList.filter fun c => !isControl c))))

/-- `new Date(ms).toISOString()`, which throws for what is not a date. -/
def isoTime (ms : ℤ) : Option ℤ :=
  if -8_640_000_000_000_000 ≤ ms ∧ ms ≤ 8_640_000_000_000_000 then some ms else none

abbrev Index : Type := String → Option String

def Index.set (index : Index) (key value : String) : Index := Function.update index key (some value)

/-- The three index maps are only read by key. -/
@[ext]
structure InvitationStore where
  invitations : OrderedMap String InvitationRecord
  invitationTokenIndex : Index
  shareIdIndex : Index
  memberTokenIndex : Index
  policyVersion : ℕ

inductive Refusal where
  | notFound | expired | revoked | alreadyUsed | invalidPassword | locked | notAccepted | notShareTicket
  | emptyGrants | alreadyPending | alreadyResolved
  | deniedCooldown (retryAt : ℤ)
  | heldByAnotherDevice (lease : ControllerLeaseRecord)
  deriving DecidableEq

structure PolicyGrantRecord where
  grantId : String
  subject : ShareSubject
  grants : List ShareGrant
  policyVersion : ℕ
  expiresAt : ℤ
  deriving DecidableEq

structure ShareTicketSecret where
  shareId : String
  password : String
  redactedShareLabel : String
  deriving DecidableEq

structure AcceptedInvitation where
  invitation : InvitationRecord
  memberToken : String
  csrfToken : String
  deviceId : String
  policyGrant : PolicyGrantRecord
  deriving DecidableEq

inductive Reply where
  | created (invitation : InvitationRecord) (token : String) (shareTicket : Option ShareTicketSecret)
  | accepted (accepted : AcceptedInvitation)
  | ticketReset (invitation : InvitationRecord) (shareTicket : ShareTicketSecret)
  | browserSession (invitation : InvitationRecord) (csrfToken deviceId : String)
  | lease (invitation : InvitationRecord) (lease : ControllerLeaseRecord) (previousLease : Option ControllerLeaseRecord)
  | request (invitation : InvitationRecord) (request : TaskShareGrantRequest)
  | revoked (invitation : InvitationRecord) (alreadyRevoked : Bool)
  | refused (reason : Refusal)
  deriving DecidableEq

inductive StoreFault where
  | shareIdsExhausted | invalidDate | saveFailed
  deriving DecidableEq

/-- How an operation ends: its answer, the counter it has left, and the record it hands to `save` as the last thing it does
before it answers. -/
structure Outcome where
  answer : Except StoreFault Reply
  policyVersion : ℕ
  saves : Option InvitationRecord

def InvitationRecord.policyGrant (invitation : InvitationRecord) : PolicyGrantRecord :=
  ⟨invitation.grantId, invitation.subject, invitation.grants, invitation.policyVersion, invitation.expiresAt⟩

namespace InvitationStore

def empty : InvitationStore := ⟨.empty, fun _ => none, fun _ => none, fun _ => none, 0⟩

def rememberSession (invitationId : String) (index : Index) (session : MemberSessionRecord) : Index :=
  index.set session.memberTokenHash invitationId

def remember (store : InvitationStore) (invitation : InvitationRecord) : InvitationStore :=
  let id := invitation.invitationId
  { store with
    invitations := store.invitations.set id invitation
    invitationTokenIndex := store.invitationTokenIndex.set invitation.tokenHash id
    shareIdIndex := match nonEmpty invitation.shareId with
      | some shareId => store.shareIdIndex.set shareId id
      | none => store.shareIdIndex
    memberTokenIndex :=
      invitation.sessions.foldl (rememberSession id) (match nonEmpty invitation.memberTokenHash with
        | some hash => store.memberTokenIndex.set hash id
        | none => store.memberTokenIndex) }

def loadRecord (store : InvitationStore) (invitation : InvitationRecord) : InvitationStore :=
  let store := store.remember (normalizeInvitationRecord invitation)
  { store with policyVersion := max store.policyVersion invitation.policyVersion }

/-- The constructor. -/
def load (initialInvitations : List InvitationRecord) : InvitationStore := initialInvitations.foldl loadRecord empty

variable (crypto : TokenCrypto) (store : InvitationStore) (draws : Draws)

def refuse (reason : Refusal) : Outcome := ⟨.ok (.refused reason), store.policyVersion, none⟩

def saving (invitation : InvitationRecord) (reply : Reply) : Outcome := ⟨.ok reply, store.policyVersion, some invitation⟩

def createPasswordVerifier (salt password : String) : PasswordVerifier := ⟨salt, crypto.scrypt password salt⟩

def verifyPassword (password : String) (verifier : PasswordVerifier) : Bool :=
  verifier.salt ≠ "" && verifier.digest ≠ "" && crypto.scrypt password verifier.salt = verifier.digest

/-- The share ids from the `i`-th on, while `attempts` are left. -/
def createShareTicket (i : ℕ) : ℕ → Option ShareTicketSecret
  | 0 => none
  | attempts + 1 =>
    let shareId := normalizeShareId (draws.shareId i)
    if shareId = "" || (store.shareIdIndex shareId).isSome then createShareTicket (i + 1) attempts
    else some ⟨shareId, draws.password, redactShareId shareId⟩

structure CreateInput where
  nodeId : String
  subject : Option ShareSubject
  grants : List ShareGrant
  ttlMs : Option ℤ
  shareTicket : Bool
  displayLabel : Option String

/-- `create` from its counter on: the record, if its end is a date. -/
def newInvitation (input : CreateInput) (expiresAt : ℤ) (shareTicket : Option ShareTicketSecret) : InvitationRecord where
  invitationId := "inv-" ++ draws.uuid 0
  nodeId := input.nodeId
  subject := input.subject.getD (.node input.nodeId)
  grants := normalizeShareGrants input.grants
  grantId := "grant-" ++ draws.uuid 1
  tokenHash := crypto.hashToken (draws.token "kookr_inv_v1" 0)
  createdAt := draws.clock 0
  expiresAt := expiresAt
  revokedAt := none
  acceptedAt := none
  acceptedBy := none
  memberTokenHash := none
  memberId := none
  memberDeviceId := none
  memberCsrfTokenHash := none
  memberSessions := none
  controllerLease := none
  shareId := shareTicket.map ShareTicketSecret.shareId
  passwordVerifier := shareTicket.map fun ticket => createPasswordVerifier crypto (draws.bytes 1) ticket.password
  failedAcceptCount := shareTicket.map fun _ => 0
  lockedUntil := none
  redactedShareLabel := shareTicket.map fun ticket => input.displayLabel.getD ticket.redactedShareLabel
  grantRequests := none
  policyVersion := store.policyVersion + 1

def create (input : CreateInput) : Outcome :=
  let shareTicket := if input.shareTicket then store.createShareTicket draws 0 32 else none
  if input.shareTicket && shareTicket.isNone then ⟨.error .shareIdsExhausted, store.policyVersion, none⟩
  else
    match isoTime (draws.clock 0 + input.ttlMs.getD defaultTtlMs) with
    | none => ⟨.error .invalidDate, store.policyVersion + 1, none⟩
    | some expiresAt =>
      let invitation := store.newInvitation crypto draws input expiresAt shareTicket
      ⟨.ok (.created invitation (draws.token "kookr_inv_v1" 0) shareTicket), store.policyVersion + 1, some invitation⟩

/-- The first member, as the record and the answer have it. -/
def firstMember (invitation : InvitationRecord) (acceptedBy deviceId : Option String) : InvitationRecord :=
  let memberTokenHash := crypto.hashToken (draws.token "kookr_member_v1" 0)
  let csrfTokenHash := crypto.hashToken (draws.token "kookr_csrf_v1" 1)
  let memberId := "member-" ++ draws.uuid 0
  let memberDeviceId := deviceId.getD ("device-" ++ draws.uuid 1)
  { invitation with
    acceptedAt := some (draws.clock 1)
    acceptedBy := (nonEmpty acceptedBy).or invitation.acceptedBy
    memberId := some memberId
    memberDeviceId := some memberDeviceId
    memberTokenHash := some memberTokenHash
    memberCsrfTokenHash := some csrfTokenHash
    memberSessions := some [⟨memberTokenHash, memberId, memberDeviceId, csrfTokenHash, draws.clock 1, nonEmpty acceptedBy⟩] }

def acceptByInvitationId (invitationId : String) (acceptedBy deviceId : Option String) : Outcome :=
  match store.invitations.get invitationId with
  | none => store.refuse .notFound
  | some invitation =>
    if invitation.revokedAt.isSome then store.refuse .revoked
    else if invitation.acceptedAt.isSome then store.refuse .alreadyUsed
    else if invitation.expiresAt ≤ draws.clock 0 then store.refuse .expired
    else
      let accepted := firstMember crypto draws invitation acceptedBy deviceId
      store.saving accepted (.accepted ⟨accepted, draws.token "kookr_member_v1" 0, draws.token "kookr_csrf_v1" 1,
        deviceId.getD ("device-" ++ draws.uuid 1), accepted.policyGrant⟩)

def accept (token : String) (acceptedBy deviceId : Option String) : Outcome :=
  match store.invitationTokenIndex (crypto.hashToken token) with
  | none => store.refuse .notFound
  | some invitationId => store.acceptByInvitationId crypto draws invitationId acceptedBy deviceId

def withMemberSession (invitation : InvitationRecord) : Option MemberSessionRecord → InvitationRecord
  | none => invitation
  | some session =>
    { invitation with
      memberTokenHash := some session.memberTokenHash
      memberId := some session.memberId
      memberDeviceId := some session.deviceId
      memberCsrfTokenHash := some session.csrfTokenHash
      acceptedBy := (nonEmpty session.acceptedBy).or invitation.acceptedBy }

def newSession (acceptedBy deviceId : Option String) : MemberSessionRecord where
  memberTokenHash := crypto.hashToken (draws.token "kookr_member_v1" 0)
  memberId := "member-" ++ draws.uuid 0
  deviceId := deviceId.getD ("device-" ++ draws.uuid 1)
  csrfTokenHash := crypto.hashToken (draws.token "kookr_csrf_v1" 1)
  createdAt := draws.clock 1
  acceptedBy := nonEmpty acceptedBy

def addMemberSession (invitationId : String) (acceptedBy deviceId : Option String) : Outcome :=
  match store.invitations.get invitationId with
  | none => store.refuse .notFound
  | some invitation =>
    if invitation.revokedAt.isSome then store.refuse .revoked
    else if invitation.expiresAt ≤ draws.clock 0 then store.refuse .expired
    else if invitation.acceptedAt.isNone then
      store.acceptByInvitationId crypto draws.afterReading invitationId acceptedBy deviceId
    else
      let session := newSession crypto draws acceptedBy deviceId
      let updated := { invitation with memberSessions := some (invitation.sessions ++ [session]) }
      store.saving updated (.accepted ⟨withMemberSession updated (some session), draws.token "kookr_member_v1" 0,
        draws.token "kookr_csrf_v1" 1, session.deviceId, updated.policyGrant⟩)

/-- The record after one more wrong password, `decayedFailures` being still counted. -/
def failedAccept (invitation : InvitationRecord) (decayedFailures : ℕ) : InvitationRecord :=
  { invitation with
    failedAcceptCount := some (decayedFailures + 1)
    lockedUntil :=
      if decayedFailures + 1 ≥ shareTicketMaxFailedAttempts then some (draws.clock 1 + shareTicketLockoutMs) else none }

def acceptTicket (shareId password : String) (acceptedBy deviceId : Option String) : Outcome :=
  let normalizedShareId := normalizeShareId shareId
  if normalizedShareId = "" || password = "" then store.refuse .notFound
  else
    match store.shareIdIndex normalizedShareId with
    | none => store.refuse .notFound
    | some invitationId =>
      match store.invitations.get invitationId with
      | none => store.refuse .notFound
      | some invitation =>
        if invitation.lockedUntil.any fun lockedUntil => draws.clock 0 < lockedUntil then store.refuse .locked
        else
          let decayedFailures := if invitation.lockedUntil.isSome then 0 else invitation.failedAcceptCount.getD 0
          if invitation.passwordVerifier.all fun verifier => !verifyPassword crypto password verifier then
            let failed := failedAccept draws invitation decayedFailures
            store.saving failed (.refused (if failed.lockedUntil.isSome then .locked else .invalidPassword))
          else if invitation.acceptedAt.isSome then
            store.addMemberSession crypto draws.afterReading invitationId acceptedBy deviceId
          else store.acceptByInvitationId crypto draws.afterReading invitationId acceptedBy deviceId

def resetShareTicket (invitationId : String) : Outcome :=
  match store.invitations.get invitationId with
  | none => store.refuse .notFound
  | some invitation =>
    match nonEmpty invitation.shareId with
    | none => store.refuse .notShareTicket
    | some shareId =>
      let updated := { invitation with
        lockedUntil := none
        passwordVerifier := some (createPasswordVerifier crypto (draws.bytes 0) draws.password)
        failedAcceptCount := some 0 }
      store.saving updated (.ticketReset updated
        ⟨shareId, draws.password, invitation.redactedShareLabel.getD (redactShareId shareId)⟩)

def verifyMemberCsrfToken (invitationId csrfToken : String) : Bool :=
  match store.invitations.get invitationId with
  | none => false
  | some invitation =>
    (invitation.memberCsrfTokenHash.toList ++ invitation.sessions.map MemberSessionRecord.csrfTokenHash).any fun candidate =>
      candidate = crypto.hashToken csrfToken

def ensureMemberBrowserSession (invitationId : String) (deviceId csrfToken : Option String) : Outcome :=
  match store.invitations.get invitationId with
  | none => store.refuse .notFound
  | some invitation =>
    if invitation.revokedAt.isSome then store.refuse .revoked
    else if invitation.acceptedAt.isNone then store.refuse .notAccepted
    else if invitation.expiresAt ≤ draws.clock 0 then store.refuse .expired
    else
      let deviceId := ((nonEmpty deviceId).or (nonEmpty invitation.memberDeviceId)).getD ("device-" ++ draws.uuid 0)
      let memberDeviceId := (nonEmpty invitation.memberDeviceId).getD deviceId
      match (nonEmpty csrfToken).filter (store.verifyMemberCsrfToken crypto invitationId) with
      | some csrfToken =>
        let updated := { invitation with memberDeviceId := some memberDeviceId }
        if (nonEmpty invitation.memberDeviceId).isSome then
          ⟨.ok (.browserSession updated csrfToken deviceId), store.policyVersion, none⟩
        else store.saving updated (.browserSession updated csrfToken deviceId)
      | none =>
        let csrfToken := draws.token "kookr_csrf_v1" 0
        let updated := { invitation with
          memberDeviceId := some memberDeviceId
          memberCsrfTokenHash := some (crypto.hashToken csrfToken) }
        store.saving updated (.browserSession updated csrfToken deviceId)

structure LeaseInput where
  invitationId : String
  deviceId : String
  holderLabel : Option String
  ttlMs : Option ℤ
  takeover : Bool
  projectionVersion : Option ℕ
  policyVersion : Option ℕ

/-- The lease as it stands from now on: refreshed, or a new one under `leaseId`. -/
def grantedLease (input : LeaseInput) (expiresAt : ℤ) : Option ControllerLeaseRecord → ControllerLeaseRecord
  | some current =>
    { current with
      holderLabel := ((nonEmpty input.holderLabel).map fun label => String.ofList (sliceUnits 80 label.toList)).or
        current.holderLabel
      expiresAt := expiresAt
      projectionVersion := input.projectionVersion.or current.projectionVersion
      policyVersion := input.policyVersion.or current.policyVersion }
  | none =>
    { leaseId := "lease-" ++ draws.uuid 0
      deviceId := input.deviceId
      holderLabel := (nonEmpty input.holderLabel).map fun label => String.ofList (sliceUnits 80 label.toList)
      acquiredAt := draws.clock 1
      expiresAt := expiresAt
      projectionVersion := input.projectionVersion
      policyVersion := input.policyVersion }

def acquireControllerLease (input : LeaseInput) : Outcome :=
  match store.invitations.get input.invitationId with
  | none => store.refuse .notFound
  | some invitation =>
    if invitation.revokedAt.isSome then store.refuse .revoked
    else if invitation.acceptedAt.isNone then store.refuse .notAccepted
    else if invitation.expiresAt ≤ draws.clock 0 then store.refuse .expired
    else
      let now := draws.clock 1
      let currentActive := invitation.controllerLease.filter fun lease => now < lease.expiresAt
      match currentActive.filter fun lease => lease.deviceId ≠ input.deviceId ∧ !input.takeover with
      | some lease => store.refuse (.heldByAnotherDevice lease)
      | none =>
        match isoTime (now + max 1000 (input.ttlMs.getD 30000)) with
        | none => ⟨.error .invalidDate, store.policyVersion, none⟩
        | some expiresAt =>
          let refreshed := currentActive.filter fun lease => lease.deviceId = input.deviceId ∧ !input.takeover
          let lease := grantedLease draws input expiresAt refreshed
          let updated := { invitation with controllerLease := some lease }
          store.saving updated (.lease updated lease (if refreshed.isSome then none else currentActive))

def revoke (invitationId : String) : Outcome :=
  match store.invitations.get invitationId with
  | none => store.refuse .notFound
  | some invitation =>
    if invitation.revokedAt.isSome then ⟨.ok (.revoked invitation true), store.policyVersion, none⟩
    else
      let updated := { invitation with
        revokedAt := some (draws.clock 0)
        policyVersion := store.policyVersion + 1 }
      ⟨.ok (.revoked updated false), store.policyVersion + 1, some updated⟩

structure GrantRequestInput where
  invitationId : String
  requestedGrants : List ShareGrant
  requestedBy : Option String
  comment : Option String

/-- Whether a request on the record answers for the one that is made. -/
def answersFor (status : GrantRequestStatus) (requestedGrants : List ShareGrant) (guestTerminalViewRequest : Bool)
    (requestedBy : Option String) (request : TaskShareGrantRequest) : Bool :=
  request.status = status && sameGrantSet request.requestedGrants requestedGrants &&
    (!guestTerminalViewRequest || request.requestedBy = requestedBy)

/-- What is asked for beyond what the invitation has; on a guest link terminal viewing is asked for by each member. -/
def grantsToRequest (invitation : InvitationRecord) (requestedGrants : List ShareGrant) : List ShareGrant :=
  let normalizedRequestedGrants := normalizeMutableShareGrants requestedGrants
  if isGuestLinkTaskShare invitation && isTerminalViewOnlyGrantSet normalizedRequestedGrants then normalizedRequestedGrants
  else normalizedRequestedGrants.filter fun grant => !invitation.grants.contains grant

/-- When the denial of such a request stops barring it. -/
def retryAt (recentDenied : TaskShareGrantRequest) : ℤ :=
  recentDenied.resolvedAt.getD recentDenied.requestedAt + deniedGrantRequestCooldownMs

def newRequest (input : GrantRequestInput) (requestedGrants : List ShareGrant) (requestedAt : ℤ) : TaskShareGrantRequest where
  requestId := "grant-req-" ++ draws.uuid 0
  invitationId := input.invitationId
  requestedGrants := requestedGrants
  status := .pending
  requestedAt := requestedAt
  requestedBy := nonEmpty input.requestedBy
  comment := sanitizeGrantRequestComment input.comment
  resolvedAt := none
  resolution := none

def requestGrants (input : GrantRequestInput) : Outcome :=
  match store.invitations.get input.invitationId with
  | none => store.refuse .notFound
  | some invitation =>
    if invitation.revokedAt.isSome then store.refuse .revoked
    else if invitation.acceptedAt.isNone then store.refuse .notAccepted
    else if invitation.expiresAt ≤ draws.clock 0 then store.refuse .expired
    else
      let guestTerminalViewRequest := isGuestLinkTaskShare invitation &&
        isTerminalViewOnlyGrantSet (normalizeMutableShareGrants input.requestedGrants)
      let requestedGrants := grantsToRequest invitation input.requestedGrants
      if requestedGrants.length = 0 then store.refuse .emptyGrants
      else
        let requests := invitation.requests
        if (requests.reverse.find?
            (answersFor .pending requestedGrants guestTerminalViewRequest input.requestedBy)).isSome then
          store.refuse .alreadyPending
        else
          let recentDenied := requests.reverse.find?
            (answersFor .denied requestedGrants guestTerminalViewRequest input.requestedBy)
          match recentDenied.filter fun denied => draws.clock 1 < retryAt denied with
          | some denied => store.refuse (.deniedCooldown (retryAt denied))
          | none =>
            let requestedAt := if recentDenied.isSome then draws.clock 2 else draws.clock 1
            let request := newRequest draws input requestedGrants requestedAt
            let updated := { invitation with grantRequests := some (requests ++ [request]) }
            store.saving updated (.request updated request)

def resolved (approve : Bool) (resolvedAt : ℤ) (request : TaskShareGrantRequest) : TaskShareGrantRequest :=
  let status := if approve then .approved else .denied
  { request with status := status, resolution := some status, resolvedAt := some resolvedAt }

def resolveGrantRequest (invitationId requestId : String) (approve : Bool) : Outcome :=
  match store.invitations.get invitationId with
  | none => store.refuse .notFound
  | some invitation =>
    if invitation.revokedAt.isSome then store.refuse .revoked
    else if invitation.expiresAt ≤ draws.clock 0 then store.refuse .expired
    else
      let requests := invitation.requests
      match requests.find? fun candidate => candidate.requestId = requestId with
      | none => store.refuse .notFound
      | some request =>
        if request.status ≠ .pending then store.refuse .alreadyResolved
        else
          let resolvedRequest := resolved approve (draws.clock 1) request
          let policyVersion := if approve then store.policyVersion + 1 else store.policyVersion
          let updated := { invitation with
            grants :=
              if approve then normalizeShareGrants (invitation.grants ++ request.requestedGrants) else invitation.grants
            grantRequests := some (requests.map fun candidate =>
              if candidate.requestId = requestId then resolvedRequest else candidate)
            policyVersion := if approve then policyVersion else invitation.policyVersion }
          ⟨.ok (.request updated resolvedRequest), policyVersion, some updated⟩

end InvitationStore

inductive InvitationOp where
  | create (input : InvitationStore.CreateInput)
  | accept (token : String) (acceptedBy deviceId : Option String)
  | acceptTicket (shareId password : String) (acceptedBy deviceId : Option String)
  | resetShareTicket (invitationId : String)
  | ensureMemberBrowserSession (invitationId : String) (deviceId csrfToken : Option String)
  | acquireControllerLease (input : InvitationStore.LeaseInput)
  | requestGrants (input : InvitationStore.GrantRequestInput)
  | resolveGrantRequest (invitationId requestId : String) (approve : Bool)
  | revoke (invitationId : String)

namespace InvitationStore

variable (crypto : TokenCrypto)

def outcome (store : InvitationStore) (draws : Draws) : InvitationOp → Outcome
  | .create input => store.create crypto draws input
  | .accept token acceptedBy deviceId => store.accept crypto draws token acceptedBy deviceId
  | .acceptTicket shareId password acceptedBy deviceId => store.acceptTicket crypto draws shareId password acceptedBy deviceId
  | .resetShareTicket invitationId => store.resetShareTicket crypto draws invitationId
  | .ensureMemberBrowserSession invitationId deviceId csrfToken =>
    store.ensureMemberBrowserSession crypto draws invitationId deviceId csrfToken
  | .acquireControllerLease input => store.acquireControllerLease draws input
  | .requestGrants input => store.requestGrants draws input
  | .resolveGrantRequest invitationId requestId approve => store.resolveGrantRequest draws invitationId requestId approve
  | .revoke invitationId => store.revoke draws invitationId

/-- What the operation leaves of the store when `onSave` returns, and what it leaves when `onSave` throws. -/
def finish (store : InvitationStore) (outcome : Outcome) (saveThrows : Bool) : InvitationStore :=
  let bumped := { store with policyVersion := outcome.policyVersion }
  match outcome.saves with
  | none => bumped
  | some invitation => if saveThrows then bumped else bumped.remember invitation

def answer (outcome : Outcome) (saveThrows : Bool) : Except StoreFault Reply :=
  if outcome.saves.isSome && saveThrows then .error .saveFailed else outcome.answer

variable (store : InvitationStore)

def findInvitationAndSessionByMemberToken (token : String) : Option (InvitationRecord × Option MemberSessionRecord) :=
  let tokenHash := crypto.hashToken token
  ((store.memberTokenIndex tokenHash).bind store.invitations.get).map fun invitation =>
    (invitation, invitation.sessions.find? fun candidate => candidate.memberTokenHash = tokenHash)

def authenticateMember (token : String) (now : ℤ) : Option InvitationRecord :=
  match store.findInvitationAndSessionByMemberToken crypto token with
  | none => none
  | some (invitation, session) =>
    if invitation.acceptedAt.isNone || invitation.revokedAt.isSome || invitation.expiresAt ≤ now then none
    else some (withMemberSession invitation session)

def findByMemberToken (token : String) : Option InvitationRecord :=
  match store.findInvitationAndSessionByMemberToken crypto token with
  | none => none
  | some (invitation, session) =>
    if invitation.acceptedAt.isNone then none else some (withMemberSession invitation session)

def currentPolicyVersion : ℕ := store.policyVersion

def activePolicyGrantsForNode (nodeId : String) (now : ℤ) : List PolicyGrantRecord :=
  (store.invitations.values.filter fun invitation =>
    invitation.nodeId = nodeId && invitation.acceptedAt.isSome && invitation.revokedAt.isNone && now < invitation.expiresAt).map
      InvitationRecord.policyGrant

def revokedGrantIdsForNode (nodeId : String) : List String :=
  (store.invitations.values.filter fun invitation =>
    invitation.nodeId = nodeId && invitation.revokedAt.isSome).map InvitationRecord.grantId

def list : List InvitationRecord := store.invitations.values

end InvitationStore

/-- The running store and the rows of `relay_invitations`, in the order of their first insert. -/
structure RelayState where
  store : InvitationStore
  rows : OrderedMap String InvitationRecord

inductive RelayEvent where
  | call (op : InvitationOp) (draws : Draws) (saveThrows : Bool)
  | restart

namespace RelayState

def start : RelayState := ⟨.empty, .empty⟩

/-- The rows once `onSave` has been through; a save that throws leaves them as they were. -/
def saveInvitation (rows : OrderedMap String InvitationRecord) (outcome : Outcome) (saveThrows : Bool) :
    OrderedMap String InvitationRecord :=
  match outcome.saves with
  | none => rows
  | some invitation => if saveThrows then rows else rows.set invitation.invitationId invitation

def settle (state : RelayState) (outcome : Outcome) (saveThrows : Bool) : RelayState :=
  ⟨state.store.finish outcome saveThrows, saveInvitation state.rows outcome saveThrows⟩

def next (crypto : TokenCrypto) (state : RelayState) : RelayEvent → RelayState
  | .call op draws saveThrows => state.settle (state.store.outcome crypto draws op) saveThrows
  | .restart => ⟨.load state.rows.values, state.rows⟩

def step (crypto : TokenCrypto) (state : RelayState) (event : RelayEvent) : Option RelayState :=
  some (state.next crypto event)

def run (crypto : TokenCrypto) (state : RelayState) (events : List RelayEvent) : RelayState :=
  events.foldl (next crypto) state

/-- The answers to the calls of a run; a restart answers nothing. -/
def replies (crypto : TokenCrypto) : RelayState → List RelayEvent → List (Except StoreFault Reply)
  | _, [] => []
  | state, .call op draws saveThrows :: events =>
    InvitationStore.answer (state.store.outcome crypto draws op) saveThrows ::
      replies crypto (state.next crypto (.call op draws saveThrows)) events
  | state, .restart :: events => replies crypto (state.next crypto .restart) events

end RelayState

namespace InvitationStore

/-- The operation takes a new policy version. -/
def advancesVersion (store : InvitationStore) (draws : Draws) : InvitationOp → Bool
  | .create input => !input.shareTicket || (store.createShareTicket draws 0 32).isSome
  | .resolveGrantRequest invitationId requestId approve =>
    approve && (store.invitations.get invitationId).any fun invitation =>
      invitation.revokedAt.isNone && !decide (invitation.expiresAt ≤ draws.clock 0) &&
        (invitation.requests.find? fun candidate => candidate.requestId = requestId).any fun request =>
          request.status = .pending
  | .revoke invitationId => (store.invitations.get invitationId).any fun invitation => invitation.revokedAt.isNone
  | _ => false

/-- The end of a new invitation is a date. -/
def endsAtDate (draws : Draws) : InvitationOp → Bool
  | .create input => (isoTime (draws.clock 0 + input.ttlMs.getD defaultTtlMs)).isSome
  | _ => true

/-- A new policy version gets to the rows. -/
def VersionSaved (store : InvitationStore) (draws : Draws) (saveThrows : Bool) (op : InvitationOp) : Prop :=
  store.advancesVersion draws op = true → saveThrows = false ∧ endsAtDate draws op = true

instance (store : InvitationStore) (draws : Draws) (saveThrows : Bool) (op : InvitationOp) :
    Decidable (store.VersionSaved draws saveThrows op) :=
  inferInstanceAs (Decidable (_ → _))

/-- The request passes the checks of `requestGrants`. -/
def admitsRequest (invitation : InvitationRecord) (draws : Draws) (input : GrantRequestInput) : Bool :=
  let guestTerminalViewRequest := isGuestLinkTaskShare invitation &&
    isTerminalViewOnlyGrantSet (normalizeMutableShareGrants input.requestedGrants)
  let requestedGrants := grantsToRequest invitation input.requestedGrants
  invitation.revokedAt.isNone && invitation.acceptedAt.isSome && !decide (invitation.expiresAt ≤ draws.clock 0) &&
    (invitation.requests.reverse.find?
      (answersFor .pending requestedGrants guestTerminalViewRequest input.requestedBy)).isNone &&
    ((invitation.requests.reverse.find?
      (answersFor .denied requestedGrants guestTerminalViewRequest input.requestedBy)).filter fun denied =>
        draws.clock 1 < retryAt denied).isNone

end InvitationStore

end Kookr.Relay
