import Kookr.Spec.Relay.InvitationStore

/-! What an operation of the invitation store can hand to `save`: the record of a new invitation, or one edit of a record it
has found. -/

namespace Kookr.Relay

open Kookr.Lib

/-- The draws of one call, whichever reading of the clock they are taken at. -/
structure Draws.SameTexts (d draws : Draws) : Prop where
  uuid : d.uuid = draws.uuid
  bytes : d.bytes = draws.bytes

theorem Draws.SameTexts.refl (draws : Draws) : draws.SameTexts draws := ⟨rfl, rfl⟩

theorem Draws.SameTexts.afterReading {d draws : Draws} (h : d.SameTexts draws) : d.afterReading.SameTexts draws :=
  ⟨h.uuid, h.bytes⟩

theorem Draws.SameTexts.token {d draws : Draws} (h : d.SameTexts draws) (kind : String) (i : ℕ) :
    d.token kind i = draws.token kind i := by
  rw [Draws.token, Draws.token, h.bytes]

theorem RelayState.exec_step (crypto : TokenCrypto) (state : RelayState) (events : List RelayEvent) :
    exec (RelayState.step crypto) state events = some (state.run crypto events) := by
  induction events generalizing state with
  | nil => rfl
  | cons event events ih => exact ih (state.next crypto event)

namespace InvitationStore

variable {crypto : TokenCrypto} {store : InvitationStore} {draws d : Draws} {op : InvitationOp}
  {record : InvitationRecord} (invitationId : String)

/-- The edits of a record, under the operation that makes them. -/
inductive Edit (crypto : TokenCrypto) (store : InvitationStore) (draws : Draws) (old : InvitationRecord) :
    InvitationOp → InvitationRecord → Prop
  | firstMember {op : InvitationOp} {d : Draws} (hd : d.SameTexts draws) (acceptedBy deviceId : Option String)
      (hnew : old.acceptedAt = none) : Edit crypto store draws old op (firstMember crypto d old acceptedBy deviceId)
  | newSession {shareId password : String} {acceptedBy deviceId : Option String} {d : Draws} (hd : d.SameTexts draws)
      (hold : old.acceptedAt.isSome = true) :
      Edit crypto store draws old (.acceptTicket shareId password acceptedBy deviceId)
        { old with memberSessions := some (old.sessions ++ [newSession crypto d acceptedBy deviceId]) }
  | failedAccept {shareId password : String} {acceptedBy deviceId : Option String} (failures : ℕ) :
      Edit crypto store draws old (.acceptTicket shareId password acceptedBy deviceId) (failedAccept draws old failures)
  | ticketReset {invitationId : String} (verifier : PasswordVerifier) :
      Edit crypto store draws old (.resetShareTicket invitationId)
        { old with lockedUntil := none, passwordVerifier := some verifier, failedAcceptCount := some 0 }
  | browserDevice {invitationId : String} {deviceId csrfToken : Option String} (memberDeviceId : Option String) :
      Edit crypto store draws old (.ensureMemberBrowserSession invitationId deviceId csrfToken)
        { old with memberDeviceId := memberDeviceId }
  | browserSession {invitationId : String} {deviceId csrfToken : Option String} (memberDeviceId csrfTokenHash : Option String)
      (hget : store.invitations.get invitationId = some old) (hlive : draws.clock 0 < old.expiresAt)
      (hnone : (nonEmpty csrfToken).filter (store.verifyMemberCsrfToken crypto invitationId) = none) :
      Edit crypto store draws old (.ensureMemberBrowserSession invitationId deviceId csrfToken)
        { old with memberDeviceId := memberDeviceId, memberCsrfTokenHash := csrfTokenHash }
  | lease {input : LeaseInput} (lease : ControllerLeaseRecord) :
      Edit crypto store draws old (.acquireControllerLease input) { old with controllerLease := some lease }
  | request (input : GrantRequestInput) (requestedAt : ℤ) (hget : store.invitations.get input.invitationId = some old)
      (hadmits : admitsRequest old draws input = true) :
      Edit crypto store draws old (.requestGrants input)
        { old with
          grantRequests :=
            some (old.requests ++ [newRequest draws input (grantsToRequest old input.requestedGrants) requestedAt]) }
  | denied {invitationId requestId : String} (resolvedAt : ℤ) (request : TaskShareGrantRequest)
      (hget : store.invitations.get invitationId = some old)
      (hfound : (old.requests.find? fun candidate => candidate.requestId = requestId) = some request) :
      Edit crypto store draws old (.resolveGrantRequest invitationId requestId false)
        { old with grantRequests := some (old.requests.map fun candidate =>
            if candidate.requestId = requestId then resolved false resolvedAt request else candidate) }

/-- The edits that bring a new policy version. -/
inductive PolicyEdit (store : InvitationStore) (draws : Draws) (old : InvitationRecord) :
    InvitationOp → InvitationRecord → Prop
  | approved {invitationId requestId : String} (resolvedAt : ℤ) (request : TaskShareGrantRequest)
      (hget : store.invitations.get invitationId = some old)
      (hfound : (old.requests.find? fun candidate => candidate.requestId = requestId) = some request) :
      PolicyEdit store draws old (.resolveGrantRequest invitationId requestId true)
        { old with
          grants := normalizeShareGrants (old.grants ++ request.requestedGrants)
          grantRequests := some (old.requests.map fun candidate =>
            if candidate.requestId = requestId then resolved true resolvedAt request else candidate)
          policyVersion := store.policyVersion + 1 }
  | revoked {invitationId : String} (revokedAt : ℤ) :
      PolicyEdit store draws old (.revoke invitationId)
        { old with revokedAt := some revokedAt, policyVersion := store.policyVersion + 1 }

/-- How an operation ends: nothing to save, the record of a new invitation, or an edit of a record it has found. -/
inductive Ends (crypto : TokenCrypto) (store : InvitationStore) (draws : Draws) (op : InvitationOp) : Outcome → Prop
  | quiet (answer : Except StoreFault Reply) : Ends crypto store draws op ⟨answer, store.policyVersion, none⟩
  | noDate (input : CreateInput) (hop : op = .create input) (hadvances : store.advancesVersion draws op = true)
      (hdate : isoTime (draws.clock 0 + input.ttlMs.getD defaultTtlMs) = none) :
      Ends crypto store draws op ⟨.error .invalidDate, store.policyVersion + 1, none⟩
  | created (answer : Except StoreFault Reply) (input : CreateInput) (expiresAt : ℤ) (shareTicket : Option ShareTicketSecret)
      (hop : op = .create input) (hadvances : store.advancesVersion draws op = true)
      (hticket : ∀ ticket ∈ shareTicket, store.createShareTicket draws 0 32 = some ticket) :
      Ends crypto store draws op
        ⟨answer, store.policyVersion + 1, some (store.newInvitation crypto draws input expiresAt shareTicket)⟩
  | edited (answer : Except StoreFault Reply) {invitationId : String} {old record : InvitationRecord}
      (hold : store.invitations.get invitationId = some old) (hedit : Edit crypto store draws old op record) :
      Ends crypto store draws op ⟨answer, store.policyVersion, some record⟩
  | policy (answer : Except StoreFault Reply) {invitationId : String} {old record : InvitationRecord}
      (hold : store.invitations.get invitationId = some old) (hadvances : store.advancesVersion draws op = true)
      (hedit : PolicyEdit store draws old op record) :
      Ends crypto store draws op ⟨answer, store.policyVersion + 1, some record⟩

theorem create_ends (input : CreateInput) : Ends crypto store draws (.create input) (store.create crypto draws input) := by
  unfold create
  generalize hticket : (if input.shareTicket = true then store.createShareTicket draws 0 32 else none) = shareTicket
  simp only
  split
  · exact .quiet _
  rename_i hissued
  have hdrawn : ∀ ticket ∈ shareTicket, store.createShareTicket draws 0 32 = some ticket := by
    intro ticket hmem
    rw [← hticket] at hmem
    split_ifs at hmem
    · exact hmem
    · cases hmem
  have hadvances : store.advancesVersion draws (.create input) = true := by
    cases hshare : input.shareTicket with
    | false => simp [advancesVersion, hshare]
    | true =>
      cases shareTicket with
      | none => simp [hshare] at hissued
      | some ticket => simp [advancesVersion, hdrawn ticket rfl]
  cases hdate : isoTime (draws.clock 0 + input.ttlMs.getD defaultTtlMs) with
  | none => exact .noDate input rfl hadvances hdate
  | some expiresAt => exact .created _ input expiresAt shareTicket rfl hadvances hdrawn

theorem acceptByInvitationId_ends (hd : d.SameTexts draws) (invitationId : String) (acceptedBy deviceId : Option String) :
    Ends crypto store draws op (store.acceptByInvitationId crypto d invitationId acceptedBy deviceId) := by
  unfold acceptByInvitationId
  split
  · exact .quiet _
  · rename_i invitation hget
    split_ifs with hrevoked haccepted hexpired
    · exact .quiet _
    · exact .quiet _
    · exact .quiet _
    · exact .edited _ hget (.firstMember hd acceptedBy deviceId (Option.not_isSome_iff_eq_none.1 haccepted))

theorem accept_ends (token : String) (acceptedBy deviceId : Option String) :
    Ends crypto store draws op (store.accept crypto draws token acceptedBy deviceId) := by
  unfold accept
  split
  · exact .quiet _
  · exact acceptByInvitationId_ends (.refl draws) _ acceptedBy deviceId

theorem addMemberSession_ends (hd : d.SameTexts draws) (invitationId shareId password : String)
    (acceptedBy deviceId : Option String) : Ends crypto store draws (.acceptTicket shareId password acceptedBy deviceId)
      (store.addMemberSession crypto d invitationId acceptedBy deviceId) := by
  unfold addMemberSession
  split
  · exact .quiet _
  · rename_i invitation hget
    split_ifs with hrevoked hexpired haccepted
    · exact .quiet _
    · exact .quiet _
    · exact acceptByInvitationId_ends hd.afterReading invitationId acceptedBy deviceId
    · exact .edited _ hget (.newSession hd (Option.isSome_iff_ne_none.2 fun h => haccepted (by simp [h])))

theorem acceptTicket_ends (shareId password : String) (acceptedBy deviceId : Option String) :
    Ends crypto store draws (.acceptTicket shareId password acceptedBy deviceId)
      (store.acceptTicket crypto draws shareId password acceptedBy deviceId) := by
  have hd : draws.afterReading.SameTexts draws := (Draws.SameTexts.refl draws).afterReading
  unfold acceptTicket
  simp only
  split
  · exact .quiet _
  split
  · exact .quiet _
  split
  · exact .quiet _
  rename_i invitation hget
  split
  · exact .quiet _
  split
  · exact .edited _ hget (.failedAccept _)
  split
  · exact addMemberSession_ends hd _ shareId password acceptedBy deviceId
  · exact acceptByInvitationId_ends hd _ acceptedBy deviceId

theorem resetShareTicket_ends :
    Ends crypto store draws (.resetShareTicket invitationId) (store.resetShareTicket crypto draws invitationId) := by
  unfold resetShareTicket
  split
  · exact .quiet _
  rename_i invitation hget
  split
  · exact .quiet _
  · exact .edited _ hget (.ticketReset _)

theorem ensureMemberBrowserSession_ends (deviceId csrfToken : Option String) :
    Ends crypto store draws (.ensureMemberBrowserSession invitationId deviceId csrfToken)
      (store.ensureMemberBrowserSession crypto draws invitationId deviceId csrfToken) := by
  unfold ensureMemberBrowserSession
  split
  · exact .quiet _
  rename_i invitation hget
  iterate 3
    split
    · exact .quiet _
  rename_i hexpired
  split
  · split
    · exact .quiet _
    · exact .edited _ hget (.browserDevice _)
  · rename_i hnone
    exact .edited _ hget (.browserSession _ _ hget (Int.not_le.1 hexpired) hnone)

theorem acquireControllerLease_ends (input : LeaseInput) :
    Ends crypto store draws (.acquireControllerLease input) (store.acquireControllerLease draws input) := by
  unfold acquireControllerLease
  split
  · exact .quiet _
  rename_i invitation hget
  split_ifs with hrevoked haccepted hexpired
  · exact .quiet _
  · exact .quiet _
  · exact .quiet _
  simp only
  split
  · exact .quiet _
  split
  · exact .quiet _
  · exact .edited _ hget (.lease _)

theorem requestGrants_ends (input : GrantRequestInput) :
    Ends crypto store draws (.requestGrants input) (store.requestGrants draws input) := by
  unfold requestGrants
  split
  · exact .quiet _
  rename_i invitation hget
  iterate 3
    split
    · exact .quiet _
  rename_i hrevoked haccepted hexpired
  simp only
  iterate 3
    split
    · exact .quiet _
  rename_i hpending _ hcooldown
  refine .edited _ hget (.request input _ hget ?_)
  have hjoined : invitation.acceptedAt.isSome = true := by simpa [Option.isSome_iff_ne_none] using haccepted
  rw [Option.not_isSome_iff_eq_none] at hrevoked hpending
  unfold admitsRequest
  simp only
  rw [hrevoked, hjoined, hpending, hcooldown]
  simp [hexpired]

theorem resolveGrantRequest_ends (invitationId requestId : String) (approve : Bool) :
    Ends crypto store draws (.resolveGrantRequest invitationId requestId approve)
      (store.resolveGrantRequest draws invitationId requestId approve) := by
  unfold resolveGrantRequest
  split
  · exact .quiet _
  rename_i invitation hget
  iterate 2
    split
    · exact .quiet _
  rename_i hrevoked hexpired
  simp only
  split
  · exact .quiet _
  rename_i request hfound
  split
  · exact .quiet _
  rename_i hpending
  cases approve with
  | true =>
    refine .policy _ hget ?_ (.approved _ request hget hfound)
    rw [Option.not_isSome_iff_eq_none] at hrevoked
    simp [advancesVersion, hget, hrevoked, hexpired, hfound, not_not.1 hpending]
  | false => exact .edited _ hget (.denied _ request hget hfound)

theorem revoke_ends : Ends crypto store draws (.revoke invitationId) (store.revoke draws invitationId) := by
  unfold revoke
  split
  · exact .quiet _
  rename_i invitation hget
  split_ifs with hrevoked
  · exact .quiet _
  · exact .policy _ hget (by simp [advancesVersion, hget, Option.not_isSome_iff_eq_none.1 hrevoked]) (.revoked _)

theorem outcome_ends (crypto : TokenCrypto) (store : InvitationStore) (draws : Draws) (op : InvitationOp) :
    Ends crypto store draws op (store.outcome crypto draws op) := by
  cases op with
  | create input => exact create_ends input
  | accept token acceptedBy deviceId => exact accept_ends token acceptedBy deviceId
  | acceptTicket shareId password acceptedBy deviceId => exact acceptTicket_ends shareId password acceptedBy deviceId
  | resetShareTicket invitationId => exact resetShareTicket_ends invitationId
  | ensureMemberBrowserSession invitationId deviceId csrfToken =>
    exact ensureMemberBrowserSession_ends invitationId deviceId csrfToken
  | acquireControllerLease input => exact acquireControllerLease_ends input
  | requestGrants input => exact requestGrants_ends input
  | resolveGrantRequest invitationId requestId approve => exact resolveGrantRequest_ends invitationId requestId approve
  | revoke invitationId => exact revoke_ends invitationId

end InvitationStore

def plainCrypto : TokenCrypto := ⟨id, fun password salt => password ++ salt⟩

/-- Draws at time zero under one name. -/
def Draws.named (name : String) : Draws := ⟨fun _ => 0, fun _ => name, fun _ => name, fun _ => name, name⟩

def taskShare (grants : List ShareGrant) : InvitationStore.CreateInput := ⟨"node-1", some (.task "node-1" "task-1"), grants, none, false, none⟩

end Kookr.Relay
