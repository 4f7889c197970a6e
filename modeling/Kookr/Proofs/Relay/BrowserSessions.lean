import Kookr.Sanity.Relay.StoreIndexes

/-! The browser sessions of several devices on one invitation. A joining member gets a token of the session list, but
`ensureMemberBrowserSession` writes the one hash of the record itself: the token it hands out stands until the next one. -/

namespace Kookr.Relay

open Kookr.Lib InvitationStore RelayState List

inductive BrowserOp where
  | acceptTicket (shareId password : String) (acceptedBy deviceId : Option String)
  | ensureMemberBrowserSession (invitationId : String) (deviceId csrfToken : Option String)

def BrowserOp.op : BrowserOp → InvitationOp
  | .acceptTicket shareId password acceptedBy deviceId => .acceptTicket shareId password acceptedBy deviceId
  | .ensureMemberBrowserSession invitationId deviceId csrfToken =>
    .ensureMemberBrowserSession invitationId deviceId csrfToken

/-- A call made for a device. -/
structure BrowserCall where
  device : String
  op : BrowserOp
  draws : Draws
  saveThrows : Bool

/-- The relay, the CSRF token of the invitation that each device got last, and the memberships of it that were handed out. -/
structure Browsers where
  relay : RelayState
  latest : OrderedMap String String
  issued : List AcceptedInvitation

/-- The CSRF token that an answer brings for the invitation. -/
def returnedToken (invitationId : String) : Except StoreFault Reply → Option String
  | .ok (.accepted accepted) => if accepted.invitation.invitationId = invitationId then some accepted.csrfToken else none
  | .ok (.browserSession invitation csrfToken _) =>
    if invitation.invitationId = invitationId then some csrfToken else none
  | _ => none

/-- The membership of the invitation that an answer hands out. -/
def issuedBy (invitationId : String) : Except StoreFault Reply → List AcceptedInvitation
  | .ok (.accepted accepted) => if accepted.invitation.invitationId = invitationId then [accepted] else []
  | _ => []

namespace Browsers

def next (crypto : TokenCrypto) (invitationId : String) (browsers : Browsers) (call : BrowserCall) : Browsers :=
  let outcome := browsers.relay.store.outcome crypto call.draws call.op.op
  { relay := browsers.relay.settle outcome call.saveThrows
    latest := match returnedToken invitationId (answer outcome call.saveThrows) with
      | some csrfToken => browsers.latest.set call.device csrfToken
      | none => browsers.latest
    issued := browsers.issued ++ issuedBy invitationId (answer outcome call.saveThrows) }

def step (crypto : TokenCrypto) (invitationId : String) (browsers : Browsers) (call : BrowserCall) : Option Browsers :=
  some (browsers.next crypto invitationId call)

def run (crypto : TokenCrypto) (invitationId : String) (browsers : Browsers) (calls : List BrowserCall) : Browsers :=
  calls.foldl (next crypto invitationId) browsers

end Browsers

/-- A fresh token takes the place of the record's own hash only while the latest token of every other device is one of a
session. -/
def SparesOthers (crypto : TokenCrypto) (invitationId : String) (browsers : Browsers) (call : BrowserCall) : Prop :=
  match call.op with
  | .acceptTicket .. => True
  | .ensureMemberBrowserSession target _ csrfToken =>
    target = invitationId → call.saveThrows = false →
    (nonEmpty csrfToken).filter (browsers.relay.store.verifyMemberCsrfToken crypto invitationId) = none →
      ∀ invitation ∈ browsers.relay.store.invitations.get invitationId, call.draws.clock 0 < invitation.expiresAt →
        ∀ entry ∈ browsers.latest.entries, entry.1 ≠ call.device →
          crypto.hashToken entry.2 ∈ invitation.sessions.map MemberSessionRecord.csrfTokenHash

instance (crypto : TokenCrypto) (invitationId : String) (browsers : Browsers) (call : BrowserCall) :
    Decidable (SparesOthers crypto invitationId browsers call) := by
  unfold SparesOthers
  cases call.op with
  | acceptTicket _ _ _ _ => exact isTrue trivial
  | ensureMemberBrowserSession _ _ _ =>
    iterate 3 refine @instDecidableForall _ _ inferInstance ?_
    exact inferInstance

/-- The ids and tokens of the call are new, and other devices keep their tokens. -/
def BrowserSafe (crypto : TokenCrypto) (invitationId : String) (browsers : Browsers) (call : BrowserCall) : Prop :=
  Fresh crypto browsers.relay.store call.draws ∧ SparesOthers crypto invitationId browsers call

instance (crypto : TokenCrypto) (invitationId : String) (browsers : Browsers) (call : BrowserCall) :
    Decidable (BrowserSafe crypto invitationId browsers call) :=
  inferInstanceAs (Decidable (Fresh crypto browsers.relay.store call.draws ∧ SparesOthers crypto invitationId browsers call))

def InvitationRecord.csrfHashes (invitation : InvitationRecord) : List String :=
  invitation.memberCsrfTokenHash.toList ++ invitation.sessions.map MemberSessionRecord.csrfTokenHash

variable {crypto : TokenCrypto} {store : InvitationStore} {draws : Draws} {op : InvitationOp}
  {old record : InvitationRecord} {id token : String}

theorem verify_iff (hget : store.invitations.get id = some record) :
    store.verifyMemberCsrfToken crypto id token = true ↔ crypto.hashToken token ∈ record.csrfHashes := by
  unfold verifyMemberCsrfToken
  rw [hget]
  simp only [any_eq_true, decide_eq_true_eq]
  constructor
  · rintro ⟨hash, hmem, rfl⟩
    exact hmem
  · exact fun hmem => ⟨_, hmem, rfl⟩

/-- The session that a membership is. -/
structure IsSession (crypto : TokenCrypto) (accepted : AcceptedInvitation) (session : MemberSessionRecord) : Prop where
  memberToken : session.memberTokenHash = crypto.hashToken accepted.memberToken
  csrfToken : session.csrfTokenHash = crypto.hashToken accepted.csrfToken
  memberId : accepted.invitation.memberId = some session.memberId
  deviceId : accepted.deviceId = session.deviceId

/-- The answer of a call for a device, with the record it saves. -/
inductive BrowserEnds (crypto : TokenCrypto) (store : InvitationStore) : InvitationOp → Outcome → Prop
  | refused {op : InvitationOp} (reason : Refusal) (version : ℕ) : BrowserEnds crypto store op ⟨.ok (.refused reason), version, none⟩
  | failed {shareId password : String} {acceptedBy deviceId : Option String} (reason : Refusal) (version : ℕ)
      (record : InvitationRecord) : BrowserEnds crypto store (.acceptTicket shareId password acceptedBy deviceId)
        ⟨.ok (.refused reason), version, some record⟩
  | joined {op : InvitationOp} {accepted : AcceptedInvitation} {record : InvitationRecord} {session : MemberSessionRecord}
      (version : ℕ) (hid : accepted.invitation.invitationId = record.invitationId) (hmem : session ∈ record.sessions)
      (his : IsSession crypto accepted session) :
      BrowserEnds crypto store op ⟨.ok (.accepted accepted), version, some record⟩
  | renewed {op : InvitationOp} {record : InvitationRecord} {csrfToken deviceId : String} (version : ℕ)
      (hmem : crypto.hashToken csrfToken ∈ record.csrfHashes) :
      BrowserEnds crypto store op ⟨.ok (.browserSession record csrfToken deviceId), version, some record⟩
  | verified {op : InvitationOp} {record old : InvitationRecord} {key csrfToken deviceId : String} (version : ℕ)
      (hget : store.invitations.get key = some old) (hid : record.invitationId = old.invitationId)
      (hmem : crypto.hashToken csrfToken ∈ old.csrfHashes) :
      BrowserEnds crypto store op ⟨.ok (.browserSession record csrfToken deviceId), version, none⟩

theorem acceptByInvitationId_answers (acceptedBy deviceId : Option String) :
    BrowserEnds crypto store op (store.acceptByInvitationId crypto draws id acceptedBy deviceId) := by
  unfold acceptByInvitationId
  split
  · exact .refused _ _
  iterate 3
    split
    · exact .refused _ _
  exact .joined _ rfl (mem_singleton_self _) ⟨rfl, rfl, rfl, rfl⟩

theorem addMemberSession_answers (acceptedBy deviceId : Option String) :
    BrowserEnds crypto store op (store.addMemberSession crypto draws id acceptedBy deviceId) := by
  unfold addMemberSession
  split
  · exact .refused _ _
  iterate 2
    split
    · exact .refused _ _
  split
  · exact acceptByInvitationId_answers acceptedBy deviceId
  · exact .joined _ rfl (mem_append_right _ (mem_singleton_self _)) ⟨rfl, rfl, rfl, rfl⟩

theorem acceptTicket_answers (shareId password : String) (acceptedBy deviceId : Option String) :
    BrowserEnds crypto store (.acceptTicket shareId password acceptedBy deviceId)
      (store.acceptTicket crypto draws shareId password acceptedBy deviceId) := by
  unfold acceptTicket
  simp only
  split
  · exact .refused _ _
  split
  · exact .refused _ _
  split
  · exact .refused _ _
  split
  · exact .refused _ _
  split
  · exact .failed _ _ _
  split
  · exact addMemberSession_answers acceptedBy deviceId
  · exact acceptByInvitationId_answers acceptedBy deviceId

theorem ensureMemberBrowserSession_answers (deviceId csrfToken : Option String) :
    BrowserEnds crypto store op (store.ensureMemberBrowserSession crypto draws id deviceId csrfToken) := by
  unfold ensureMemberBrowserSession
  split
  · exact .refused _ _
  rename_i invitation hget
  iterate 3
    split
    · exact .refused _ _
  split
  · rename_i token htoken
    have hmem : crypto.hashToken token ∈ invitation.csrfHashes := (verify_iff hget).1 (Option.filter_eq_some_iff.1 htoken).2
    split
    · exact .verified _ hget rfl hmem
    · exact .renewed _ hmem
  · exact .renewed _ mem_cons_self

theorem browserOp_answers (crypto : TokenCrypto) (store : InvitationStore) (draws : Draws) (op : BrowserOp) :
    BrowserEnds crypto store op.op (store.outcome crypto draws op.op) := by
  cases op with
  | acceptTicket shareId password acceptedBy deviceId => exact acceptTicket_answers shareId password acceptedBy deviceId
  | ensureMemberBrowserSession invitationId deviceId csrfToken => exact ensureMemberBrowserSession_answers deviceId csrfToken

structure BrowserFrame (old record : InvitationRecord) : Prop where
  acceptedAt : record.acceptedAt = old.acceptedAt
  revokedAt : record.revokedAt = old.revokedAt
  expiresAt : record.expiresAt = old.expiresAt
  sessions : old.sessions ⊆ record.sessions

theorem BrowserFrame.refl (record : InvitationRecord) : BrowserFrame record record :=
  ⟨rfl, rfl, rfl, List.Subset.refl _⟩

theorem InvitationStore.Edit.browserFrame {op : BrowserOp} (h : Edit crypto store draws old op.op record)
    (hjoined : old.acceptedAt.isSome = true) : BrowserFrame old record := by
  generalize hop : op.op = op' at h
  cases h with
  | firstMember _ _ _ hnew =>
    rw [hnew] at hjoined
    cases hjoined
  | newSession _ _ => exact ⟨rfl, rfl, rfl, subset_append_left _ _⟩
  | failedAccept _ => exact ⟨rfl, rfl, rfl, List.Subset.refl _⟩
  | ticketReset _ => cases op <;> cases hop
  | browserDevice _ | browserSession _ _ _ _ _ => exact ⟨rfl, rfl, rfl, List.Subset.refl _⟩
  | lease _ | request _ _ _ _ | denied _ _ _ _ => cases op <;> cases hop

theorem InvitationStore.PolicyEdit.not_browserOp {op : BrowserOp} (h : PolicyEdit store draws old op.op record) : False := by
  generalize hop : op.op = op' at h
  cases h <;> cases op <;> cases hop

/-- The tokens of a record stay on it, unless its own hash gives way to a fresh one. -/
theorem InvitationStore.Edit.csrfHashes {op : BrowserOp} (h : Edit crypto store draws old op.op record)
    (hjoined : old.acceptedAt.isSome = true) : old.csrfHashes ⊆ record.csrfHashes ∨
      record.sessions = old.sessions ∧ ∃ target deviceId csrfToken,
        op = .ensureMemberBrowserSession target deviceId csrfToken ∧ store.invitations.get target = some old ∧
          draws.clock 0 < old.expiresAt ∧ (nonEmpty csrfToken).filter (store.verifyMemberCsrfToken crypto target) = none := by
  generalize hop : op.op = op' at h
  cases h with
  | firstMember _ _ _ hnew =>
    rw [hnew] at hjoined
    cases hjoined
  | newSession _ _ =>
    left
    intro hash hmem
    rcases mem_append.1 hmem with hmem | hmem
    · exact mem_append_left _ hmem
    · refine mem_append_right _ ?_
      rw [InvitationRecord.sessions, Option.getD_some, map_append]
      exact mem_append_left _ hmem
  | failedAccept _ => exact .inl (List.Subset.refl _)
  | ticketReset _ => cases op <;> cases hop
  | browserDevice _ => exact .inl (List.Subset.refl _)
  | @browserSession target deviceId csrfToken _ _ hget hlive hnone =>
    right
    cases op with
    | acceptTicket _ _ _ _ => cases hop
    | ensureMemberBrowserSession _ _ _ =>
      cases hop
      exact ⟨rfl, target, deviceId, csrfToken, rfl, hget, hlive, hnone⟩
  | lease _ | request _ _ _ _ | denied _ _ _ _ => cases op <;> cases hop

def InvitationRecord.memberHashes (invitation : InvitationRecord) : List String :=
  invitation.sessions.map MemberSessionRecord.memberTokenHash

def Distinct (state : RelayState) : Prop :=
  ∀ id r, state.store.invitations.get id = some r → r.memberHashes.Nodup

theorem InvitationStore.Edit.memberHashes_nodup (h : Edit crypto store draws old op record) (hold : old.memberHashes.Nodup)
    (hfresh : crypto.hashToken (draws.token "kookr_member_v1" 0) ∉ old.memberHashes) : record.memberHashes.Nodup := by
  cases h with
  | firstMember _ _ _ _ => exact nodup_singleton _
  | @newSession _ _ acceptedBy deviceId d hd _ =>
    have hhash : (InvitationStore.newSession crypto d acceptedBy deviceId).memberTokenHash =
        crypto.hashToken (draws.token "kookr_member_v1" 0) := by
      rw [← hd.token]
      rfl
    unfold InvitationRecord.memberHashes
    rw [InvitationRecord.sessions, Option.getD_some, map_append, map_singleton, hhash]
    refine nodup_append.2 ⟨hold, nodup_singleton _, fun a ha b hb => ?_⟩
    rw [mem_singleton.1 hb]
    exact fun heq => hfresh (heq ▸ ha)
  | failedAccept _ | ticketReset _ | browserDevice _ | browserSession _ _ _ _ _ | lease _ | request _ _ _ _ | denied _ _ _ _ => exact hold

theorem InvitationStore.PolicyEdit.memberHashes (h : PolicyEdit store draws old op record) :
    record.memberHashes = old.memberHashes := by
  cases h <;> rfl

section

variable {state : RelayState} {outcome : Outcome} {saveThrows : Bool}

theorem Mirrored.fresh_memberToken (h : Mirrored state) (hfresh : Fresh crypto state.store draws)
    (hget : state.store.invitations.get id = some old) :
    crypto.hashToken (draws.token "kookr_member_v1" 0) ∉ old.memberHashes := by
  intro hmem
  obtain ⟨row, hrow, hnorm⟩ := h.row_of_get hget
  refine (h.members.none_iff _).1 hfresh.memberToken id row hrow ?_
  rw [(same_keys hnorm).2.2.2.1]
  exact mem_append_right _ hmem

theorem get_settle_cases (hget : (state.settle outcome saveThrows).store.invitations.get id = some record) :
    state.store.invitations.get id = some record ∨ outcome.saves = some record := by
  obtain ⟨answer, policyVersion, saves⟩ := outcome
  cases saves with
  | none => exact .inl hget
  | some saved =>
    cases saveThrows with
    | true => exact .inl hget
    | false =>
      have hset : (state.store.invitations.set saved.invitationId saved).get id = some record := hget
      rw [OrderedMap.get_set] at hset
      split at hset
      · exact .inr hset
      · exact .inl hset

theorem Distinct.settle (h : Distinct state) (hmirrored : Mirrored state) (hfresh : Fresh crypto state.store draws)
    (hends : Ends crypto state.store draws op outcome) : Distinct (state.settle outcome saveThrows) := by
  intro id r hget
  rcases get_settle_cases hget with hget | hsaves
  · exact h id r hget
  · cases hends with
    | quiet _ | noDate _ _ _ _ => cases hsaves
    | created _ _ _ _ _ _ _ =>
      cases hsaves
      exact nodup_nil
    | edited _ hold hedit =>
      cases hsaves
      exact hedit.memberHashes_nodup (h _ _ hold) (hmirrored.fresh_memberToken hfresh hold)
    | policy _ hold _ hedit =>
      cases hsaves
      rw [hedit.memberHashes]
      exact h _ _ hold

theorem Distinct.restart (h : Distinct state) (hmirrored : Mirrored state) : Distinct (state.next crypto .restart) := by
  intro id r hget
  have hload : (state.rows.get id).map normalizeInvitationRecord = some r := (get_load hmirrored.self id).symm.trans hget
  have hagree := hmirrored.agrees id
  rw [hload] at hagree
  obtain ⟨old, hold, rfl⟩ := Option.map_eq_some_iff.1 hagree
  exact h id old hold

end

/-- A call with new ids and tokens. -/
def DrawsFresh (crypto : TokenCrypto) (state : RelayState) : RelayEvent → Prop
  | .call _ draws _ => Fresh crypto state.store draws
  | .restart => True

instance (crypto : TokenCrypto) (state : RelayState) : (event : RelayEvent) → Decidable (DrawsFresh crypto state event)
  | .call _ draws _ => inferInstanceAs (Decidable (Fresh crypto state.store draws))
  | .restart => isTrue trivial

theorem run_mirrored_distinct {past : List RelayEvent} (hfresh : StepsMeet (step crypto) (DrawsFresh crypto) .start past) :
    Mirrored (run crypto .start past) ∧ Distinct (run crypto .start past) := by
  have hstart : Mirrored start ∧ Distinct start := ⟨.start, fun id r h => by cases h⟩
  have hstep : ∀ state event state', Mirrored state ∧ Distinct state → DrawsFresh crypto state event →
      step crypto state event = some state' → Mirrored state' ∧ Distinct state' := by
    intro state event state' h hfresh hstep
    cases hstep
    cases event with
    | call op draws saveThrows =>
      have hends := outcome_ends crypto state.store draws op
      exact ⟨h.1.settle hfresh hends saveThrows, h.2.settle h.1 hfresh hends⟩
    | restart => exact ⟨h.1.restart, h.2.restart h.1⟩
  exact exec_invariant hstep hstart hfresh (exec_step crypto .start past)

/-- The record serves every device that has a token of it, and every membership that was handed out. -/
structure Serves (crypto : TokenCrypto) (start : InvitationRecord) (browsers : Browsers) (record : InvitationRecord) : Prop where
  acceptedAt : record.acceptedAt.isSome = true
  revokedAt : record.revokedAt = none
  expiresAt : record.expiresAt = start.expiresAt
  sessions : start.sessions ⊆ record.sessions
  latest : ∀ device token, browsers.latest.get device = some token → crypto.hashToken token ∈ record.csrfHashes
  issued : ∀ accepted ∈ browsers.issued, ∃ session ∈ record.sessions, IsSession crypto accepted session

structure Kept (crypto : TokenCrypto) (invitationId : String) (start : InvitationRecord) (browsers : Browsers) : Prop where
  mirrored : Mirrored browsers.relay
  distinct : Distinct browsers.relay
  serves : ∃ record, browsers.relay.store.invitations.get invitationId = some record ∧ Serves crypto start browsers record

variable {start : InvitationRecord} {browsers : Browsers} {call : BrowserCall}

/-- A token or a membership that comes back belongs to the record as it is after the call. -/
theorem returned_mem {outcome : Outcome} {saveThrows : Bool} (hpaired : Paired browsers.relay)
    (hanswers : BrowserEnds crypto browsers.relay.store op outcome) (hget : browsers.relay.store.invitations.get id = some old)
    (hcases : record = old ∧ (saveThrows = false → ∀ r, outcome.saves = some r → r.invitationId ≠ id) ∨
      saveThrows = false ∧ outcome.saves = some record) :
    (∀ token, returnedToken id (answer outcome saveThrows) = some token → crypto.hashToken token ∈ record.csrfHashes) ∧
      ∀ accepted ∈ issuedBy id (answer outcome saveThrows), ∃ session ∈ record.sessions, IsSession crypto accepted session := by
  -- an answer that saves a record of this invitation is about the record that is there now
  have hsaved : ∀ r, saveThrows = false → outcome.saves = some r → r.invitationId = id → r = record := by
    intro r hthrows hsaves hid
    rcases hcases with ⟨_, hother⟩ | ⟨_, hown⟩
    · exact absurd hid (hother hthrows r hsaves)
    · exact Option.some.inj (hsaves.symm.trans hown)
  cases hanswers with
  | refused _ _ => exact ⟨fun _ h => (by cases h), fun _ h => (by cases h)⟩
  | failed _ _ _ => cases saveThrows <;> exact ⟨fun _ h => (by cases h), fun _ h => (by cases h)⟩
  | @joined _ accepted saved session _ hid hmem his =>
    cases saveThrows with
    | true => exact ⟨fun _ h => (by cases h), fun _ h => (by cases h)⟩
    | false =>
      by_cases hown : accepted.invitation.invitationId = id
      · obtain rfl := hsaved saved rfl rfl (hid.symm.trans hown)
        refine ⟨fun token htoken => ?_, fun accepted' haccepted => ?_⟩
        · have heq : accepted.csrfToken = token := by simpa [answer, returnedToken, hown] using htoken
          rw [← heq, ← his.csrfToken]
          exact mem_append_right _ (mem_map_of_mem hmem)
        · have heq : accepted' = accepted := by simpa [answer, issuedBy, hown] using haccepted
          exact ⟨session, hmem, heq ▸ his⟩
      · refine ⟨fun token htoken => ?_, fun accepted' haccepted => ?_⟩
        · simp [answer, returnedToken, hown] at htoken
        · simp [answer, issuedBy, hown] at haccepted
  | @renewed _ saved csrfToken _ _ hmem =>
    cases saveThrows with
    | true => exact ⟨fun _ h => (by cases h), fun _ h => (by cases h)⟩
    | false =>
      refine ⟨fun token htoken => ?_, fun _ h => (by cases h)⟩
      have hboth : saved.invitationId = id ∧ csrfToken = token := by simpa [answer, returnedToken] using htoken
      obtain rfl := hsaved saved rfl rfl hboth.1
      exact hboth.2 ▸ hmem
  | @verified _ updated found key csrfToken _ _ hfound hid hmem =>
    refine ⟨fun token htoken => ?_, fun _ h => (by cases h)⟩
    have hboth : updated.invitationId = id ∧ csrfToken = token := by simpa [answer, returnedToken] using htoken
    have hkey : key = id := (hpaired.invitationId_eq hfound).symm.trans (hid.symm.trans hboth.1)
    rcases hcases with ⟨rfl, _⟩ | ⟨_, hsaves⟩
    · subst hkey
      obtain rfl : found = record := Option.some.inj (hfound.symm.trans hget)
      exact hboth.2 ▸ hmem
    · cases hsaves

/-- A saved call of `ensureMemberBrowserSession` returns a token of the record it saves. -/
theorem returnedToken_of_ensure {outcome : Outcome} {target : String} {deviceId csrfToken : Option String}
    (hanswers : BrowserEnds crypto store (.ensureMemberBrowserSession target deviceId csrfToken) outcome)
    (hsaves : outcome.saves = some record) (hid : record.invitationId = id) :
    (returnedToken id (answer outcome false)).isSome = true := by
  cases hanswers with
  | refused _ _ => cases hsaves
  | joined _ hsame _ _ =>
    cases hsaves
    simp [answer, returnedToken, hsame.trans hid]
  | renewed _ _ =>
    cases hsaves
    simp [answer, returnedToken, hid]
  | verified _ _ _ _ => cases hsaves

/-- One call of any device keeps every other device's token and every membership. -/
theorem Kept.next (h : Kept crypto id start browsers) (hsafe : BrowserSafe crypto id browsers call) :
    Kept crypto id start (browsers.next crypto id call) := by
  obtain ⟨hfresh, hspares⟩ := hsafe
  obtain ⟨old, hget, hserves⟩ := h.serves
  have hends := outcome_ends crypto browsers.relay.store call.draws call.op.op
  have hanswers := browserOp_answers crypto browsers.relay.store call.draws call.op
  obtain ⟨record, hrecord, hcases⟩ := h.mirrored.toPaired.get_settle hfresh.invitationId hends call.saveThrows hget
  refine ⟨h.mirrored.settle hfresh hends call.saveThrows, h.distinct.settle h.mirrored hfresh hends, record, hrecord, ?_⟩
  obtain ⟨htoken, hissued⟩ := returned_mem h.mirrored.toPaired hanswers hget
    (hcases.imp_right fun hsaved => ⟨hsaved.1, hsaved.2.1⟩)
  have hframe : BrowserFrame old record := by
    rcases hcases with ⟨rfl, _⟩ | ⟨_, _, hedit | hedit⟩
    · exact .refl _
    · exact hedit.browserFrame hserves.acceptedAt
    · exact hedit.not_browserOp.elim
  have hid : record.invitationId = id := (h.mirrored.settle hfresh hends call.saveThrows).invitationId_eq hrecord
  -- what a device had before the call, it still has, if it is another device or got nothing
  have hkept : ∀ device token, browsers.latest.get device = some token → (device ≠ call.device ∨
      returnedToken id (answer (browsers.relay.store.outcome crypto call.draws call.op.op) call.saveThrows) = none) →
        crypto.hashToken token ∈ record.csrfHashes := by
    intro device token hlatest hother
    have hold : crypto.hashToken token ∈ old.csrfHashes := hserves.latest device token hlatest
    rcases hcases with ⟨rfl, _⟩ | ⟨hthrows, hsaves, hedit | hedit⟩
    · exact hold
    · rcases hedit.csrfHashes hserves.acceptedAt with hsubset | ⟨hsessions, target, deviceId, csrfToken, hop, htarget, hlive, hnone⟩
      · exact hsubset hold
      · have hkey : target = id :=
          (h.mirrored.invitationId_eq htarget).symm.trans (h.mirrored.invitationId_eq hget)
        rw [hop] at hanswers hother hsaves
        rw [hthrows] at hother
        rcases hother with hne | hgot
        · unfold SparesOthers at hspares
          rw [hop] at hspares
          have hmem : (device, token) ∈ browsers.latest.entries := (OrderedMap.get_eq_some_iff _ _ _).1 hlatest
          have hsession := hspares hkey hthrows (hkey ▸ hnone) old hget hlive (device, token) hmem hne
          unfold InvitationRecord.csrfHashes
          rw [hsessions]
          exact mem_append_right _ hsession
        · have hsome := returnedToken_of_ensure hanswers hsaves hid
          rw [show returnedToken id _ = none from hgot] at hsome
          cases hsome
    · exact hedit.not_browserOp.elim
  refine ⟨?_, ?_, ?_, ?_, ?_, ?_⟩
  · rw [hframe.acceptedAt]
    exact hserves.acceptedAt
  · rw [hframe.revokedAt]
    exact hserves.revokedAt
  · rw [hframe.expiresAt]
    exact hserves.expiresAt
  · exact fun session hmem => hframe.sessions (hserves.sessions hmem)
  · intro device token hlatest
    unfold Browsers.next at hlatest
    simp only at hlatest
    split at hlatest
    · rename_i csrfToken hreturned
      rcases OrderedMap.get_set_some hlatest with ⟨-, rfl⟩ | ⟨hne, hlatest⟩
      · exact htoken _ hreturned
      · exact hkept device token hlatest (.inl (Ne.symm hne))
    · rename_i hreturned
      exact hkept device token hlatest (.inr hreturned)
  · intro accepted hmem
    rcases mem_append.1 hmem with hmem | hmem
    · obtain ⟨session, hsession, his⟩ := hserves.issued accepted hmem
      exact ⟨session, hframe.sessions hsession, his⟩
    · exact hissued accepted hmem

theorem Kept.run (h : Kept crypto id start browsers) {calls : List BrowserCall}
    (hsafe : StepsMeet (Browsers.step crypto id) (BrowserSafe crypto id) browsers calls) :
    Kept crypto id start (browsers.run crypto id calls) := by
  induction calls generalizing browsers with
  | nil => exact h
  | cons call calls ih => exact ih (h.next hsafe.1) (hsafe.2 _ rfl)

theorem authenticateMember_of_session {state : RelayState} (h : Mirrored state) (hdistinct : Distinct state)
    (hget : state.store.invitations.get id = some record) (haccepted : record.acceptedAt.isSome = true)
    (hrevoked : record.revokedAt = none) {now : ℤ} (hlive : now < record.expiresAt) {session : MemberSessionRecord}
    (hsession : session ∈ record.sessions) (htoken : crypto.hashToken token = session.memberTokenHash) :
    ∃ r, state.store.authenticateMember crypto token now = some r ∧ r.invitationId = id ∧
      r.memberId = some session.memberId ∧ r.memberDeviceId = some session.deviceId := by
  obtain ⟨row, hrow, hnorm⟩ := h.row_of_get hget
  have hindex : state.store.memberTokenIndex session.memberTokenHash = some id := by
    refine (h.members _ _).2 ⟨row, hrow, ?_⟩
    rw [(same_keys hnorm).2.2.2.1]
    exact mem_append_right _ (mem_map_of_mem hsession)
  have hfind := find_key_eq_some (hdistinct id record hget) hsession
  have hid : record.invitationId = id := h.invitationId_eq hget
  refine ⟨withMemberSession record (some session), ?_, hid, rfl, rfl⟩
  unfold authenticateMember findInvitationAndSessionByMemberToken
  simp only [htoken, hindex, Option.bind_some, hget, Option.map_some, hfind]
  have hdead : ¬record.expiresAt ≤ now := by omega
  simp [hrevoked, hdead, Option.isSome_iff_ne_none.1 haccepted]

/-- Over every run of calls for devices in which a fresh token replaces no other device's, the last token of every device
passes, and every member token, of the sessions that were there and of those handed out, authenticates to its own session. -/
theorem browser_sessions_kept (crypto : TokenCrypto) (past : List RelayEvent)
    (hpast : StepsMeet (step crypto) (DrawsFresh crypto) .start past) (id : String) (start : InvitationRecord)
    (hget : (run crypto .start past).store.invitations.get id = some start)
    (haccepted : start.acceptedAt.isSome = true) (hrevoked : start.revokedAt = none) (calls : List BrowserCall)
    (hsafe : StepsMeet (Browsers.step crypto id) (BrowserSafe crypto id) ⟨run crypto .start past, .empty, []⟩ calls) :
    let browsers := Browsers.run crypto id ⟨run crypto .start past, .empty, []⟩ calls
    (∀ device token, browsers.latest.get device = some token →
      browsers.relay.store.verifyMemberCsrfToken crypto id token = true) ∧
    (∀ session ∈ start.sessions, ∀ token, crypto.hashToken token = session.memberTokenHash → ∀ now < start.expiresAt,
      ∃ r, browsers.relay.store.authenticateMember crypto token now = some r ∧ r.invitationId = id ∧
        r.memberId = some session.memberId ∧ r.memberDeviceId = some session.deviceId) ∧
    ∀ accepted ∈ browsers.issued, ∀ now < start.expiresAt,
      ∃ r, browsers.relay.store.authenticateMember crypto accepted.memberToken now = some r ∧ r.invitationId = id ∧
        r.memberId = accepted.invitation.memberId ∧ r.memberDeviceId = some accepted.deviceId := by
  intro browsers
  obtain ⟨hmirrored, hdistinct⟩ := run_mirrored_distinct hpast
  have hstart : Kept crypto id start ⟨run crypto .start past, .empty, []⟩ :=
    ⟨hmirrored, hdistinct, start, hget, haccepted, hrevoked, rfl, List.Subset.refl _, fun _ _ h => (by cases h),
      fun _ h => (by cases h)⟩
  have hkept : Kept crypto id start browsers := hstart.run hsafe
  obtain ⟨record, hrecord, hserves⟩ := hkept.serves
  refine ⟨fun device token hlatest => (verify_iff hrecord).2 (hserves.latest device token hlatest), ?_, ?_⟩
  · intro session hsession token htoken now hnow
    exact authenticateMember_of_session hkept.mirrored hkept.distinct hrecord hserves.acceptedAt hserves.revokedAt
      (hserves.expiresAt ▸ hnow) (hserves.sessions hsession) htoken
  · intro accepted hmem now hnow
    obtain ⟨session, hsession, his⟩ := hserves.issued accepted hmem
    rw [his.memberId, his.deviceId]
    exact authenticateMember_of_session hkept.mirrored hkept.distinct hrecord hserves.acceptedAt hserves.revokedAt
      (hserves.expiresAt ▸ hnow) hsession his.memberToken.symm

def takenTicket : List RelayEvent :=
  [.call (.create { taskShare [.view] with shareTicket := true })
      { Draws.named "a" with shareId := fun _ => "123456", password := "secret" } false,
    .call (.acceptTicket "123456" "secret" none (some "desk")) (.named "b") false]

def BrowserCall.joins (device name : String) : BrowserCall :=
  ⟨device, .acceptTicket "123456" "secret" none (some device), .named name, false⟩

def BrowserCall.ensures (device name : String) (csrfToken : Option String) : BrowserCall :=
  ⟨device, .ensureMemberBrowserSession "inv-a" (some device) csrfToken, .named name, false⟩

def twoDevices : List BrowserCall :=
  [.joins "phone" "c", .joins "laptop" "d", .ensures "phone" "e" (some "kookr_csrf_v1_c"), .ensures "laptop" "f" none]

theorem takenTicket_is_there : ((run plainCrypto .start takenTicket).store.invitations.get "inv-a").isSome = true := by
  decide +kernel

theorem browser_sessions_kept_twoDevices :
    let browsers := Browsers.run plainCrypto "inv-a" ⟨run plainCrypto .start takenTicket, .empty, []⟩ twoDevices
    ∀ device token, browsers.latest.get device = some token →
      browsers.relay.store.verifyMemberCsrfToken plainCrypto "inv-a" token = true :=
  (browser_sessions_kept plainCrypto takenTicket (by decide +kernel) "inv-a" (Option.get _ takenTicket_is_there)
    (Option.some_get takenTicket_is_there).symm (by decide +kernel) (by decide +kernel) twoDevices (by decide +kernel)).1

/-- Two devices without a valid token: the second one's fresh token takes the place of the first one's. -/
theorem second_device_evicts_first :
    let browsers := Browsers.run plainCrypto "inv-a" ⟨run plainCrypto .start takenTicket, .empty, []⟩
      [.ensures "phone" "c" none, .ensures "laptop" "d" none]
    browsers.latest.get "phone" = some "kookr_csrf_v1_c" ∧
      browsers.relay.store.verifyMemberCsrfToken plainCrypto "inv-a" "kookr_csrf_v1_c" = false := by
  decide +kernel

variable {state : RelayState}

/-- The record of a revoked invitation, later: revoked at the same time, known to the same node, with the members it had. -/
structure StaysRevoked (old record : InvitationRecord) : Prop where
  revokedAt : record.revokedAt = old.revokedAt
  nodeId : record.nodeId = old.nodeId
  grantId : record.grantId = old.grantId
  memberKeys : old.memberKeys ⊆ record.memberKeys

theorem StaysRevoked.trans {r s t : InvitationRecord} (h : StaysRevoked r s) (h' : StaysRevoked s t) : StaysRevoked r t :=
  ⟨h'.revokedAt.trans h.revokedAt, h'.nodeId.trans h.nodeId, h'.grantId.trans h.grantId, List.Subset.trans h.memberKeys h'.memberKeys⟩

theorem revoke_saves {k : String} (hsaves : (store.revoke draws k).saves = some record) :
    ∃ found, store.invitations.get k = some found ∧ found.revokedAt = none ∧ record.invitationId = found.invitationId := by
  unfold revoke at hsaves
  split at hsaves
  · cases hsaves
  · rename_i found hfound
    split_ifs at hsaves with hrevoked
    cases hsaves
    exact ⟨found, hfound, Option.not_isSome_iff_eq_none.1 hrevoked, rfl⟩

theorem Mirrored.next (h : Mirrored state) (event : RelayEvent) (hfresh : DrawsFresh crypto state event) :
    Mirrored (state.next crypto event) := by
  cases event with
  | call op draws saveThrows => exact h.settle hfresh (outcome_ends crypto state.store draws op) saveThrows
  | restart => exact h.restart

theorem authenticateMember_found (h : Paired state) {now : ℤ} {r : InvitationRecord}
    (hr : state.store.authenticateMember crypto token now = some r) :
    state.store.memberTokenIndex (crypto.hashToken token) = some r.invitationId ∧
      ∃ found, state.store.invitations.get r.invitationId = some found ∧ found.revokedAt = none := by
  unfold authenticateMember at hr
  split at hr
  · cases hr
  · rename_i found session hfind
    obtain ⟨invitation, hinvitation, heq⟩ := Option.map_eq_some_iff.1 hfind
    obtain ⟨key, hkey, hget⟩ := Option.bind_eq_some_iff.1 hinvitation
    obtain rfl : invitation = found := congrArg Prod.fst heq
    split_ifs at hr with hrefused
    have hid : r.invitationId = key := by
      rw [← Option.some.inj hr, ← h.invitationId_eq hget]
      cases session <;> rfl
    simp only [Bool.or_eq_true, not_or, Bool.not_eq_true, Option.isSome_eq_false_iff, Option.isNone_iff_eq_none] at hrefused
    exact ⟨hid ▸ hkey, invitation, hid ▸ hget, hrefused.1.2⟩

theorem Mirrored.staysRevoked (h : Mirrored state) (hget : state.store.invitations.get id = some old)
    (hrevoked : old.revokedAt.isSome = true) (event : RelayEvent) (hfresh : DrawsFresh crypto state event) :
    ∃ record, (state.next crypto event).store.invitations.get id = some record ∧ StaysRevoked old record := by
  cases event with
  | restart =>
    obtain ⟨row, hrow, hnorm⟩ := h.row_of_get hget
    refine ⟨normalizeInvitationRecord old, ?_, rfl, rfl, rfl, fun _ hkey => hkey⟩
    rw [← hnorm]
    exact (get_load h.self id).trans (congrArg _ hrow)
  | call op draws saveThrows =>
    have hends := outcome_ends crypto state.store draws op
    obtain ⟨record, hrecord, ⟨rfl, -⟩ | ⟨-, hsaves, hedit | hedit⟩⟩ := h.get_settle hfresh.invitationId hends saveThrows hget
    · exact ⟨record, hrecord, rfl, rfl, rfl, fun _ hkey => hkey⟩
    · have hmembers := hedit.memberKeys_subset (h.unjoined_of_get hget)
      refine ⟨record, hrecord, ?_, ?_, ?_, hmembers⟩ <;> cases hedit <;> rfl
    · refine ⟨record, hrecord, ?_⟩
      have hid := hedit.invitationId
      cases hedit with
      | approved _ _ _ _ => exact ⟨rfl, rfl, rfl, fun _ hkey => hkey⟩
      | revoked _ =>
        -- a second revocation saves nothing
        obtain ⟨found, hfound, hnone, hfoundId⟩ := revoke_saves hsaves
        obtain rfl := (h.invitationId_eq hfound).symm.trans (hfoundId.symm.trans (hid.trans (h.invitationId_eq hget)))
        rw [Option.some.inj (hget.symm.trans hfound), hnone] at hrevoked
        cases hrevoked

/-- A revocation is final: whatever is called or restarted afterwards, the node is told to drop the grant, no token of a
member of the invitation authenticates, and what a member asks of it is refused. -/
theorem revocation_final (crypto : TokenCrypto) (past later : List RelayEvent)
    (hfresh : StepsMeet (step crypto) (DrawsFresh crypto) .start (past ++ later)) (id : String) (old : InvitationRecord)
    (hget : (run crypto .start past).store.invitations.get id = some old) (hrevoked : old.revokedAt.isSome = true) :
    let store := (run crypto .start (past ++ later)).store
    old.grantId ∈ store.revokedGrantIdsForNode old.nodeId ∧
    (∀ token now, (crypto.hashToken token ∈ old.memberKeys → store.authenticateMember crypto token now = none) ∧
      ∀ r ∈ store.authenticateMember crypto token now, r.invitationId ≠ id) ∧
    ∀ draws, (∀ deviceId csrfToken, (store.ensureMemberBrowserSession crypto draws id deviceId csrfToken).answer =
        .ok (.refused .revoked)) ∧
      (∀ input : LeaseInput, input.invitationId = id → (store.acquireControllerLease draws input).answer = .ok (.refused .revoked)) ∧
      (∀ input : GrantRequestInput, input.invitationId = id → (store.requestGrants draws input).answer = .ok (.refused .revoked)) ∧
      ∀ requestId approve, (store.resolveGrantRequest draws id requestId approve).answer = .ok (.refused .revoked) := by
  intro store
  have hmirrored := (run_mirrored_distinct hfresh).1
  obtain ⟨hpast, hlater⟩ := hfresh.append (exec_step crypto .start past)
  have hstep : ∀ state event state', (Mirrored state ∧ ∃ r, state.store.invitations.get id = some r ∧ StaysRevoked old r) →
      DrawsFresh crypto state event → step crypto state event = some state' →
      Mirrored state' ∧ ∃ r, state'.store.invitations.get id = some r ∧ StaysRevoked old r := by
    rintro state event state' ⟨h, r, hr, hstays⟩ hok hnext
    cases hnext
    obtain ⟨record, hrecord, hstays'⟩ := h.staysRevoked hr (hstays.revokedAt ▸ hrevoked) event hok
    exact ⟨h.next event hok, record, hrecord, hstays.trans hstays'⟩
  have hstart : Mirrored (run crypto .start past) ∧
      ∃ r, (run crypto .start past).store.invitations.get id = some r ∧ StaysRevoked old r :=
    ⟨(run_mirrored_distinct hpast).1, old, hget, rfl, rfl, rfl, fun _ hkey => hkey⟩
  have hrun : run crypto (run crypto .start past) later = run crypto .start (past ++ later) := foldl_append.symm
  obtain ⟨-, r, hr, hstays⟩ := exec_invariant hstep hstart hlater (exec_step crypto _ later)
  rw [hrun] at hr
  have hdead : r.revokedAt.isSome = true := hstays.revokedAt ▸ hrevoked
  have hnot : ∀ token now, ∀ m ∈ store.authenticateMember crypto token now, m.invitationId ≠ id := by
    rintro token now m hm rfl
    obtain ⟨-, found, hfound, hnone⟩ := authenticateMember_found hmirrored.toPaired hm
    rw [Option.some.inj (hr.symm.trans hfound), hnone] at hdead
    cases hdead
  refine ⟨?_, fun token now => ⟨fun hkey => Option.eq_none_iff_forall_not_mem.2 fun m hm => ?_, hnot token now⟩, fun draws => ?_⟩
  · rw [← hstays.grantId]
    refine mem_map_of_mem (mem_filter.2 ⟨(OrderedMap.mem_values_iff _ _).2 ⟨id, hr⟩, ?_⟩)
    simp [hstays.nodeId, hdead]
  · obtain ⟨row, hrow, hnorm⟩ := hmirrored.row_of_get hr
    have hindex : store.memberTokenIndex (crypto.hashToken token) = some id :=
      (hmirrored.members _ _).2 ⟨row, hrow, (same_keys hnorm).2.2.2.1 ▸ hstays.memberKeys hkey⟩
    have hfound := (authenticateMember_found hmirrored.toPaired hm).1
    exact hnot token now m hm (Option.some.inj (hfound.symm.trans hindex))
  · refine ⟨fun _ _ => ?_, fun input hid => ?_, fun input hid => ?_, fun _ _ => ?_⟩
    · simp [ensureMemberBrowserSession, store, hr, hdead, refuse]
    · simp [acquireControllerLease, store, hid, hr, hdead, refuse]
    · simp [requestGrants, store, hid, hr, hdead, refuse]
    · simp [resolveGrantRequest, store, hr, hdead, refuse]

def revokedTicket : List RelayEvent := takenTicket ++ [.call (.revoke "inv-a") (.named "c") false]

theorem revokedTicket_is_there : ((run plainCrypto .start revokedTicket).store.invitations.get "inv-a").isSome = true := by
  decide +kernel

theorem revocation_final_revokedTicket :
    (run plainCrypto .start (revokedTicket ++ [.call (.revoke "inv-a") (.named "d") false, .restart])).store.authenticateMember
      plainCrypto "kookr_member_v1_b" 0 = none :=
  ((revocation_final plainCrypto revokedTicket [.call (.revoke "inv-a") (.named "d") false, .restart] (by decide +kernel) "inv-a"
    (Option.get _ revokedTicket_is_there) (Option.some_get revokedTicket_is_there).symm (by decide +kernel)).2.1
      "kookr_member_v1_b" 0).1 (by decide +kernel)

theorem Paired.indexes (h : Paired state) {keys : InvitationRecord → List String} {index : Index}
    (hindex : SecondaryIndex.Indexes keys index state.rows) (hkeys : ∀ r, keys (normalizeInvitationRecord r) = keys r) :
    SecondaryIndex.Indexes keys index state.store.invitations := by
  intro key id
  rw [hindex key id]
  have hsame := h.agrees id
  cases hstore : state.store.invitations.get id <;> cases hrow : state.rows.get id <;> rw [hstore, hrow] at hsame
  · cases hsame
  · cases hsame
  · have heq := congrArg keys (Option.some.inj hsame)
    rw [hkeys, hkeys] at heq
    simp [heq]

/-- In every run with fresh ids and tokens a lookup through an index finds what a scan of all invitations would find. -/
theorem lookups_scan (crypto : TokenCrypto) (past : List RelayEvent)
    (hfresh : StepsMeet (step crypto) (DrawsFresh crypto) .start past) (key : String) :
    let store := (run crypto .start past).store
    (store.invitationTokenIndex key).bind store.invitations.get = store.list.find? (fun r => key ∈ r.tokenKeys) ∧
      (store.shareIdIndex key).bind store.invitations.get = store.list.find? (fun r => key ∈ r.shareKeys) ∧
        (store.memberTokenIndex key).bind store.invitations.get = store.list.find? fun r => key ∈ r.memberKeys := by
  have h := (run_mirrored_distinct hfresh).1
  exact ⟨(h.toPaired.indexes h.tokens InvitationRecord.normalize_tokenKeys).find_values key,
    (h.toPaired.indexes h.shares InvitationRecord.normalize_shareKeys).find_values key,
    (h.toPaired.indexes h.members InvitationRecord.normalize_memberKeys).find_values key⟩

theorem lookups_scan_takenTicket :
    ((run plainCrypto .start takenTicket).store.shareIdIndex "123-456").bind (run plainCrypto .start takenTicket).store.invitations.get =
      (run plainCrypto .start takenTicket).store.list.find? fun r => "123-456" ∈ r.shareKeys :=
  (lookups_scan plainCrypto takenTicket (by decide +kernel) "123-456").2.1

end Kookr.Relay
