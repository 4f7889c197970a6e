import Kookr.Lib.ListAt
import Kookr.Sanity.Relay.StoreIndexes
import Kookr.Spec.Relay.MemberState

/-! Grant requests and their resolution as functions of the one record they are about, and what every record of a run keeps:
distinct grants and request ids, and approved requests among its grants. -/

namespace Kookr.Relay

open Kookr.Lib InvitationStore RelayState List

def AllRecords (Q : InvitationRecord → Prop) (state : RelayState) : Prop :=
  (∀ id r, state.store.invitations.get id = some r → Q r) ∧ ∀ id r, state.rows.get id = some r → Q r

namespace AllRecords

variable {Q : InvitationRecord → Prop} {state : RelayState} {outcome : Outcome} {crypto : TokenCrypto}

theorem start (Q : InvitationRecord → Prop) : AllRecords Q .start :=
  ⟨fun _ _ h => (by cases h), fun _ _ h => (by cases h)⟩

theorem settle (h : AllRecords Q state) (hsaves : ∀ r, outcome.saves = some r → Q r) (saveThrows : Bool) :
    AllRecords Q (state.settle outcome saveThrows) := by
  obtain ⟨answer, policyVersion, saves⟩ := outcome
  have hset : ∀ (m : OrderedMap String InvitationRecord) (saved : InvitationRecord), Q saved →
      (∀ id r, m.get id = some r → Q r) → ∀ id r, (m.set saved.invitationId saved).get id = some r → Q r := by
    intro m saved hsaved hm id r hget
    rw [OrderedMap.get_set] at hget
    split at hget
    · exact Option.some.inj hget ▸ hsaved
    · exact hm id r hget
  cases saves with
  | none => exact h
  | some saved =>
    cases saveThrows with
    | true => exact h
    | false => exact ⟨hset _ saved (hsaves saved rfl) h.1, hset _ saved (hsaves saved rfl) h.2⟩

theorem settle_failed (h : AllRecords Q state) : AllRecords Q (state.settle outcome true) := by
  obtain ⟨answer, policyVersion, saves⟩ := outcome
  cases saves with
  | none | some saved => exact h

theorem restart (h : AllRecords Q state) (hpaired : Paired state) (hnormal : ∀ r, Q r → Q (normalizeInvitationRecord r)) :
    AllRecords Q (state.next crypto .restart) := by
  refine ⟨fun id r hget => ?_, h.2⟩
  have hload : (state.rows.get id).map normalizeInvitationRecord = some r := (get_load hpaired.self id).symm.trans hget
  obtain ⟨row, hrow, rfl⟩ := Option.map_eq_some_iff.1 hload
  exact hnormal row (h.2 id row hrow)

end AllRecords

/-- The grants of a record go with its requests. -/
structure Sound (r : InvitationRecord) : Prop where
  nodup : r.grants.Nodup
  dependency : .terminalInput ∈ r.grants → .terminalView ∈ r.grants
  ids : (r.requests.map TaskShareGrantRequest.requestId).Nodup
  approved : ∀ request ∈ r.requests, request.status = .approved → request.requestedGrants ⊆ r.grants

/-- When the request is filed: one more reading of the clock if a denial was looked at. -/
def requestTime (r : InvitationRecord) (draws : Draws) (input : GrantRequestInput) : ℤ :=
  let guestTerminalViewRequest := isGuestLinkTaskShare r &&
    isTerminalViewOnlyGrantSet (normalizeMutableShareGrants input.requestedGrants)
  let recentDenied := r.requests.reverse.find?
    (answersFor .denied (grantsToRequest r input.requestedGrants) guestTerminalViewRequest input.requestedBy)
  if recentDenied.isSome then draws.clock 2 else draws.clock 1

def fileRequest (r : InvitationRecord) (draws : Draws) (input : GrantRequestInput) : InvitationRecord :=
  { r with
    grantRequests := some (r.requests ++
      [newRequest draws input (grantsToRequest r input.requestedGrants) (requestTime r draws input)]) }

def filesRequest (r : InvitationRecord) (draws : Draws) (input : GrantRequestInput) : Bool :=
  admitsRequest r draws input && !(grantsToRequest r input.requestedGrants).isEmpty

variable {store : InvitationStore} {draws : Draws} {r : InvitationRecord} {op : InvitationOp} {requestId : String}

theorem requestGrants_saves {input : GrantRequestInput} (hget : store.invitations.get input.invitationId = some r) :
    (store.requestGrants draws input).saves =
      if filesRequest r draws input then some (fileRequest r draws input) else none := by
  unfold requestGrants
  rw [hget]
  simp only
  split
  · rename_i hrevoked
    simp [filesRequest, admitsRequest, refuse, Option.isSome_iff_ne_none.1 hrevoked]
  rename_i hrevoked
  split
  · rename_i hjoined
    simp [filesRequest, admitsRequest, refuse, Option.isNone_iff_eq_none.1 hjoined]
  rename_i hjoined
  split
  · rename_i hexpired
    simp [filesRequest, admitsRequest, refuse, hexpired]
  rename_i hexpired
  split
  · rename_i hempty
    simp [filesRequest, refuse, length_eq_zero_iff.1 hempty]
  rename_i hempty
  split
  · rename_i hpending
    obtain ⟨request, hrequest⟩ := Option.isSome_iff_exists.1 hpending
    simp [filesRequest, admitsRequest, refuse, hrequest]
  rename_i hpending
  split
  · rename_i hcooldown
    simp only [filesRequest, admitsRequest, refuse, hcooldown]
    simp
  rename_i hcooldown
  have hadmits : admitsRequest r draws input = true := by
    have hsome : r.acceptedAt.isSome = true := by simpa [Option.isSome_iff_ne_none] using hjoined
    rw [Option.not_isSome_iff_eq_none] at hrevoked hpending
    unfold admitsRequest
    simp only
    rw [hrevoked, hsome, hpending, hcooldown]
    simp [hexpired]
  have hfiles : filesRequest r draws input = true := by
    simp only [filesRequest, hadmits, Bool.true_and, Bool.not_eq_true', isEmpty_eq_false_iff]
    exact fun hnil => hempty (by rw [hnil]; rfl)
  rw [if_pos hfiles]
  rfl

/-- The pending request that a resolution is about, on a live invitation. -/
def resolvable (r : InvitationRecord) (draws : Draws) (requestId : String) : Option TaskShareGrantRequest :=
  if r.revokedAt.isSome || decide (r.expiresAt ≤ draws.clock 0) then none
  else (r.requests.find? fun candidate => candidate.requestId = requestId).filter fun request => request.status = .pending

def resolveRequest (r : InvitationRecord) (draws : Draws) (approve : Bool) (version : ℕ) (request : TaskShareGrantRequest) :
    InvitationRecord :=
  { r with
    grants := if approve then normalizeShareGrants (r.grants ++ request.requestedGrants) else r.grants
    grantRequests := some (r.requests.map fun candidate =>
      if candidate.requestId = request.requestId then resolved approve (draws.clock 1) request else candidate)
    policyVersion := if approve then version + 1 else r.policyVersion }

theorem resolveGrantRequest_saves {id requestId : String} {approve : Bool} (hget : store.invitations.get id = some r) :
    (store.resolveGrantRequest draws id requestId approve).saves =
      (resolvable r draws requestId).map (resolveRequest r draws approve store.policyVersion) := by
  unfold resolveGrantRequest resolvable
  rw [hget]
  simp only
  split
  · rename_i hrevoked
    simp [refuse, hrevoked]
  rename_i hrevoked
  split
  · rename_i hexpired
    simp [refuse, hexpired]
  rename_i hexpired
  have hlive : (r.revokedAt.isSome || decide (r.expiresAt ≤ draws.clock 0)) = false := by
    simp [hexpired, Option.not_isSome_iff_eq_none.1 hrevoked]
  rw [hlive, if_neg Bool.false_ne_true]
  split
  · rename_i hnone
    rw [hnone]
    rfl
  rename_i request hfound
  rw [hfound]
  have hid : request.requestId = requestId := by simpa using find?_some hfound
  split
  · rename_i hstatus
    simp [refuse, Option.filter, hstatus]
  · rename_i hstatus
    have hpending : request.status = .pending := not_not.1 hstatus
    simp only [Option.filter, hpending, decide_true, if_true, Option.map_some, resolveRequest, hid]
    cases approve <;> rfl

theorem insertIdx_length_add (grants added : List ShareGrant) (i : ℕ) (g : ShareGrant) :
    (grants ++ added).insertIdx (grants.length + i) g = grants ++ added.insertIdx i g := by
  induction grants with
  | nil => simp
  | cons a grants ih =>
    rw [cons_append, length_cons, Nat.add_right_comm, insertIdx_succ_cons, ih, cons_append]

theorem normalize_append {grants : List ShareGrant} (hnodup : grants.Nodup)
    (hview : .terminalInput ∈ grants → .terminalView ∈ grants) (added : List ShareGrant) :
    ∃ rest, normalizeTerminalGrantDependency (grants ++ added) = grants ++ rest ∧ rest.Nodup ∧ ∀ g ∈ rest, g ∉ grants := by
  have hdups : ∀ tail : List ShareGrant, ∃ rest, (grants ++ tail).eraseDups = grants ++ rest ∧ rest.Nodup ∧
      ∀ g ∈ rest, g ∉ grants := by
    intro tail
    refine ⟨(tail.removeAll grants).eraseDups, ?_, nodup_eraseDups _, fun g hg => ?_⟩
    · rw [eraseDups_append, eraseDups_eq_self hnodup]
    · simpa [removeAll] using (mem_filter.1 (mem_eraseDups.1 hg)).2
  unfold normalizeTerminalGrantDependency
  split
  · rename_i h
    have hinput : .terminalInput ∉ grants := fun hmem => h.2 (mem_append_left _ (hview hmem))
    rw [idxOf_append_of_notMem hinput, insertIdx_length_add]
    exact hdups _
  · exact hdups added

variable {r : InvitationRecord}

theorem Sound.normalize (h : Sound r) : Sound (normalizeInvitationRecord r) := by
  have hrequests : (normalizeInvitationRecord r).requests = r.requests.map normalizeGrantRequest := by
    cases hreq : r.grantRequests <;> simp [normalizeInvitationRecord, InvitationRecord.requests, hreq]
  refine ⟨normalize_nodup _, normalize_dependency, ?_, ?_⟩
  · rw [hrequests, map_map]
    exact h.ids
  · intro request hmem hstatus g hg
    rw [hrequests] at hmem
    obtain ⟨request', hmem', rfl⟩ := mem_map.1 hmem
    have hsub := h.approved request' hmem' hstatus
    rcases mem_normalize.1 hg with hg | ⟨rfl, hinput⟩
    · exact mem_normalize.2 (.inl (hsub hg))
    · exact mem_normalize.2 (.inr ⟨rfl, hsub hinput⟩)

theorem Sound.request (h : Sound r) {request : TaskShareGrantRequest}
    (hnew : request.requestId ∉ r.requests.map TaskShareGrantRequest.requestId) (hpending : request.status = .pending) :
    Sound { r with grantRequests := some (r.requests ++ [request]) } := by
  refine ⟨h.nodup, h.dependency, ?_, ?_⟩
  · rw [InvitationRecord.requests, Option.getD_some, map_append]
    exact nodup_concat h.ids hnew
  · intro candidate hmem hstatus
    rcases mem_concat_cases hmem with hmem | rfl
    · exact h.approved candidate hmem hstatus
    · rw [hpending] at hstatus
      cases hstatus

theorem requestId_resolve {resolved : TaskShareGrantRequest} (hid : resolved.requestId = requestId)
    (requests : List TaskShareGrantRequest) :
    (requests.map fun candidate => if candidate.requestId = requestId then resolved else candidate).map
      TaskShareGrantRequest.requestId = requests.map TaskShareGrantRequest.requestId := by
  rw [map_map]
  refine map_congr_left fun candidate _ => ?_
  simp only [Function.comp_apply]
  split
  · rename_i hcandidate
    rw [hid, hcandidate]
  · rfl

theorem Sound.denied (h : Sound r) {request : TaskShareGrantRequest} (resolvedAt : ℤ)
    (hid : request.requestId = requestId) :
    Sound { r with grantRequests := some (r.requests.map fun candidate =>
      if candidate.requestId = requestId then resolved false resolvedAt request else candidate) } := by
  refine ⟨h.nodup, h.dependency, ?_, ?_⟩
  · rw [InvitationRecord.requests, Option.getD_some, requestId_resolve (by exact hid)]
    exact h.ids
  · intro candidate hmem hstatus
    obtain ⟨candidate', hmem', rfl⟩ := mem_map.1 hmem
    split at hstatus
    · cases hstatus
    · rename_i hother
      rw [if_neg hother]
      exact h.approved candidate' hmem' hstatus

theorem Sound.approve (h : Sound r) {request : TaskShareGrantRequest}
    (resolvedAt : ℤ) (version : ℕ) (hid : request.requestId = requestId) :
    Sound { r with
      grants := normalizeShareGrants (r.grants ++ request.requestedGrants)
      grantRequests := some (r.requests.map fun candidate =>
        if candidate.requestId = requestId then resolved true resolvedAt request else candidate)
      policyVersion := version } := by
  have hmem : ∀ g ∈ r.grants ++ request.requestedGrants, g ∈ normalizeShareGrants (r.grants ++ request.requestedGrants) :=
    fun g hg => mem_normalize.2 (.inl hg)
  refine ⟨normalize_nodup _, normalize_dependency, ?_, ?_⟩
  · rw [InvitationRecord.requests, Option.getD_some, requestId_resolve (by exact hid)]
    exact h.ids
  · intro candidate hcandidate hstatus g hg
    obtain ⟨candidate', hmem', rfl⟩ := mem_map.1 hcandidate
    split at hg
    · exact hmem g (mem_append_right _ hg)
    · rename_i hother
      rw [if_neg hother] at hstatus
      exact hmem g (mem_append_left _ (h.approved candidate' hmem' hstatus hg))

/-- The id of a request that is filed is new to its invitation. -/
def RequestsFresh (state : RelayState) : RelayEvent → Prop
  | .call (.requestGrants input) draws _ => ∀ invitation ∈ state.store.invitations.get input.invitationId,
    "grant-req-" ++ draws.uuid 0 ∉ invitation.requests.map TaskShareGrantRequest.requestId
  | _ => True

instance (state : RelayState) : (event : RelayEvent) → Decidable (RequestsFresh state event)
  | .call (.requestGrants input) draws _ => inferInstanceAs (Decidable (∀ invitation ∈ state.store.invitations.get input.invitationId,
      "grant-req-" ++ draws.uuid 0 ∉ invitation.requests.map TaskShareGrantRequest.requestId))
  | .call (.create _) _ _ | .call (.accept ..) _ _ | .call (.acceptTicket ..) _ _ | .call (.resetShareTicket _) _ _
  | .call (.ensureMemberBrowserSession ..) _ _ | .call (.acquireControllerLease _) _ _ | .call (.resolveGrantRequest ..) _ _
  | .call (.revoke _) _ _ | .restart => isTrue trivial

variable {crypto : TokenCrypto}

theorem sound_saves {state : RelayState} {draws : Draws} {saveThrows : Bool}
    (h : AllRecords Sound state) (hfresh : RequestsFresh state (.call op draws saveThrows)) {outcome : Outcome}
    (hends : Ends crypto state.store draws op outcome) (hsaves : outcome.saves = some r) : Sound r := by
  cases hends with
  | quiet _ | noDate _ _ _ _ => cases hsaves
  | created _ input _ _ _ _ _ =>
    cases hsaves
    exact ⟨normalize_nodup _, normalize_dependency, nodup_nil, fun _ h => nomatch h⟩
  | edited _ hold hedit =>
    cases hsaves
    have hsound := h.1 _ _ hold
    cases hedit with
    | firstMember _ _ _ _ | newSession _ _ | failedAccept _ | ticketReset _ | browserDevice _ | browserSession _ _ _ _ _ | lease _ =>
      exact ⟨hsound.nodup, hsound.dependency, hsound.ids, hsound.approved⟩
    | request input _ hget _ => exact hsound.request (hfresh _ hget) rfl
    | denied resolvedAt request _ hfound =>
      exact hsound.denied resolvedAt (by simpa using find?_some hfound)
  | policy _ hold _ hedit =>
    cases hsaves
    have hsound := h.1 _ _ hold
    cases hedit with
    | approved resolvedAt request _ hfound =>
      exact hsound.approve resolvedAt _ (by simpa using find?_some hfound)
    | revoked _ => exact ⟨hsound.nodup, hsound.dependency, hsound.ids, hsound.approved⟩

theorem run_sound {past : List RelayEvent} (hfresh : StepsMeet (step crypto) RequestsFresh .start past) :
    Paired (run crypto .start past) ∧ AllRecords Sound (run crypto .start past) := by
  have hstep : ∀ state event state', Paired state ∧ AllRecords Sound state → RequestsFresh state event →
      step crypto state event = some state' → Paired state' ∧ AllRecords Sound state' := by
    intro state event state' h hfresh hstep
    cases hstep
    refine ⟨h.1.next event, ?_⟩
    cases event with
    | call op draws saveThrows =>
      exact h.2.settle (fun r => sound_saves h.2 hfresh (outcome_ends crypto state.store draws op)) saveThrows
    | restart => exact h.2.restart h.1 fun r => Sound.normalize
  exact exec_invariant hstep ⟨.start, .start Sound⟩ hfresh (exec_step crypto .start past)

@[simp] theorem terminalViewOnly_normalize (grants : List ShareGrant) :
    isTerminalViewOnlyGrantSet (normalizeMutableShareGrants grants) = isTerminalViewOnlyGrantSet grants := by
  have hmem : ∀ g, g ∈ normalizeMutableShareGrants grants ↔ g ∈ grants ∨ (g = .terminalView ∧ .terminalInput ∈ grants) :=
    fun g => mem_normalize
  unfold isTerminalViewOnlyGrantSet
  rw [Bool.eq_iff_iff]
  simp only [Bool.and_eq_true, decide_eq_true_eq, all_eq_true, gt_iff_lt]
  constructor
  · rintro ⟨hpos, hall⟩
    obtain ⟨grant, hgrant⟩ := exists_mem_of_length_pos hpos
    have hsome : ∃ g, g ∈ grants := by
      rcases (hmem grant).1 hgrant with h | ⟨_, h⟩
      · exact ⟨_, h⟩
      · exact ⟨_, h⟩
    obtain ⟨g, hg⟩ := hsome
    exact ⟨length_pos_of_mem hg, fun g hg => hall g ((hmem g).2 (.inl hg))⟩
  · rintro ⟨hpos, hall⟩
    obtain ⟨grant, hgrant⟩ := exists_mem_of_length_pos hpos
    refine ⟨length_pos_of_mem ((hmem grant).2 (.inl hgrant)), fun g hg => ?_⟩
    rcases (hmem g).1 hg with h | ⟨h, _⟩
    · exact hall g h
    · exact h

def Answered (log : List (Except StoreFault Reply)) (invitationId : String) (status : GrantRequestStatus)
    (request : TaskShareGrantRequest) : Prop :=
  ∃ invitation answered, .ok (.request invitation answered) ∈ log ∧ invitation.invitationId = invitationId ∧
    answered.status = status ∧ answered.requestId = request.requestId ∧ answered.requestedBy = request.requestedBy ∧
      isTerminalViewOnlyGrantSet answered.requestedGrants = isTerminalViewOnlyGrantSet request.requestedGrants

/-- Every request of the record was filed, and every approved one approved, as the answers of the log say. -/
def TracedBy (log : List (Except StoreFault Reply)) (r : InvitationRecord) : Prop :=
  ∀ request ∈ r.requests, Answered log r.invitationId .pending request ∧
    (request.status = .approved → Answered log r.invitationId .approved request)

variable {log : List (Except StoreFault Reply)}

theorem Answered.mono {invitationId : String} {status : GrantRequestStatus} {request : TaskShareGrantRequest}
    (h : Answered log invitationId status request) (more : List (Except StoreFault Reply)) :
    Answered (log ++ more) invitationId status request := by
  obtain ⟨invitation, answered, hmem, hrest⟩ := h
  exact ⟨invitation, answered, mem_append_left _ hmem, hrest⟩

theorem TracedBy.mono (h : TracedBy log r) (more : List (Except StoreFault Reply)) : TracedBy (log ++ more) r :=
  fun request hmem => ⟨(h request hmem).1.mono more, fun hstatus => ((h request hmem).2 hstatus).mono more⟩

theorem TracedBy.normalize (h : TracedBy log r) : TracedBy log (normalizeInvitationRecord r) := by
  have hrequests : (normalizeInvitationRecord r).requests = r.requests.map normalizeGrantRequest := by
    cases hreq : r.grantRequests <;> simp [normalizeInvitationRecord, InvitationRecord.requests, hreq]
  intro request hmem
  rw [hrequests] at hmem
  obtain ⟨old, hold, rfl⟩ := mem_map.1 hmem
  have hanswered : ∀ status, Answered log r.invitationId status old →
      Answered log r.invitationId status (normalizeGrantRequest old) := by
    rintro status ⟨invitation, answered, hlog, hid, hstatus, hrequest, hby, honly⟩
    exact ⟨invitation, answered, hlog, hid, hstatus, hrequest, hby, honly.trans (terminalViewOnly_normalize _).symm⟩
  exact ⟨hanswered _ (h old hold).1, fun hstatus => hanswered _ ((h old hold).2 hstatus)⟩

theorem Edit.requests_eq {old record : InvitationRecord}
    (h : Edit crypto store draws old op record) (hrequest : ∀ input, op ≠ .requestGrants input)
    (hresolve : ∀ invitationId requestId approve, op ≠ .resolveGrantRequest invitationId requestId approve) :
    record.requests = old.requests := by
  cases h with
  | request input _ _ _ => exact absurd rfl (hrequest input)
  | @denied invitationId requestId _ _ _ _ => exact absurd rfl (hresolve invitationId requestId false)
  | _ => rfl

theorem PolicyEdit.requests_eq {old record : InvitationRecord} (h : PolicyEdit store draws old op record)
    (hresolve : ∀ invitationId requestId approve, op ≠ .resolveGrantRequest invitationId requestId approve) :
    record.requests = old.requests := by
  cases h with
  | @approved invitationId requestId _ _ _ _ => exact absurd rfl (hresolve invitationId requestId true)
  | revoked _ => rfl

theorem requestGrants_answers (input : GrantRequestInput) : ∀ record ∈ (store.requestGrants draws input).saves, ∃ old request,
      store.invitations.get input.invitationId = some old ∧
        record = { old with grantRequests := some (old.requests ++ [request]) } ∧ request.status = .pending ∧
          (store.requestGrants draws input).answer = .ok (.request record request) := by
  unfold requestGrants
  split
  · exact fun record h => by cases h
  rename_i old hget
  iterate 3
    split
    · exact fun record h => by cases h
  simp only
  iterate 3
    split
    · exact fun record h => by cases h
  rintro record h
  cases h
  exact ⟨old, _, hget, rfl, rfl, rfl⟩

theorem resolveGrantRequest_answers (invitationId requestId : String) (approve : Bool) :
    ∀ record ∈ (store.resolveGrantRequest draws invitationId requestId approve).saves, ∃ old request resolvedAt,
      store.invitations.get invitationId = some old ∧ record.invitationId = old.invitationId ∧ request ∈ old.requests ∧
        record.requests = old.requests.map (fun candidate =>
          if candidate.requestId = requestId then resolved approve resolvedAt request else candidate) ∧
        (store.resolveGrantRequest draws invitationId requestId approve).answer =
          .ok (.request record (resolved approve resolvedAt request)) := by
  unfold resolveGrantRequest
  split
  · exact fun record h => by cases h
  rename_i old hget
  iterate 2
    split
    · exact fun record h => by cases h
  simp only
  split
  · exact fun record h => by cases h
  rename_i request hfound
  split
  · exact fun record h => by cases h
  rintro record h
  cases h
  exact ⟨old, request, _, hget, rfl, mem_of_find?_eq_some hfound, rfl, rfl⟩

/-- The record that a call saves is traced by the log with the answer to the call. -/
theorem traced_saves {state : RelayState} (h : AllRecords (TracedBy log) state)
    {record : InvitationRecord} (hsaves : (state.store.outcome crypto draws op).saves = some record) :
    TracedBy (log ++ [(state.store.outcome crypto draws op).answer]) record := by
  by_cases hop : ∃ input, op = .requestGrants input
  · obtain ⟨input, rfl⟩ := hop
    obtain ⟨old, request, hget, rfl, hpending, hanswer⟩ := requestGrants_answers input record hsaves
    intro candidate hmem
    rcases mem_concat_cases hmem with hmem | hmem
    · exact (h.1 _ old hget).mono _ candidate hmem
    · rw [hmem]
      refine ⟨⟨_, request, mem_append_right _ (mem_singleton.2 hanswer.symm), rfl, hpending, rfl, rfl, rfl⟩, ?_⟩
      rw [hpending]
      exact fun h => nomatch h
  by_cases hres : ∃ invitationId requestId approve, op = .resolveGrantRequest invitationId requestId approve
  · obtain ⟨invitationId, requestId, approve, rfl⟩ := hres
    obtain ⟨old, request, resolvedAt, hget, hid, hrequest, hrequests, hanswer⟩ :=
      resolveGrantRequest_answers invitationId requestId approve record hsaves
    have htraced := h.1 _ old hget
    intro candidate hmem
    rw [hrequests] at hmem
    obtain ⟨old', hold', rfl⟩ := mem_map.1 hmem
    rw [hid]
    split
    · have hfiled := (htraced request hrequest).1.mono
        [(state.store.outcome crypto draws (.resolveGrantRequest invitationId requestId approve)).answer]
      refine ⟨hfiled, fun hstatus => ?_⟩
      exact ⟨record, _, mem_append_right _ (mem_singleton.2 hanswer.symm), hid, hstatus, rfl, rfl, rfl⟩
    · exact htraced.mono _ old' hold'
  · rw [not_exists] at hop
    simp only [not_exists] at hres
    have hkept : ∀ old : InvitationRecord, (∃ id, state.store.invitations.get id = some old) →
        record.invitationId = old.invitationId → record.requests = old.requests →
          TracedBy (log ++ [(state.store.outcome crypto draws op).answer]) record := by
      rintro old ⟨id, hget⟩ hid hrequests candidate hmem
      rw [hrequests] at hmem
      rw [hid]
      exact (h.1 id old hget).mono _ candidate hmem
    have hends := outcome_ends crypto state.store draws op
    generalize state.store.outcome crypto draws op = outcome at hsaves hkept hends ⊢
    cases hends with
    | quiet _ | noDate _ _ _ _ => cases hsaves
    | created _ _ _ _ _ _ _ =>
      cases hsaves
      exact fun _ h => nomatch h
    | edited _ hold hedit =>
      cases hsaves
      exact hkept _ ⟨_, hold⟩ hedit.invitationId (Edit.requests_eq hedit hop hres)
    | policy _ hold _ hedit =>
      cases hsaves
      exact hkept _ ⟨_, hold⟩ hedit.invitationId (PolicyEdit.requests_eq hedit hres)

theorem replies_concat (crypto : TokenCrypto) (state : RelayState) (past : List RelayEvent) (event : RelayEvent) :
    state.replies crypto (past ++ [event]) = state.replies crypto past ++ (state.run crypto past).replies crypto [event] := by
  induction past generalizing state with
  | nil => rfl
  | cons first past ih =>
    cases first with
    | call op draws saveThrows => exact congrArg (_ :: ·) (ih _)
    | restart => exact ih _

theorem run_concat (crypto : TokenCrypto) (state : RelayState) (past : List RelayEvent) (event : RelayEvent) :
    state.run crypto (past ++ [event]) = (state.run crypto past).next crypto event := by
  unfold run
  rw [foldl_append, foldl_cons, foldl_nil]

theorem run_traced (crypto : TokenCrypto) (past : List RelayEvent) : Paired (run crypto .start past) ∧
      AllRecords (TracedBy (replies crypto .start past)) (run crypto .start past) := by
  induction past using reverseRecOn with
  | nil => exact ⟨.start, .start _⟩
  | append_singleton past event ih =>
    obtain ⟨hpaired, htraced⟩ := ih
    rw [run_concat, replies_concat]
    refine ⟨hpaired.next event, ?_⟩
    have hmono : ∀ more, AllRecords (TracedBy (replies crypto .start past ++ more)) (run crypto .start past) :=
      fun more => ⟨fun id r hget => (htraced.1 id r hget).mono more, fun id r hget => (htraced.2 id r hget).mono more⟩
    cases event with
    | restart => exact (hmono _).restart hpaired fun r => TracedBy.normalize
    | call op draws saveThrows =>
      cases saveThrows with
      | true => exact (hmono _).settle_failed
      | false =>
        refine (hmono _).settle (fun r hsaves => ?_) false
        have hanswer : replies crypto (run crypto .start past) [.call op draws false] =
            [((run crypto .start past).store.outcome crypto draws op).answer] := by
          simp [replies, InvitationStore.answer]
        rw [hanswer]
        exact traced_saves htraced hsaves

end Kookr.Relay
