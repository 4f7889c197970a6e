import Kookr.Sanity.Relay.GrantRecords

/-! Guest links. Approving a member's request puts the grant on the record that every session reads. What another member is
shown depends on that member's own requests alone, so the steps of one member change nothing for the others. -/

namespace Kookr.Relay

open Kookr.Lib InvitationStore InvitationRecord List

inductive GrantOp where
  | request (requestedGrants : List ShareGrant) (comment : Option String)
  | resolve (requestId : String) (approve : Bool)

/-- A request of a member, or the owner's answer to a request of that member. -/
structure GrantStep where
  member : String
  op : GrantOp
  draws : Draws
  saveThrows : Bool

namespace GrantStep

def input (invitationId : String) (step : GrantStep) (requestedGrants : List ShareGrant) (comment : Option String) :
    GrantRequestInput :=
  ⟨invitationId, requestedGrants, some step.member, comment⟩

def event (invitationId : String) (step : GrantStep) : RelayEvent :=
  match step.op with
  | .request requestedGrants comment =>
    .call (.requestGrants (step.input invitationId requestedGrants comment)) step.draws step.saveThrows
  | .resolve requestId approve => .call (.resolveGrantRequest invitationId requestId approve) step.draws step.saveThrows

def after (invitationId : String) (version : ℕ) (step : GrantStep) (r : InvitationRecord) : InvitationRecord :=
  if step.saveThrows then r
  else
    match step.op with
    | .request requestedGrants comment =>
      let input := step.input invitationId requestedGrants comment
      if filesRequest r step.draws input then fileRequest r step.draws input else r
    | .resolve requestId approve =>
      match resolvable r step.draws requestId with
      | some request => resolveRequest r step.draws approve version request
      | none => r

end GrantStep

def grantStep (crypto : TokenCrypto) (invitationId : String) (state : RelayState) (step : GrantStep) : Option RelayState :=
  some (state.next crypto (step.event invitationId))

def grantRun (crypto : TokenCrypto) (invitationId : String) (state : RelayState) (steps : List GrantStep) : RelayState :=
  state.run crypto (steps.map (GrantStep.event invitationId))

/-- The step is made for its member: a request has a new id, and one of another member than `a` is for terminal viewing
alone, as the relay lets members of a guest link ask; an answer is to a request of the member. -/
def OnBehalf (invitationId a : String) (state : RelayState) (step : GrantStep) : Prop :=
  ∀ invitation ∈ state.store.invitations.get invitationId,
    match step.op with
    | .request requestedGrants _ =>
      "grant-req-" ++ step.draws.uuid 0 ∉ invitation.requests.map TaskShareGrantRequest.requestId ∧
        (step.member = a ∨ isTerminalViewOnlyGrantSet (normalizeMutableShareGrants requestedGrants) = true)
    | .resolve requestId _ => ∀ request ∈ invitation.requests, request.requestId = requestId →
      request.requestedBy = nonEmpty (some step.member)

instance (invitationId a : String) (state : RelayState) (step : GrantStep) : Decidable (OnBehalf invitationId a state step) := by
  unfold OnBehalf
  cases step.op with
  | request _ _ => exact inferInstance
  | resolve _ _ => exact inferInstance

def shownTo (session : MemberSessionRecord) (r : InvitationRecord) (node : MemberNodeState) (deviceId : Option String) (now : ℤ) :
    MemberShareState :=
  buildMemberShareState (withMemberSession r (some session)) node deviceId now

variable {crypto : TokenCrypto} {state : RelayState} {invitationId a b : String} {step : GrantStep}
  {w v : InvitationRecord} {request : TaskShareGrantRequest} {r : InvitationRecord} {p : TaskShareGrantRequest → Bool}
  {session : MemberSessionRecord} {draws : Draws} {approve : Bool}

theorem get_after (h : Paired state) (hget : state.store.invitations.get invitationId = some w) :
    (state.next crypto (step.event invitationId)).store.invitations.get invitationId =
      some (step.after invitationId state.store.policyVersion w) := by
  have hid := h.invitationId_eq hget
  have hsettle : ∀ outcome : Outcome, (∀ r, outcome.saves = some r → r.invitationId = invitationId) →
      (state.settle outcome step.saveThrows).store.invitations.get invitationId =
        some (if step.saveThrows = true then w else outcome.saves.getD w) := by
    rintro ⟨answer, policyVersion, saves⟩ hsaves
    cases saves with
    | none =>
      have hkept : (state.settle ⟨answer, policyVersion, none⟩ step.saveThrows).store.invitations.get invitationId = some w := hget
      rw [hkept]
      cases step.saveThrows <;> rfl
    | some r =>
      cases step.saveThrows with
      | true => exact hget
      | false =>
        have hset : (state.store.invitations.set r.invitationId r).get invitationId = some r := by
          rw [hsaves r rfl]
          exact OrderedMap.get_set_self _ _ _
        exact hset
  obtain ⟨member, op, draws, saveThrows⟩ := step
  cases op with
  | request requestedGrants comment =>
    let input : GrantRequestInput := ⟨invitationId, requestedGrants, some member, comment⟩
    have hsaves : (state.store.requestGrants draws input).saves =
        if filesRequest w draws input then some (fileRequest w draws input) else none := requestGrants_saves hget
    have hkey : ∀ r, (state.store.requestGrants draws input).saves = some r → r.invitationId = invitationId := by
      intro r hr
      rw [hsaves] at hr
      split at hr
      · rw [← Option.some.inj hr]
        exact hid
      · cases hr
    refine (hsettle _ hkey).trans (congrArg some ?_)
    rw [hsaves, GrantStep.after]
    cases saveThrows with
    | true => rfl
    | false => cases hfiles : filesRequest w draws input <;> simp [GrantStep.input, input, hfiles]
  | resolve requestId approve =>
    have hsaves : (state.store.resolveGrantRequest draws invitationId requestId approve).saves =
        (resolvable w draws requestId).map (resolveRequest w draws approve state.store.policyVersion) :=
      resolveGrantRequest_saves hget
    have hkey : ∀ r, (state.store.resolveGrantRequest draws invitationId requestId approve).saves = some r →
        r.invitationId = invitationId := by
      intro r hr
      rw [hsaves] at hr
      obtain ⟨request, _, rfl⟩ := Option.map_eq_some_iff.1 hr
      exact hid
    refine (hsettle _ hkey).trans (congrArg some ?_)
    rw [hsaves, GrantStep.after]
    cases saveThrows with
    | true => rfl
    | false => cases hfound : resolvable w draws requestId <;> simp [hfound]

/-- The record but for its grants, its requests and its version. -/
def skeleton (r : InvitationRecord) : InvitationRecord := { r with grants := [], grantRequests := none, policyVersion := 0 }

/-- A request of another member than `a`. -/
def notOf (a : String) (request : TaskShareGrantRequest) : Bool := request.requestedBy ≠ nonEmpty (some a)

def guestGrants (grants : List ShareGrant) : List ShareGrant :=
  grants.filter fun grant => grant = .view || grant = .terminalView

/-- Two records of a guest link that differ in what was done for one member: `w` with it and `v` without. Terminal viewing is
the last grant that approving that member's requests can add for guests. -/
structure Alike (a : String) (w v : InvitationRecord) : Prop where
  skeleton : skeleton w = skeleton v
  others : w.requests.filter (notOf a) = v.requests.filter (notOf a)
  known : ∀ request ∈ v.requests, ∃ request' ∈ w.requests,
    request'.requestId = request.requestId ∧ request'.requestedBy = request.requestedBy
  grants : guestGrants w.grants = guestGrants v.grants ∨
    .terminalView ∉ v.grants ∧ guestGrants w.grants = guestGrants v.grants ++ [.terminalView]
  guest_w : isGuestLinkTaskShare w = true
  guest_v : isGuestLinkTaskShare v = true
  sound_w : Sound w
  sound_v : Sound v

theorem Alike.refl (a : String) (hguest : isGuestLinkTaskShare r = true) (hsound : Sound r) : Alike a r r :=
  ⟨rfl, rfl, fun request hmem => ⟨request, hmem, rfl, rfl⟩, .inl rfl, hguest, hguest, hsound, hsound⟩

theorem notOf_of_requestedBy (hne : b ≠ a) (h : request.requestedBy = some b) : notOf a request = true := by
  unfold notOf
  rw [h]
  simp only [ne_eq, decide_not, Bool.not_eq_true', decide_eq_false_iff_not]
  intro heq
  exact hne (Option.some.inj (Option.filter_eq_some_iff.1 heq.symm).1).symm

section

variable (h : Alike a w v)
include h

/-- Whatever is asked of the requests of other members is the same of both records. -/
theorem Alike.filter_eq (hne : b ≠ a)
    (hp : ∀ request, p request = true → request.requestedBy = some b) : w.requests.filter p = v.requests.filter p := by
  have hsplit : ∀ requests : List TaskShareGrantRequest, requests.filter p = (requests.filter (notOf a)).filter p := by
    intro requests
    rw [filter_filter]
    refine filter_congr fun request _ => ?_
    cases hpr : p request with
    | false => rfl
    | true => rw [notOf_of_requestedBy hne (hp request hpr)]; rfl
  rw [hsplit w.requests, hsplit v.requests, h.others]

theorem Alike.find_eq (hne : b ≠ a) (hp : ∀ request, p request = true → request.requestedBy = some b) :
    w.requests.reverse.find? p = v.requests.reverse.find? p := by
  rw [← head?_filter, ← head?_filter, filter_reverse, filter_reverse, h.filter_eq hne hp]

theorem Alike.any_eq (hne : b ≠ a)
    (hp : ∀ request, p request = true → request.requestedBy = some b) : w.requests.any p = v.requests.any p := by
  have hsome : ∀ requests : List TaskShareGrantRequest, requests.any p = (requests.reverse.find? p).isSome := by
    intro requests
    rw [isSome_find?, any_reverse]
  rw [hsome, hsome, h.find_eq hne hp]

omit h in
theorem congr_skeleton {α : Type*} (f : InvitationRecord → α) (hf : ∀ r, f (skeleton r) = f r)
    (h : skeleton w = skeleton v) : f w = f v := by
  rw [← hf w, h, hf v]

theorem Alike.hasGuestSessionTerminalView_eq (hne : b ≠ a) :
    hasGuestSessionTerminalView w (some b) = hasGuestSessionTerminalView v (some b) := by
  unfold hasGuestSessionTerminalView
  rw [h.guest_w, h.guest_v]
  refine congrArg _ (h.any_eq hne fun request hp => ?_)
  simp only [Bool.and_eq_true, decide_eq_true_eq] at hp
  exact hp.1.2

theorem Alike.terminalRequest_eq (hne : b ≠ a) (status : GrantRequestStatus) :
    terminalRequest w status (some b) = terminalRequest v status (some b) := by
  refine h.find_eq hne fun request hp => ?_
  simp only [Bool.and_eq_true, decide_eq_true_eq] at hp
  exact hp.1.2

omit h in
/-- A member who may view the terminal of a guest link has the grant on the record. -/
theorem terminalView_mem (hsound : Sound v) (h : hasGuestSessionTerminalView v (some b) = true) : .terminalView ∈ v.grants := by
  unfold hasGuestSessionTerminalView at h
  simp only [Bool.and_eq_true, any_eq_true, decide_eq_true_eq] at h
  obtain ⟨_, request, hmem, ⟨hstatus, _⟩, honly⟩ := h
  unfold isTerminalViewOnlyGrantSet at honly
  simp only [Bool.and_eq_true, decide_eq_true_eq, all_eq_true] at honly
  obtain ⟨grant, hgrant⟩ := exists_mem_of_length_pos honly.1
  rw [← honly.2 grant hgrant]
  exact hsound.approved request hmem hstatus hgrant

theorem Alike.grants_eq (b : String) : w.grants.filter (showsGrant true (hasGuestSessionTerminalView v (some b))) =
      v.grants.filter (showsGrant true (hasGuestSessionTerminalView v (some b))) := by
  cases happroved : hasGuestSessionTerminalView v (some b) with
  | true =>
    have hshows : ∀ grants : List ShareGrant, grants.filter (showsGrant true true) = guestGrants grants := by
      intro grants
      exact filter_congr fun grant _ => by simp [showsGrant]
    rw [hshows, hshows]
    rcases h.grants with hgrants | ⟨hview, _⟩
    · exact hgrants
    · exact absurd (terminalView_mem h.sound_v happroved) hview
  | false =>
    have hshows : ∀ grants : List ShareGrant,
        grants.filter (showsGrant true false) = (guestGrants grants).filter fun grant => grant = .view := by
      intro grants
      rw [guestGrants, filter_filter]
      refine filter_congr fun grant _ => ?_
      cases grant <;> rfl
    rw [hshows, hshows]
    rcases h.grants with hgrants | ⟨_, hgrants⟩
    · rw [hgrants]
    · rw [hgrants, filter_append]
      exact append_nil _

theorem Alike.shownTo_eq (hne : b ≠ a) (hsession : session.memberId = b)
    (node : MemberNodeState) (deviceId : Option String) (now : ℤ) :
    shownTo session w node deviceId now = shownTo session v node deviceId now := by
  have happroved := h.hasGuestSessionTerminalView_eq hne
  have hpending := h.terminalRequest_eq hne .pending
  have hdenied := h.terminalRequest_eq hne .denied
  have hgrants := h.grants_eq b
  have hrequests : w.requests.filter (showsRequest true (some b)) = v.requests.filter (showsRequest true (some b)) := by
    refine h.filter_eq hne fun request hp => ?_
    simp only [showsRequest, Bool.not_true, Bool.false_or, Bool.and_eq_true, decide_eq_true_eq] at hp
    exact hp.1
  have hguest_w : isGuestLinkTaskShare (withMemberSession w (some session)) = true := h.guest_w
  have hguest_v : isGuestLinkTaskShare (withMemberSession v (some session)) = true := h.guest_v
  have hid : w.invitationId = v.invitationId := congr_skeleton invitationId (fun _ => rfl) h.skeleton
  have hnode : w.nodeId = v.nodeId := congr_skeleton nodeId (fun _ => rfl) h.skeleton
  have hlabel : w.redactedShareLabel = v.redactedShareLabel := congr_skeleton redactedShareLabel (fun _ => rfl) h.skeleton
  have hexpires : w.expiresAt = v.expiresAt := congr_skeleton expiresAt (fun _ => rfl) h.skeleton
  have hrevoked : w.revokedAt = v.revokedAt := congr_skeleton revokedAt (fun _ => rfl) h.skeleton
  have hjoined : w.acceptedAt = v.acceptedAt := congr_skeleton acceptedAt (fun _ => rfl) h.skeleton
  have hterminal : ∀ expired nextRetryAt,
      buildTerminalStatus (withMemberSession w (some session)) node expired nextRetryAt (some b) =
        buildTerminalStatus (withMemberSession v (some session)) node expired nextRetryAt (some b) := by
    intro expired nextRetryAt
    have hview : hasGuestSessionTerminalView (withMemberSession w (some session)) (some b) =
        hasGuestSessionTerminalView (withMemberSession v (some session)) (some b) := happroved
    have hrevoked' : (withMemberSession w (some session)).revokedAt = (withMemberSession v (some session)).revokedAt := hrevoked
    have hpending' : terminalRequest (withMemberSession w (some session)) .pending (some b) =
        terminalRequest (withMemberSession v (some session)) .pending (some b) := hpending
    have hdenied' : terminalRequest (withMemberSession w (some session)) .denied (some b) =
        terminalRequest (withMemberSession v (some session)) .denied (some b) := hdenied
    unfold buildTerminalStatus
    simp only [hguest_w, hguest_v, hview, hrevoked', hpending', hdenied', Bool.not_true, Bool.false_and]
  subst hsession
  unfold shownTo buildMemberShareState
  simp only [hguest_w, hguest_v]
  refine MemberShareState.ext hid hnode ?_ ?_ ?_ rfl ?_ rfl rfl
  · rw [show (withMemberSession w (some session)).redactedShareLabel = _ from hlabel,
      show (withMemberSession w (some session)).expiresAt = _ from hexpires,
      show (withMemberSession w (some session)).revokedAt = _ from hrevoked,
      show (withMemberSession w (some session)).acceptedAt = _ from hjoined]
    rfl
  · exact (congrArg (fun shown => w.grants.filter (showsGrant true shown)) happroved).trans hgrants
  · exact congrArg (map memberGrantRequest) hrequests
  · rw [show (withMemberSession w (some session)).expiresAt = _ from hexpires]
    exact hterminal _ _

omit h in
theorem terminalView_mem_guestGrants {grants : List ShareGrant} : .terminalView ∈ guestGrants grants ↔ .terminalView ∈ grants := by
  simp [guestGrants]

omit h in
theorem guestGrants_normalize {grants : List ShareGrant} (hnodup : grants.Nodup)
    (hdependency : .terminalInput ∈ grants → .terminalView ∈ grants) (hview : .view ∈ grants) (added : List ShareGrant) :
    (.terminalView ∈ grants ∨ .terminalView ∉ normalizeShareGrants (grants ++ added) →
      guestGrants (normalizeShareGrants (grants ++ added)) = guestGrants grants) ∧
    (.terminalView ∉ grants → .terminalView ∈ normalizeShareGrants (grants ++ added) →
      guestGrants (normalizeShareGrants (grants ++ added)) = guestGrants grants ++ [.terminalView]) := by
  obtain ⟨rest, hrest, hrestNodup, hnew⟩ := normalize_append hnodup hdependency added
  have hfilter : guestGrants rest = rest.filter fun grant => grant = .terminalView := by
    refine filter_congr fun grant hgrant => ?_
    have hne : grant ≠ .view := fun heq => hnew grant hgrant (heq ▸ hview)
    simp [hne]
  have happend : guestGrants (normalizeShareGrants (grants ++ added)) = guestGrants grants ++ guestGrants rest := by
    unfold normalizeShareGrants
    rw [hrest]
    exact filter_append ..
  have hmem : .terminalView ∈ normalizeShareGrants (grants ++ added) ↔ .terminalView ∈ grants ∨ .terminalView ∈ rest := by
    unfold normalizeShareGrants
    rw [hrest, mem_append]
  constructor
  · intro hkept
    have hrestView : .terminalView ∉ rest := by
      rcases hkept with hgrants | hnone
      · exact fun hmemRest => hnew _ hmemRest hgrants
      · exact fun hmemRest => hnone (hmem.2 (.inr hmemRest))
    have hempty : guestGrants rest = [] := by
      rw [hfilter, filter_eq_nil_iff]
      intro grant hgrant heq
      exact hrestView (of_decide_eq_true heq ▸ hgrant)
    rw [happend, hempty, append_nil]
  · intro hgrants hadded
    have hrestView : .terminalView ∈ rest := (hmem.1 hadded).resolve_left hgrants
    rw [happend, hfilter, filter_eq, count_eq_one_of_mem hrestNodup hrestView]
    rfl

omit h in
theorem view_mem_of_guest (h : isGuestLinkTaskShare w = true) : .view ∈ w.grants := by
  unfold isGuestLinkTaskShare at h
  simp only [Bool.and_eq_true, contains_iff_mem] at h
  exact h.1.2

theorem Alike.grants_left (added : List ShareGrant) :
    guestGrants (normalizeShareGrants (w.grants ++ added)) = guestGrants v.grants ∨ .terminalView ∉ v.grants ∧
      guestGrants (normalizeShareGrants (w.grants ++ added)) = guestGrants v.grants ++ [.terminalView] := by
  obtain ⟨hkept, hadded⟩ := guestGrants_normalize h.sound_w.nodup h.sound_w.dependency (view_mem_of_guest h.guest_w) added
  by_cases hsame : .terminalView ∈ w.grants ∨ .terminalView ∉ normalizeShareGrants (w.grants ++ added)
  · rw [hkept hsame]
    exact h.grants
  · rw [not_or, not_not] at hsame
    rw [hadded hsame.1 hsame.2]
    rcases h.grants with hgrants | ⟨_, hgrants⟩
    · refine .inr ⟨fun hmem => hsame.1 ?_, by rw [hgrants]⟩
      rw [← terminalView_mem_guestGrants] at hmem ⊢
      rwa [hgrants]
    · refine absurd (terminalView_mem_guestGrants.1 ?_) hsame.1
      rw [hgrants]
      exact mem_append_right _ (mem_singleton_self _)

theorem Alike.grants_both (added : List ShareGrant) :
    guestGrants (normalizeShareGrants (w.grants ++ added)) = guestGrants (normalizeShareGrants (v.grants ++ added)) ∨
      .terminalView ∉ normalizeShareGrants (v.grants ++ added) ∧ guestGrants (normalizeShareGrants (w.grants ++ added)) =
          guestGrants (normalizeShareGrants (v.grants ++ added)) ++ [.terminalView] := by
  obtain ⟨hkeptW, haddedW⟩ := guestGrants_normalize h.sound_w.nodup h.sound_w.dependency (view_mem_of_guest h.guest_w) added
  obtain ⟨hkeptV, haddedV⟩ := guestGrants_normalize h.sound_v.nodup h.sound_v.dependency (view_mem_of_guest h.guest_v) added
  -- terminal viewing comes with the approval where terminal input was not there before
  have hcomes : ∀ grants : List ShareGrant, (.terminalInput ∈ grants → .terminalView ∈ grants) → .terminalView ∉ grants →
      (.terminalView ∈ normalizeShareGrants (grants ++ added) ↔ .terminalView ∈ added ∨ .terminalInput ∈ added) := by
    intro grants hdependency hnone
    have hinput : .terminalInput ∉ grants := fun hmem => hnone (hdependency hmem)
    unfold normalizeShareGrants
    rw [mem_normalize, mem_append]
    simp [hnone, hinput]
  have hsameView : guestGrants w.grants = guestGrants v.grants → (.terminalView ∈ w.grants ↔ .terminalView ∈ v.grants) := by
    intro hgrants
    rw [← terminalView_mem_guestGrants, hgrants, terminalView_mem_guestGrants]
  by_cases hv : .terminalView ∈ v.grants
  · rcases h.grants with hgrants | ⟨hnone, _⟩
    · exact .inl (by rw [hkeptW (.inl ((hsameView hgrants).2 hv)), hkeptV (.inl hv), hgrants])
    · exact absurd hv hnone
  · have hcomesV := hcomes v.grants h.sound_v.dependency hv
    rcases h.grants with hgrants | ⟨_, hgrants⟩
    · have hw : .terminalView ∉ w.grants := fun hmem => hv ((hsameView hgrants).1 hmem)
      have hcomesW := hcomes w.grants h.sound_w.dependency hw
      left
      by_cases hnow : .terminalView ∈ normalizeShareGrants (v.grants ++ added)
      · rw [haddedW hw (hcomesW.2 (hcomesV.1 hnow)), haddedV hv hnow, hgrants]
      · rw [hkeptW (.inr fun hmem => hnow (hcomesV.2 (hcomesW.1 hmem))), hkeptV (.inr hnow), hgrants]
    · have hw : .terminalView ∈ w.grants := by
        rw [← terminalView_mem_guestGrants, hgrants]
        exact mem_append_right _ (mem_singleton_self _)
      rw [hkeptW (.inl hw)]
      by_cases hnow : .terminalView ∈ normalizeShareGrants (v.grants ++ added)
      · exact .inl (by rw [haddedV hv hnow, hgrants])
      · exact .inr ⟨hnow, by rw [hkeptV (.inr hnow), hgrants]⟩

omit h in
theorem guest_of_grants {r r' : InvitationRecord} (h : isGuestLinkTaskShare r = true) (hskeleton : skeleton r' = skeleton r)
    (hview : .view ∈ r'.grants) : isGuestLinkTaskShare r' = true := by
  have hsubject : r'.subject = r.subject := congr_skeleton subject (fun _ => rfl) hskeleton
  have hshare : r'.shareId = r.shareId := congr_skeleton shareId (fun _ => rfl) hskeleton
  have hverifier : r'.passwordVerifier = r.passwordVerifier :=
    congr_skeleton passwordVerifier (fun _ => rfl) hskeleton
  have hlabel : r'.redactedShareLabel = r.redactedShareLabel :=
    congr_skeleton redactedShareLabel (fun _ => rfl) hskeleton
  unfold isGuestLinkTaskShare at h ⊢
  rw [hsubject, hshare, hverifier, hlabel]
  simp only [Bool.and_eq_true, contains_iff_mem] at h ⊢
  exact ⟨⟨h.1.1, hview⟩, h.2⟩

omit h in
theorem resolvable_mem {requestId : String}
    (h : resolvable r draws requestId = some request) : request ∈ r.requests ∧ request.requestId = requestId := by
  unfold resolvable at h
  split at h
  · cases h
  · have hfound := (Option.filter_eq_some_iff.1 h).1
    exact ⟨mem_of_find?_eq_some hfound, by simpa using find?_some hfound⟩

omit h in
theorem resolveRequest_kept {version : ℕ} (hguest : isGuestLinkTaskShare r = true) (hsound : Sound r) :
    isGuestLinkTaskShare (resolveRequest r draws approve version request) = true ∧
      Sound (resolveRequest r draws approve version request) := by
  cases approve with
  | true =>
    refine ⟨guest_of_grants hguest rfl (mem_normalize.2 (.inl (mem_append_left _ (view_mem_of_guest hguest)))), ?_⟩
    exact hsound.approve (draws.clock 1) (version + 1) rfl
  | false => exact ⟨guest_of_grants hguest rfl (view_mem_of_guest hguest), hsound.denied (draws.clock 1) rfl⟩

/-- What a resolution makes of each request. -/
def resolveIn (draws : Draws) (approve : Bool) (request candidate : TaskShareGrantRequest) : TaskShareGrantRequest :=
  if candidate.requestId = request.requestId then resolved approve (draws.clock 1) request else candidate

omit h in
theorem requests_resolveRequest (r : InvitationRecord) (draws : Draws) (approve : Bool) (version : ℕ)
    (request : TaskShareGrantRequest) :
    (resolveRequest r draws approve version request).requests = r.requests.map (resolveIn draws approve request) := rfl

omit h in
theorem resolveIn_requestId (draws : Draws) (approve : Bool) (request candidate : TaskShareGrantRequest) :
    (resolveIn draws approve request candidate).requestId = candidate.requestId := by
  unfold resolveIn
  split
  · rename_i hid
    exact hid.symm
  · rfl

omit h in
theorem resolveIn_requestedBy (hsound : Sound r)
    {request candidate : TaskShareGrantRequest} (hrequest : request ∈ r.requests) (hmem : candidate ∈ r.requests) :
    (resolveIn draws approve request candidate).requestedBy = candidate.requestedBy := by
  unfold resolveIn
  split
  · rename_i hid
    rw [eq_of_key hsound.ids hrequest hmem hid]
    rfl
  · rfl

theorem Alike.known_map
    (hrequest : request ∈ w.requests) : ∀ old ∈ v.requests, ∃ new ∈ w.requests.map (resolveIn draws approve request),
      new.requestId = old.requestId ∧ new.requestedBy = old.requestedBy := by
  intro old hold
  obtain ⟨known, hknown, hid, hby⟩ := h.known old hold
  refine ⟨_, mem_map_of_mem hknown, ?_, ?_⟩
  · rw [resolveIn_requestId, hid]
  · rw [resolveIn_requestedBy h.sound_w hrequest hknown, hby]

omit h in
theorem nonEmpty_ne (hne : b ≠ a) : nonEmpty (some b) ≠ nonEmpty (some a) := by
  intro heq
  unfold nonEmpty at heq
  by_cases hb : b = ""
  · by_cases ha : a = ""
    · exact hne (hb.trans ha.symm)
    · simp [Option.filter, hb, ha] at heq
  · by_cases ha : a = ""
    · simp [Option.filter, hb, ha] at heq
    · simp [Option.filter, hb, ha] at heq
      exact hne heq

omit h in
theorem filter_map_eq {α : Type*} {l : List α} {f : α → α} {p : α → Bool} (hf : ∀ x ∈ l, p x = true → f x = x)
    (hp : ∀ x ∈ l, p (f x) = p x) : (l.map f).filter p = l.filter p := by
  induction l with
  | nil => rfl
  | cons x l ih =>
    have htail := ih (fun y hy => hf y (mem_cons_of_mem _ hy)) fun y hy => hp y (mem_cons_of_mem _ hy)
    rw [map_cons, filter_cons, filter_cons, hp x mem_cons_self, htail]
    split
    · rename_i hx
      rw [hf x mem_cons_self hx]
    · rfl

/-- A step made for the one member leaves the records alike. -/
theorem Alike.left (hmember : step.member = a) (hnew : ∀ requestedGrants comment, step.op = .request requestedGrants comment →
      "grant-req-" ++ step.draws.uuid 0 ∉ w.requests.map TaskShareGrantRequest.requestId)
    (hown : ∀ requestId approve, step.op = .resolve requestId approve → ∀ request ∈ w.requests,
      request.requestId = requestId → request.requestedBy = nonEmpty (some a)) (version : ℕ) :
    Alike a (step.after invitationId version w) v := by
  unfold GrantStep.after
  split
  · exact h
  split
  · rename_i requestedGrants comment hop
    simp only
    split
    · refine ⟨h.skeleton, ?_, fun old hold => ?_, h.grants, guest_of_grants h.guest_w rfl (view_mem_of_guest h.guest_w),
        h.guest_v, h.sound_w.request (hnew _ _ hop) rfl, h.sound_v⟩
      · rw [← h.others, fileRequest, requests, Option.getD_some, filter_append, filter_singleton]
        have hby : notOf a (newRequest step.draws (step.input invitationId requestedGrants comment)
            (grantsToRequest w (step.input invitationId requestedGrants comment).requestedGrants)
            (requestTime w step.draws (step.input invitationId requestedGrants comment))) = false := by
          simp [notOf, newRequest, GrantStep.input, hmember]
        rw [hby]
        exact append_nil _
      · obtain ⟨known, hknown, hid, hby⟩ := h.known old hold
        exact ⟨known, mem_append_left _ hknown, hid, hby⟩
    · exact h
  · rename_i requestId approve hop
    split
    · rename_i request hresolvable
      obtain ⟨hrequest, hid⟩ := resolvable_mem hresolvable
      obtain ⟨hguest, hsound⟩ := resolveRequest_kept h.guest_w h.sound_w
      refine ⟨h.skeleton, ?_, h.known_map hrequest, ?_, hguest, h.guest_v, hsound, h.sound_v⟩
      · rw [requests_resolveRequest, ← h.others]
        refine filter_map_eq (fun candidate hmem hother => ?_) fun candidate hmem => ?_
        · -- the request that is resolved is one of the member's own
          unfold resolveIn
          split
          · rename_i heq
            have hby := hown requestId approve hop candidate hmem (heq.trans hid)
            simp [notOf, hby] at hother
          · rfl
        · unfold notOf
          rw [resolveIn_requestedBy h.sound_w hrequest hmem]
      · cases approve with
        | true => exact h.grants_left request.requestedGrants
        | false => exact h.grants
    · exact h

omit h in
/-- A member of a guest link who asks for the terminal asks for that, whatever the record has. -/
theorem grantsToRequest_guest (hguest : isGuestLinkTaskShare r = true) {requestedGrants : List ShareGrant}
    (honly : isTerminalViewOnlyGrantSet (normalizeMutableShareGrants requestedGrants) = true) :
    grantsToRequest r requestedGrants = normalizeMutableShareGrants requestedGrants := by
  simp [grantsToRequest, hguest, honly]

theorem Alike.answersFor_eq (hne : b ≠ a) (status : GrantRequestStatus) (requestedGrants : List ShareGrant) :
    w.requests.reverse.find? (answersFor status requestedGrants true (some b)) =
      v.requests.reverse.find? (answersFor status requestedGrants true (some b)) := by
  refine h.find_eq hne fun request hp => ?_
  simp only [answersFor, Bool.not_true, Bool.false_or, Bool.and_eq_true, decide_eq_true_eq] at hp
  exact hp.2

theorem Alike.filesRequest_eq (hne : b ≠ a) (draws : Draws) (input : GrantRequestInput) (hby : input.requestedBy = some b)
    (honly : isTerminalViewOnlyGrantSet (normalizeMutableShareGrants input.requestedGrants) = true) :
    filesRequest w draws input = filesRequest v draws input ∧ requestTime w draws input = requestTime v draws input := by
  have hrevoked : w.revokedAt = v.revokedAt := congr_skeleton revokedAt (fun _ => rfl) h.skeleton
  have hexpires : w.expiresAt = v.expiresAt := congr_skeleton expiresAt (fun _ => rfl) h.skeleton
  have hjoined : w.acceptedAt = v.acceptedAt := congr_skeleton acceptedAt (fun _ => rfl) h.skeleton
  have hfound := fun status => h.answersFor_eq hne status (normalizeMutableShareGrants input.requestedGrants)
  unfold filesRequest admitsRequest requestTime
  simp only
  rw [grantsToRequest_guest h.guest_w honly, grantsToRequest_guest h.guest_v honly, h.guest_w, h.guest_v, honly, hby,
    Bool.true_and, hfound .pending, hfound .denied, hrevoked, hexpires, hjoined]
  exact ⟨rfl, rfl⟩

theorem Alike.mem_iff (hother : notOf a request = true) : request ∈ w.requests ↔ request ∈ v.requests := by
  have hfilter : ∀ requests : List TaskShareGrantRequest, request ∈ requests ↔ request ∈ requests.filter (notOf a) := by
    intro requests
    rw [mem_filter]
    exact ⟨fun hmem => ⟨hmem, hother⟩, And.left⟩
  rw [hfilter w.requests, h.others, ← hfilter v.requests]

theorem Alike.resolvable_eq (hne : b ≠ a) (draws : Draws) {requestId : String}
    (hown : ∀ request ∈ w.requests, request.requestId = requestId → request.requestedBy = nonEmpty (some b)) :
    resolvable w draws requestId = resolvable v draws requestId := by
  have hrevoked : w.revokedAt = v.revokedAt := congr_skeleton revokedAt (fun _ => rfl) h.skeleton
  have hexpires : w.expiresAt = v.expiresAt := congr_skeleton expiresAt (fun _ => rfl) h.skeleton
  have hother : ∀ request : TaskShareGrantRequest, request.requestedBy = nonEmpty (some b) → notOf a request = true := by
    intro request hby
    unfold notOf
    rw [hby]
    simpa using nonEmpty_ne hne
  have hfind : (w.requests.find? fun candidate => candidate.requestId = requestId) =
      v.requests.find? fun candidate => candidate.requestId = requestId := by
    refine Option.ext fun request => ?_
    rw [find_key_iff h.sound_w.ids, find_key_iff h.sound_v.ids]
    refine and_congr_left fun hid => ⟨fun hmem => ?_, fun hmem => ?_⟩
    · exact (h.mem_iff (hother request (hown request hmem hid))).1 hmem
    · obtain ⟨known, hknown, hidKnown, hby⟩ := h.known request hmem
      refine (h.mem_iff (hother request ?_)).2 hmem
      rw [← hby]
      exact hown known hknown (hidKnown.trans hid)
  unfold resolvable
  rw [hrevoked, hexpires, hfind]

omit h in
theorem filter_resolveIn (hsound : Sound r) (hrequest : request ∈ r.requests) :
    (r.requests.map (resolveIn draws approve request)).filter (notOf a) =
      (r.requests.filter (notOf a)).map (resolveIn draws approve request) := by
  rw [filter_map]
  refine congrArg _ (filter_congr fun candidate hmem => ?_)
  simp only [Function.comp_apply, notOf, resolveIn_requestedBy hsound hrequest hmem]

/-- A step made for another member leaves the records alike. -/
theorem Alike.both (hne : step.member ≠ a) (hnew : ∀ requestedGrants comment, step.op = .request requestedGrants comment →
      "grant-req-" ++ step.draws.uuid 0 ∉ w.requests.map TaskShareGrantRequest.requestId)
    (honly : ∀ requestedGrants comment, step.op = .request requestedGrants comment →
      isTerminalViewOnlyGrantSet (normalizeMutableShareGrants requestedGrants) = true)
    (hown : ∀ requestId approve, step.op = .resolve requestId approve → ∀ request ∈ w.requests,
      request.requestId = requestId → request.requestedBy = nonEmpty (some step.member)) (versionW versionV : ℕ) :
    Alike a (step.after invitationId versionW w) (step.after invitationId versionV v) := by
  unfold GrantStep.after
  split
  · exact h
  split
  · rename_i requestedGrants comment hop
    simp only
    have hgrants := honly _ _ hop
    obtain ⟨hfiles, htime⟩ :=
      h.filesRequest_eq hne step.draws (step.input invitationId requestedGrants comment) rfl hgrants
    rw [hfiles]
    split
    · have hnewV : "grant-req-" ++ step.draws.uuid 0 ∉ v.requests.map TaskShareGrantRequest.requestId := by
        intro hmem
        obtain ⟨old, hold, hid⟩ := mem_map.1 hmem
        obtain ⟨known, hknown, hidKnown, _⟩ := h.known old hold
        exact hnew _ _ hop (mem_map.2 ⟨known, hknown, hidKnown.trans hid⟩)
      have hsame : grantsToRequest w (step.input invitationId requestedGrants comment).requestedGrants =
          grantsToRequest v (step.input invitationId requestedGrants comment).requestedGrants :=
        (grantsToRequest_guest h.guest_w hgrants).trans (grantsToRequest_guest h.guest_v hgrants).symm
      unfold fileRequest
      rw [htime, hsame]
      refine ⟨h.skeleton, ?_, fun old hold => ?_, h.grants, guest_of_grants h.guest_w rfl (view_mem_of_guest h.guest_w),
        guest_of_grants h.guest_v rfl (view_mem_of_guest h.guest_v), h.sound_w.request (hnew _ _ hop) rfl,
        h.sound_v.request hnewV rfl⟩
      · exact (filter_append ..).trans ((congrArg (· ++ _) h.others).trans (filter_append ..).symm)
      · rcases mem_append.1 hold with hold | hold
        · obtain ⟨known, hknown, hid, hby⟩ := h.known old hold
          exact ⟨known, mem_append_left _ hknown, hid, hby⟩
        · exact ⟨old, mem_append_right _ hold, rfl, rfl⟩
    · exact h
  · rename_i requestId approve hop
    rw [h.resolvable_eq hne step.draws (hown requestId approve hop)]
    split
    · rename_i request hresolvable
      have hrequestV := (resolvable_mem hresolvable).1
      rw [← h.resolvable_eq hne step.draws (hown requestId approve hop)] at hresolvable
      have hrequestW := (resolvable_mem hresolvable).1
      obtain ⟨hguestW, hsoundW⟩ := resolveRequest_kept h.guest_w h.sound_w
      obtain ⟨hguestV, hsoundV⟩ := resolveRequest_kept h.guest_v h.sound_v
      refine ⟨h.skeleton, ?_, fun old hold => ?_, ?_, hguestW, hguestV, hsoundW, hsoundV⟩
      · rw [requests_resolveRequest, requests_resolveRequest, filter_resolveIn h.sound_w hrequestW,
          filter_resolveIn h.sound_v hrequestV, h.others]
      · obtain ⟨old', hold', rfl⟩ := mem_map.1 hold
        obtain ⟨new, hnew, hid, hby⟩ := h.known_map hrequestW old' hold'
        exact ⟨new, hnew, hid.trans (resolveIn_requestId ..).symm,
          hby.trans (resolveIn_requestedBy h.sound_v hrequestV hold').symm⟩
      · cases approve with
        | true => exact h.grants_both request.requestedGrants
        | false => exact h.grants
    · exact h

end

/-- The invitation's records in a run with the steps of the one member and in the run without them. -/
theorem Alike.run {steps : List GrantStep} {state state' : RelayState} (hpaired : Paired state) (hpaired' : Paired state')
    (hget : state.store.invitations.get invitationId = some w) (hget' : state'.store.invitations.get invitationId = some v)
    (h : Alike a w v) (hsteps : StepsMeet (grantStep crypto invitationId) (OnBehalf invitationId a) state steps) :
    ∃ w' v', (grantRun crypto invitationId state steps).store.invitations.get invitationId = some w' ∧
      (grantRun crypto invitationId state' (steps.filter (·.member ≠ a))).store.invitations.get invitationId = some v' ∧
        Alike a w' v' := by
  induction steps generalizing state state' w v with
  | nil => exact ⟨w, v, hget, hget', h⟩
  | cons step steps ih =>
    have hbehalf := hsteps.1 w hget
    have hrest := hsteps.2 _ rfl
    have hnew : ∀ requestedGrants comment, step.op = .request requestedGrants comment →
        "grant-req-" ++ step.draws.uuid 0 ∉ w.requests.map TaskShareGrantRequest.requestId := by
      intro requestedGrants comment hop
      rw [hop] at hbehalf
      exact hbehalf.1
    have hown : ∀ requestId approve, step.op = .resolve requestId approve → ∀ request ∈ w.requests,
        request.requestId = requestId → request.requestedBy = nonEmpty (some step.member) := by
      intro requestId approve hop
      rw [hop] at hbehalf
      exact hbehalf
    have hpairedNext : Paired (state.next crypto (step.event invitationId)) := hpaired.next (step.event invitationId)
    by_cases hmember : step.member = a
    · rw [filter_cons_of_neg (by simpa using hmember)]
      rw [hmember] at hown
      exact ih hpairedNext hpaired' (get_after hpaired hget) hget' (h.left hmember hnew hown _) hrest
    · rw [filter_cons_of_pos (by simpa using hmember)]
      have honly : ∀ requestedGrants comment, step.op = .request requestedGrants comment →
          isTerminalViewOnlyGrantSet (normalizeMutableShareGrants requestedGrants) = true := by
        intro requestedGrants comment hop
        rw [hop] at hbehalf
        exact hbehalf.2.resolve_left hmember
      exact ih hpairedNext (hpaired'.next (step.event invitationId)) (get_after hpaired hget) (get_after hpaired' hget')
        (h.both hmember hnew honly hown _ _) hrest

def OffersTerminalView (shown : MemberShareState) : Prop :=
  .terminalView ∈ shown.grants ∨ shown.terminal = .viewOnly ∨ shown.terminal = .available

/-- What the terminal of a guest link can be, given whether the member was approved. -/
def GuestTerminal (approved : Bool) (terminal : MemberTerminalSharingStatus) : Prop :=
  terminal ≠ .available ∧ (terminal = .viewOnly → approved = true)

theorem guestTerminal_blocked (approved : Bool) (reason : MemberBlockedReason) (nextRetryAt : Option ℤ) :
    GuestTerminal approved (blocked reason nextRetryAt) :=
  ⟨nofun, nofun⟩

section

variable (hguest : isGuestLinkTaskShare v = true)
include hguest

theorem buildTerminalStatus_guest (node : MemberNodeState) (expired : Bool) (nextRetryAt : Option ℤ) (memberId : Option String) :
    GuestTerminal (hasGuestSessionTerminalView v memberId) (buildTerminalStatus v node expired nextRetryAt memberId) := by
  unfold buildTerminalStatus
  simp only [hguest, Bool.not_true, Bool.false_and, Bool.false_or, Bool.or_false]
  split
  · exact ⟨nofun, nofun⟩
  split
  · exact ⟨nofun, nofun⟩
  split
  · rename_i happroved
    split
    · exact guestTerminal_blocked _ _ _
    split
    · exact guestTerminal_blocked _ _ _
    split
    · exact guestTerminal_blocked _ _ _
    cases node.policySyncStatus with
    | acked => exact ⟨nofun, fun _ => happroved⟩
    | _ => exact guestTerminal_blocked _ _ _
  · split
    · exact ⟨nofun, nofun⟩
    · split
      · exact ⟨nofun, nofun⟩
      · exact guestTerminal_blocked _ _ _

/-- A guest is shown terminal viewing only with a request of his own for it alone that was approved. -/
theorem offers_terminalView {node : MemberNodeState}
    {deviceId : Option String} {now : ℤ} (h : OffersTerminalView (shownTo session v node deviceId now)) :
    ∃ request ∈ v.requests, request.status = .approved ∧ request.requestedBy = some session.memberId ∧
      isTerminalViewOnlyGrantSet request.requestedGrants = true := by
  have happroved : hasGuestSessionTerminalView v (some session.memberId) = true := by
    have hterminal : GuestTerminal (hasGuestSessionTerminalView v (some session.memberId))
        (shownTo session v node deviceId now).terminal :=
      buildTerminalStatus_guest (v := withMemberSession v (some session)) hguest node _ _ _
    rcases h with hgrant | hview | hinput
    · have hshows : showsGrant (isGuestLinkTaskShare v) (hasGuestSessionTerminalView v (some session.memberId)) .terminalView = true :=
        (mem_filter.1 hgrant).2
      simpa [showsGrant, hguest] using hshows
    · exact hterminal.2 hview
    · exact absurd hinput hterminal.1
  unfold hasGuestSessionTerminalView at happroved
  simp only [Bool.and_eq_true, any_eq_true, decide_eq_true_eq] at happroved
  obtain ⟨_, request, hmem, ⟨hstatus, hby⟩, honly⟩ := happroved
  exact ⟨request, hmem, hstatus, hby, honly⟩

theorem grants_guest {node : MemberNodeState}
    {deviceId : Option String} {now : ℤ} {grant : ShareGrant} (h : grant ∈ (shownTo session v node deviceId now).grants) :
    grant = .view ∨ grant = .terminalView := by
  have hshows : showsGrant (isGuestLinkTaskShare v) (hasGuestSessionTerminalView v (some session.memberId)) grant = true :=
    (mem_filter.1 h).2
  simp only [showsGrant, hguest, Bool.not_true, Bool.false_or, Bool.false_and, Bool.or_false, Bool.or_eq_true,
    Bool.and_eq_true, decide_eq_true_eq] at hshows
  exact hshows.imp_right And.left

end

/-- On a guest link of any run, the requests of one member and their answers change nothing that a session of another member is
shown. A session is offered terminal viewing only if a request of its member for that alone was filed and approved, and no
session is offered anything beyond it. -/
theorem terminal_approval_private (crypto : TokenCrypto) (past : List RelayEvent)
    (hpast : StepsMeet (RelayState.step crypto) RequestsFresh .start past) (id : String) (r : InvitationRecord)
    (hget : (RelayState.run crypto .start past).store.invitations.get id = some r) (hguest : isGuestLinkTaskShare r = true) :
    (∀ a steps, StepsMeet (grantStep crypto id) (OnBehalf id a) (RelayState.run crypto .start past) steps →
      ∃ w v, (grantRun crypto id (RelayState.run crypto .start past) steps).store.invitations.get id = some w ∧
        (grantRun crypto id (RelayState.run crypto .start past) (steps.filter (·.member ≠ a))).store.invitations.get id = some v ∧
        ∀ session : MemberSessionRecord, session.memberId ≠ a → ∀ node deviceId now,
          shownTo session w node deviceId now = shownTo session v node deviceId now) ∧
    ∀ (session : MemberSessionRecord) node deviceId now, (OffersTerminalView (shownTo session r node deviceId now) →
        ∃ request ∈ r.requests, request.requestedBy = some session.memberId ∧
          isTerminalViewOnlyGrantSet request.requestedGrants = true ∧
            Answered (RelayState.replies crypto .start past) id .pending request ∧
              Answered (RelayState.replies crypto .start past) id .approved request) ∧
      (∀ grant ∈ (shownTo session r node deviceId now).grants, grant = .view ∨ grant = .terminalView) ∧
      (shownTo session r node deviceId now).terminal ≠ .available ∧
      (shownTo session r node deviceId now).controllerLease = .available := by
  obtain ⟨hpaired, hsound⟩ := run_sound hpast
  constructor
  · intro a steps hsteps
    obtain ⟨w, v, hw, hv, halike⟩ := (Alike.refl a hguest (hsound.1 id r hget)).run hpaired hpaired hget hget hsteps
    exact ⟨w, v, hw, hv, fun session hne node deviceId now => halike.shownTo_eq hne rfl node deviceId now⟩
  · intro session node deviceId now
    refine ⟨fun hoffers => ?_, fun grant => grants_guest hguest, ?_, ?_⟩
    · obtain ⟨request, hmem, hstatus, hby, honly⟩ := offers_terminalView hguest hoffers
      obtain ⟨hfiled, happroved⟩ := (run_traced crypto past).2.1 id r hget request hmem
      rw [hpaired.invitationId_eq hget] at hfiled happroved
      exact ⟨request, hmem, hby, honly, hfiled, happroved hstatus⟩
    · have hguest' : isGuestLinkTaskShare (withMemberSession r (some session)) = true := hguest
      exact (buildTerminalStatus_guest hguest' node _ _ _).1
    · have hguest' : isGuestLinkTaskShare (withMemberSession r (some session)) = true := hguest
      unfold shownTo buildMemberShareState
      simp only [hguest', if_true]

def twoGuests : List RelayEvent :=
  [.call (.create { taskShare [.view] with shareTicket := true })
      { Draws.named "a" with shareId := fun _ => "123456", password := "secret" } false,
    .call (.acceptTicket "123456" "secret" none (some "desk")) (.named "b") false,
    .call (.acceptTicket "123456" "secret" none (some "phone")) (.named "c") false]

def secondApproved : List GrantStep :=
  [⟨"member-b", .request [.terminalView] none, .named "d", false⟩, ⟨"member-c", .request [.terminalView] none, .named "e", false⟩,
    ⟨"member-c", .resolve "grant-req-e" true, .named "f", false⟩]

theorem twoGuests_is_there : ((RelayState.run plainCrypto .start twoGuests).store.invitations.get "inv-a").isSome = true := by
  decide +kernel

theorem terminal_approval_private_twoGuests :
    ∃ w v, (grantRun plainCrypto "inv-a" (RelayState.run plainCrypto .start twoGuests) secondApproved).store.invitations.get
        "inv-a" = some w ∧ (grantRun plainCrypto "inv-a" (RelayState.run plainCrypto .start twoGuests)
        (secondApproved.filter (·.member ≠ "member-c"))).store.invitations.get "inv-a" = some v ∧
      ∀ session : MemberSessionRecord, session.memberId ≠ "member-c" → ∀ node deviceId now,
        shownTo session w node deviceId now = shownTo session v node deviceId now :=
  (terminal_approval_private plainCrypto twoGuests (by decide +kernel) "inv-a" (Option.get _ twoGuests_is_there)
    (Option.some_get twoGuests_is_there).symm (by decide +kernel)).1 "member-c" secondApproved (by decide +kernel)

/-- The log answers a creation of the invitation with these grants, or an approval of them. -/
def Granted (log : List (Except StoreFault Reply)) (invitationId : String) (grants : List ShareGrant) : Prop :=
  (∃ created token ticket, .ok (.created created token ticket) ∈ log ∧ created.invitationId = invitationId ∧
    created.grants = grants) ∨
  ∃ invitation request, .ok (.request invitation request) ∈ log ∧ invitation.invitationId = invitationId ∧
    request.status = .approved ∧ request.requestedGrants = grants

/-- Each of the grants is one of those given, or the terminal viewing that comes with one. -/
def GivenBy (log : List (Except StoreFault Reply)) (invitationId : String) (grants : List ShareGrant) : Prop :=
  ∀ g ∈ grants, ∃ given, Granted log invitationId given ∧ g ∈ normalizeShareGrants given

variable {log : List (Except StoreFault Reply)} {grants added : List ShareGrant} {id : String}

theorem GivenBy.mono (h : GivenBy log id grants) (more : List (Except StoreFault Reply)) : GivenBy (log ++ more) id grants := by
  intro g hg
  obtain ⟨given, hgranted, hmem⟩ := h g hg
  refine ⟨given, ?_, hmem⟩
  rcases hgranted with ⟨created, token, ticket, hlog, hrest⟩ | ⟨invitation, request, hlog, hrest⟩
  · exact .inl ⟨created, token, ticket, mem_append_left _ hlog, hrest⟩
  · exact .inr ⟨invitation, request, mem_append_left _ hlog, hrest⟩

theorem GivenBy.normalize (h : GivenBy log id grants) : GivenBy log id (normalizeShareGrants grants) := by
  intro g hg
  rcases mem_normalize.1 hg with hg | ⟨rfl, hinput⟩
  · exact h g hg
  · obtain ⟨given, hgranted, hmem⟩ := h _ hinput
    exact ⟨given, hgranted, normalize_dependency hmem⟩

theorem GivenBy.of_granted (h : Granted log id grants) : GivenBy log id grants :=
  fun _ hg => ⟨grants, h, mem_normalize.2 (.inl hg)⟩

theorem GivenBy.append (h : GivenBy log id grants) (h' : GivenBy log id added) : GivenBy log id (grants ++ added) :=
  fun g hg => (mem_append.1 hg).elim (h g) (h' g)

theorem create_answers {store : InvitationStore} (input : CreateInput) : ∀ record ∈ (store.create crypto draws input).saves,
    ∃ token ticket, (store.create crypto draws input).answer = .ok (.created record token ticket) := by
  unfold create
  generalize (if input.shareTicket = true then store.createShareTicket draws 0 32 else none) = shareTicket
  simp only
  iterate 2
    split
    · exact fun record h => by cases h
  rintro record h
  cases h
  exact ⟨_, _, rfl⟩

theorem approve_answers {store : InvitationStore} (id requestId : String) :
    ∀ record ∈ (store.resolveGrantRequest draws id requestId true).saves, ∃ old request, store.invitations.get id = some old ∧
      record.invitationId = old.invitationId ∧ request.status = .approved ∧
        record.grants = normalizeShareGrants (old.grants ++ request.requestedGrants) ∧
          (store.resolveGrantRequest draws id requestId true).answer = .ok (.request record request) := by
  unfold resolveGrantRequest
  split
  · exact fun record h => by cases h
  rename_i old hget
  iterate 2
    split
    · exact fun record h => by cases h
  simp only
  split
  · exact fun record h => by cases h
  rename_i request hfound
  split
  · exact fun record h => by cases h
  rintro record h
  cases h
  exact ⟨old, resolved true (draws.clock 1) request, hget, rfl, rfl, rfl, rfl⟩

/-- The grants of the record that a call saves are given by the log with the answer to the call. -/
theorem givenBy_saves {op : InvitationOp} (h : AllRecords (fun r => GivenBy log r.invitationId r.grants) state)
    (hsaves : (state.store.outcome crypto draws op).saves = some r) :
    GivenBy (log ++ [(state.store.outcome crypto draws op).answer]) r.invitationId r.grants := by
  by_cases hcreate : ∃ input, op = .create input
  · obtain ⟨input, rfl⟩ := hcreate
    obtain ⟨token, ticket, hanswer⟩ := create_answers input r hsaves
    exact .of_granted (.inl ⟨r, token, ticket, mem_append_right _ (mem_singleton.2 hanswer.symm), rfl, rfl⟩)
  by_cases hresolve : ∃ invitationId requestId, op = .resolveGrantRequest invitationId requestId true
  · obtain ⟨invitationId, requestId, rfl⟩ := hresolve
    obtain ⟨old, request, hget, hid, hstatus, hgrants, hanswer⟩ := approve_answers invitationId requestId r hsaves
    rw [hgrants, hid]
    refine (((h.1 _ old hget).mono _).append (.of_granted (.inr ?_))).normalize
    exact ⟨r, request, mem_append_right _ (mem_singleton.2 hanswer.symm), hid, hstatus, rfl⟩
  simp only [not_exists] at hcreate hresolve
  have hkept : ∀ {k} {old : InvitationRecord}, state.store.invitations.get k = some old → r.invitationId = old.invitationId →
      r.grants = old.grants → GivenBy (log ++ [(state.store.outcome crypto draws op).answer]) r.invitationId r.grants := by
    intro k old hget hid hgrants
    rw [hid, hgrants]
    exact (h.1 k old hget).mono _
  have hends := outcome_ends crypto state.store draws op
  generalize state.store.outcome crypto draws op = outcome at hsaves hkept hends ⊢
  cases hends with
  | quiet _ | noDate _ _ _ _ => cases hsaves
  | created _ input _ _ hop _ _ => exact absurd hop (hcreate input)
  | edited _ hold hedit =>
    cases hsaves
    refine hkept hold hedit.invitationId ?_
    cases hedit <;> rfl
  | policy _ hold _ hedit =>
    cases hsaves
    refine hkept hold hedit.invitationId ?_
    cases hedit with
    | approved _ _ _ _ => exact absurd rfl (hresolve _ _)
    | revoked _ => rfl

/-- In every run, whatever fails to be saved and whenever the relay restarts: a grant that a record has was given to the
invitation when it was created or by the approval of a request. -/
theorem grants_given (crypto : TokenCrypto) (past : List RelayEvent) :
    AllRecords (fun r => GivenBy (RelayState.replies crypto .start past) r.invitationId r.grants)
      (RelayState.run crypto .start past) := by
  suffices hall : Paired (RelayState.run crypto .start past) ∧
      AllRecords (fun r => GivenBy (RelayState.replies crypto .start past) r.invitationId r.grants)
        (RelayState.run crypto .start past) from hall.2
  induction past using reverseRecOn with
  | nil => exact ⟨.start, .start _⟩
  | append_singleton past event ih =>
    obtain ⟨hpaired, hgiven⟩ := ih
    rw [run_concat, replies_concat]
    refine ⟨hpaired.next event, ?_⟩
    have hmono : ∀ more, AllRecords (fun r => GivenBy (RelayState.replies crypto .start past ++ more) r.invitationId r.grants)
        (RelayState.run crypto .start past) :=
      fun more => ⟨fun id r hget => (hgiven.1 id r hget).mono more, fun id r hget => (hgiven.2 id r hget).mono more⟩
    cases event with
    | restart => exact (hmono _).restart hpaired fun r => GivenBy.normalize
    | call op draws saveThrows =>
      cases saveThrows with
      | true => exact (hmono _).settle_failed
      | false =>
        refine (hmono _).settle (fun r hsaves => ?_) false
        have hanswer : RelayState.replies crypto (RelayState.run crypto .start past) [.call op draws false] =
            [((RelayState.run crypto .start past).store.outcome crypto draws op).answer] := by
          simp [RelayState.replies, InvitationStore.answer]
        rw [hanswer]
        exact givenBy_saves hgiven hsaves

end Kookr.Relay
