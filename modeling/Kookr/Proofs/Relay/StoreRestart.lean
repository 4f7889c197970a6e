import Kookr.Sanity.Relay.StoreIndexes

/-! Saves of invitations that throw, and the policy versions. The counter moves before the save: a save that throws leaves a
version behind that no row has, and a restart takes it back. -/

namespace Kookr.Relay

open Kookr.Lib InvitationStore RelayState Nat

/-- The grants of the nodes as a policy sync sends them under one version. -/
structure Publication where
  version : ℕ
  revoked : String → List String
  active : String → ℤ → List PolicyGrantRecord

def InvitationStore.publication (store : InvitationStore) : Publication :=
  ⟨store.currentPolicyVersion, store.revokedGrantIdsForNode, store.activePolicyGrantsForNode⟩

/-- The call took a new version and was answered: an invitation created or revoked, or a request approved. -/
def RelayState.publishes (crypto : TokenCrypto) (state : RelayState) : RelayEvent → Bool
  | .call op draws saveThrows =>
    let outcome := state.store.outcome crypto draws op
    outcome.policyVersion ≠ state.store.policyVersion &&
      match answer outcome saveThrows with
      | .ok _ => true
      | .error _ => false
  | .restart => false

/-- The grants that result from such calls, in the order of the run. -/
def RelayState.publications (crypto : TokenCrypto) : RelayState → List RelayEvent → List Publication
  | _, [] => []
  | state, event :: events =>
    let next := state.next crypto event
    if state.publishes crypto event then next.store.publication :: next.publications crypto events
    else next.publications crypto events

def VersionReachesRows (state : RelayState) : RelayEvent → Prop
  | .call op draws saveThrows => VersionSaved state.store draws saveThrows op
  | .restart => True

instance (state : RelayState) : (event : RelayEvent) → Decidable (VersionReachesRows state event)
  | .call op draws saveThrows => inferInstanceAs (Decidable (VersionSaved state.store draws saveThrows op))
  | .restart => isTrue trivial

variable {crypto : TokenCrypto} {state : RelayState} {event : RelayEvent} {events : List RelayEvent}

/-- The rows and the counter belong to the store. -/
structure Accounted (state : RelayState) : Prop extends Paired state, Versioned state

theorem Accounted.next (h : Accounted state) (hsaved : VersionReachesRows state event) : Accounted (state.next crypto event) := by
  cases event with
  | call op draws saveThrows => exact ⟨h.toPaired.next _, h.toVersioned.settle h.toPaired (outcome_ends crypto state.store draws op) hsaved⟩
  | restart => exact ⟨h.toPaired.restart, h.toVersioned.restart⟩

theorem Accounted.run (h : Accounted state) (hsaved : StepsMeet (step crypto) VersionReachesRows state events) :
    Accounted (state.run crypto events) := by
  have hstep : ∀ state event state', Accounted state → VersionReachesRows state event →
      step crypto state event = some state' → Accounted state' := by
    intro state event state' h hsaved hstep
    cases hstep
    exact h.next hsaved
  exact exec_invariant hstep h hsaved (exec_step crypto state events)

/-- A save that throws where no new version was taken leaves everything as it was. -/
theorem next_of_throws {op : InvitationOp} {draws : Draws} (hsaved : VersionReachesRows state (.call op draws true)) :
    state.next crypto (.call op draws true) = state := by
  have hsettle : ∀ outcome, Ends crypto state.store draws op outcome → state.settle outcome true = state := by
    intro outcome hends
    have hkept : state.store.advancesVersion draws op ≠ true := fun hadvances => absurd (hsaved hadvances).1 (by decide)
    cases hends with
    | quiet _ => rfl
    | noDate _ _ hadvances _ | created _ _ _ _ _ hadvances _ => exact absurd hadvances hkept
    | edited _ _ _ => rfl
    | policy _ _ hadvances _ => exact absurd hadvances hkept
  exact hsettle _ (outcome_ends crypto state.store draws op)

theorem settle_policyVersion (state : RelayState) (outcome : Outcome) (saveThrows : Bool) :
    (state.settle outcome saveThrows).store.policyVersion = outcome.policyVersion := by
  obtain ⟨answer, policyVersion, saves⟩ := outcome
  cases saves with
  | none => rfl
  | some record => cases saveThrows <;> rfl

theorem le_outcome_policyVersion {op : InvitationOp} {draws : Draws} :
    state.store.policyVersion ≤ (state.store.outcome crypto draws op).policyVersion := by
  have hends : ∀ outcome, Ends crypto state.store draws op outcome → state.store.policyVersion ≤ outcome.policyVersion := by
    intro outcome hends
    cases hends with
    | quiet _ => exact le_refl _
    | noDate _ _ _ _ | created _ _ _ _ _ _ _ => exact le_succ _
    | edited _ _ _ => exact le_refl _
    | policy _ _ _ _ => exact le_succ _
  exact hends _ (outcome_ends crypto state.store draws op)

theorem Accounted.le_next (h : Accounted state) (crypto : TokenCrypto) (event : RelayEvent) :
    state.store.policyVersion ≤ (state.next crypto event).store.policyVersion := by
  cases event with
  | call op draws saveThrows =>
    unfold RelayState.next
    rw [settle_policyVersion]
    exact le_outcome_policyVersion
  | restart => exact le_of_eq h.policyVersion_load.symm

theorem lt_of_publishes (h : state.publishes crypto event = true) :
    state.store.policyVersion < (state.next crypto event).store.policyVersion := by
  cases event with
  | call op draws saveThrows =>
    unfold next
    rw [settle_policyVersion]
    unfold publishes at h
    simp only [Bool.and_eq_true, decide_eq_true_eq] at h
    exact lt_of_le_of_ne le_outcome_policyVersion (Ne.symm h.1)
  | restart => cases h

theorem Accounted.le_run (h : Accounted state) (hsaved : StepsMeet (step crypto) VersionReachesRows state events) :
    state.store.policyVersion ≤ (state.run crypto events).store.policyVersion := by
  induction events generalizing state with
  | nil => exact le_refl _
  | cons event events ih =>
    exact le_trans (h.le_next crypto event) (ih (h.next hsaved.1) (hsaved.2 _ rfl))

theorem Accounted.publications_increase (h : Accounted state) (hsaved : StepsMeet (step crypto) VersionReachesRows state events) :
    (∀ p ∈ state.publications crypto events, state.store.policyVersion < p.version) ∧
      (state.publications crypto events).Pairwise fun p q => p.version < q.version := by
  induction events generalizing state with
  | nil => exact ⟨nofun, List.Pairwise.nil⟩
  | cons event events ih =>
    obtain ⟨habove, hpairwise⟩ := ih (h.next hsaved.1) (hsaved.2 _ rfl)
    have hle := h.le_next crypto event
    unfold publications
    split
    · rename_i hpublishes
      refine ⟨fun p hp => ?_, List.pairwise_cons.2 ⟨habove, hpairwise⟩⟩
      rcases List.mem_cons.1 hp with rfl | hp
      · exact lt_of_publishes hpublishes
      · exact lt_of_le_of_lt hle (habove p hp)
    · exact ⟨fun p hp => lt_of_le_of_lt hle (habove p hp), hpairwise⟩

/-- While every new version reaches the rows, a save that throws leaves the store and its rows untouched, the version never
goes down, restarts included, and the grants that result from a call are under a version of their own. -/
theorem versions_kept (crypto : TokenCrypto) (events : List RelayEvent)
    (hsaved : StepsMeet (step crypto) VersionReachesRows .start events) :
    (∀ before op draws after, events = before ++ .call op draws true :: after →
      (run crypto .start before).next crypto (.call op draws true) = run crypto .start before) ∧
    (∀ before after, events = before ++ after → (run crypto .start before).store.currentPolicyVersion ≤
        (run crypto .start events).store.currentPolicyVersion) ∧
    (start.publications crypto events).Pairwise fun p q => p.version ≠ q.version := by
  have hstart : Accounted start := ⟨.start, .start⟩
  refine ⟨?_, ?_, ?_⟩
  · rintro before op draws after rfl
    obtain ⟨-, hlater⟩ := hsaved.append (exec_step crypto .start before)
    exact next_of_throws hlater.1
  · rintro before after rfl
    obtain ⟨hbefore, hafter⟩ := hsaved.append (exec_step crypto .start before)
    have hrun : run crypto .start (before ++ after) =
        (run crypto .start before).run crypto after := List.foldl_append
    rw [hrun]
    exact (hstart.run hbefore).le_run hafter
  · exact (hstart.publications_increase hsaved).2.imp ne_of_lt

/-- An invitation whose acceptance is not saved, accepted again and revoked, with a restart before the end. -/
def unsavedAcceptance : List RelayEvent :=
  [.call (.create (taskShare [.view])) (.named "a") false, .call (.accept "kookr_inv_v1_a" none none) (.named "b") true,
    .call (.accept "kookr_inv_v1_a" none none) (.named "c") false, .restart, .call (.revoke "inv-a") (.named "d") false]

theorem versions_kept_unsavedAcceptance : (run plainCrypto .start (unsavedAcceptance.take 1)).next plainCrypto
        (.call (.accept "kookr_inv_v1_a" none none) (.named "b") true) = run plainCrypto .start (unsavedAcceptance.take 1) ∧
    (start.publications plainCrypto unsavedAcceptance).Pairwise fun p q => p.version ≠ q.version :=
  have hkept := versions_kept plainCrypto unsavedAcceptance (by decide +kernel)
  ⟨hkept.1 (unsavedAcceptance.take 1) _ _ (unsavedAcceptance.drop 2) rfl, hkept.2.2⟩

/-- The save of a new invitation throws: the version has moved all the same, and a restart takes it back. -/
theorem version_of_failed_create :
    let failed := start.next plainCrypto (.call (.create (taskShare [.view])) (.named "a") true)
    failed.store.currentPolicyVersion ≠ start.store.currentPolicyVersion ∧
      (failed.next plainCrypto .restart).store.currentPolicyVersion < failed.store.currentPolicyVersion := by
  decide +kernel

end Kookr.Relay

/-! A restart of the relay and its invitations. The records are normalised when they are loaded; a request is normalised
before the grants that the invitation has are taken out of it, so what is filed need not be normal. While every record saved
is normal and every new version is saved, a load of the rows is the running store. -/

namespace Kookr.Relay

open Kookr.Lib InvitationStore

/-- The readers of two stores, side by side. -/
structure SameReadings (crypto : TokenCrypto) (a b : InvitationStore) : Prop where
  list : a.list = b.list
  authenticateMember : ∀ token now, a.authenticateMember crypto token now = b.authenticateMember crypto token now
  activePolicyGrantsForNode : ∀ nodeId now, a.activePolicyGrantsForNode nodeId now = b.activePolicyGrantsForNode nodeId now
  revokedGrantIdsForNode : ∀ nodeId, a.revokedGrantIdsForNode nodeId = b.revokedGrantIdsForNode nodeId
  currentPolicyVersion : a.currentPolicyVersion = b.currentPolicyVersion

theorem SameReadings.refl (crypto : TokenCrypto) (store : InvitationStore) : SameReadings crypto store store :=
  ⟨rfl, fun _ _ => rfl, fun _ _ => rfl, fun _ => rfl, rfl⟩

/-- A request that is filed with terminal input has terminal viewing with it. -/
def KeepsTerminalView (store : InvitationStore) (draws : Draws) : InvitationOp → Prop
  | .requestGrants input => ∀ invitation ∈ store.invitations.get input.invitationId,
    admitsRequest invitation draws input = true → .terminalInput ∈ grantsToRequest invitation input.requestedGrants →
      .terminalView ∈ grantsToRequest invitation input.requestedGrants
  | _ => True

instance (store : InvitationStore) (draws : Draws) : (op : InvitationOp) → Decidable (KeepsTerminalView store draws op)
  | .requestGrants input =>
    inferInstanceAs (Decidable (∀ invitation ∈ store.invitations.get input.invitationId, admitsRequest invitation draws input = true →
      .terminalInput ∈ grantsToRequest invitation input.requestedGrants →
        .terminalView ∈ grantsToRequest invitation input.requestedGrants))
  | .create _ | .accept .. | .acceptTicket .. | .resetShareTicket _ | .ensureMemberBrowserSession .. | .acquireControllerLease _
  | .resolveGrantRequest .. | .revoke _ => isTrue trivial

/-- A call with new ids and tokens whose new version is saved and whose request is filed as a load would read it. -/
def RestartSafe (crypto : TokenCrypto) (state : RelayState) : RelayEvent → Prop
  | .call op draws saveThrows => Fresh crypto state.store draws ∧ VersionSaved state.store draws saveThrows op ∧
    KeepsTerminalView state.store draws op
  | .restart => True

instance (crypto : TokenCrypto) (state : RelayState) : (event : RelayEvent) → Decidable (RestartSafe crypto state event)
  | .call op draws saveThrows => inferInstanceAs (Decidable (Fresh crypto state.store draws ∧
      VersionSaved state.store draws saveThrows op ∧ KeepsTerminalView state.store draws op))
  | .restart => isTrue trivial

def Normal (r : InvitationRecord) : Prop := normalizeInvitationRecord r = r

theorem normalizeGrantRequest_eq_self {request : TaskShareGrantRequest} : normalizeGrantRequest request = request ↔
    normalizeTerminalGrantDependency request.requestedGrants = request.requestedGrants := by
  constructor
  · exact fun h => congrArg TaskShareGrantRequest.requestedGrants h
  · intro h
    unfold normalizeGrantRequest normalizeMutableShareGrants
    rw [h]

theorem normal_iff (r : InvitationRecord) : Normal r ↔ normalizeTerminalGrantDependency r.grants = r.grants ∧
    ∀ request ∈ r.requests, normalizeTerminalGrantDependency request.requestedGrants = request.requestedGrants := by
  have hrequests : (normalizeInvitationRecord r).requests = r.requests.map normalizeGrantRequest := by
    cases hreq : r.grantRequests <;> simp [normalizeInvitationRecord, InvitationRecord.requests, hreq]
  constructor
  · intro h
    refine ⟨congrArg InvitationRecord.grants h, fun request hmem => normalizeGrantRequest_eq_self.1 ?_⟩
    have hmap : r.requests.map normalizeGrantRequest = r.requests.map id := by
      rw [List.map_id, ← hrequests]
      exact congrArg InvitationRecord.requests h
    exact List.map_inj_left.1 hmap request hmem
  · rintro ⟨hgrants, hreq⟩
    have hmap : (r.grantRequests.map fun requests => requests.map normalizeGrantRequest) = r.grantRequests := by
      cases hcases : r.grantRequests with
      | none => rfl
      | some requests =>
        refine congrArg some ((List.map_inj_left.2 fun request hmem => ?_).trans (List.map_id requests))
        refine normalizeGrantRequest_eq_self.2 (hreq request ?_)
        rw [InvitationRecord.requests, hcases]
        exact hmem
    unfold Normal normalizeInvitationRecord normalizeShareGrants
    rw [hgrants, hmap]

theorem grantsToRequest_nodup (invitation : InvitationRecord) (requestedGrants : List ShareGrant) :
    (grantsToRequest invitation requestedGrants).Nodup := by
  unfold grantsToRequest
  simp only
  split
  · exact normalize_nodup _
  · exact (normalize_nodup _).filter _

variable {crypto : TokenCrypto} {store : InvitationStore} {draws : Draws} {op : InvitationOp}
  {old record : InvitationRecord} {outcome : Outcome} {state : RelayState} {saveThrows : Bool}

theorem InvitationStore.Edit.normal (h : Edit crypto store draws old op record) (hold : Normal old)
    (hview : KeepsTerminalView store draws op) : Normal record := by
  rw [normal_iff] at hold ⊢
  cases h with
  | firstMember _ _ _ _ | newSession _ _ | failedAccept _ | ticketReset _ | browserDevice _ | browserSession _ _ _ _ _ | lease _ => exact hold
  | request input _ hget hadmits =>
    refine ⟨hold.1, fun request hmem => ?_⟩
    rcases List.mem_append.1 hmem with hmem | hmem
    · exact hold.2 request hmem
    · rw [List.mem_singleton.1 hmem]
      exact normalize_eq_self (grantsToRequest_nodup old input.requestedGrants) (hview old hget hadmits)
  | denied _ request _ hfound =>
    refine ⟨hold.1, fun candidate hmem => ?_⟩
    obtain ⟨candidate', hmem', rfl⟩ := List.mem_map.1 hmem
    split
    · exact hold.2 request (List.mem_of_find?_eq_some hfound)
    · exact hold.2 candidate' hmem'

theorem InvitationStore.PolicyEdit.normal (h : PolicyEdit store draws old op record) (hold : Normal old) : Normal record := by
  rw [normal_iff] at hold ⊢
  cases h with
  | approved _ request _ hfound =>
    refine ⟨normalize_normalize _, fun candidate hmem => ?_⟩
    obtain ⟨candidate', hmem', rfl⟩ := List.mem_map.1 hmem
    split
    · exact hold.2 request (List.mem_of_find?_eq_some hfound)
    · exact hold.2 candidate' hmem'
  | revoked _ => exact hold

/-- The rows are the records of the store, and they are normal. -/
structure Settled (state : RelayState) : Prop extends Mirrored state, Versioned state where
  same : state.rows = state.store.invitations
  normal : ∀ id r, state.rows.get id = some r → Normal r

namespace Settled

theorem start : Settled RelayState.start where
  toMirrored := .start
  toVersioned := .start
  same := rfl
  normal := fun _ _ h => by cases h

theorem load_eq (h : Settled state) : InvitationStore.load state.rows.values = state.store := by
  have hnormal : ∀ r ∈ state.rows.values, normalizeInvitationRecord r = r := by
    intro r hr
    obtain ⟨id, hget⟩ := (OrderedMap.mem_values_iff _ _).1 hr
    exact h.normal id r hget
  let normalized (m : OrderedMap String InvitationRecord) (r : InvitationRecord) :=
    m.set r.invitationId (normalizeInvitationRecord r)
  have hmap : state.rows.values.foldl normalized .empty = state.rows.values.foldl (fun m r => m.set r.invitationId r) .empty :=
    List.foldl_ext _ _ _ fun m r hr => congrArg (m.set r.invitationId) (hnormal r hr)
  have hversion := h.policyVersion_load
  rw [InvitationStore.load, foldl_loadRecord] at hversion ⊢
  refine InvitationStore.ext ?_ ?_ ?_ ?_ hversion
  · exact (hmap.trans (SecondaryIndex.rebuild_map h.self)).trans h.same
  · exact SecondaryIndex.rebuild_index h.tokens h.self
  · exact SecondaryIndex.rebuild_index h.shares h.self
  · exact SecondaryIndex.rebuild_index h.members h.self

theorem restart_eq (h : Settled state) : state.next crypto .restart = state := by
  unfold RelayState.next
  rw [h.load_eq]

theorem settle (h : Settled state) (hends : Ends crypto state.store draws op outcome)
    (hfresh : Fresh crypto state.store draws) (hsaved : VersionSaved state.store draws saveThrows op)
    (hview : KeepsTerminalView state.store draws op) : Settled (state.settle outcome saveThrows) where
  toMirrored := h.toMirrored.settle hfresh hends saveThrows
  toVersioned := h.toVersioned.settle h.toPaired hends hsaved
  same := by
    obtain ⟨answer, policyVersion, saves⟩ := outcome
    cases saves with
    | none => exact h.same
    | some record =>
      cases saveThrows with
      | true => exact h.same
      | false => exact congrArg (OrderedMap.set · record.invitationId record) h.same
  normal := by
    have hput : ∀ record : InvitationRecord, Normal record → ∀ id r,
        (state.rows.set record.invitationId record).get id = some r → Normal r := by
      intro record hrecord id r hget
      rw [OrderedMap.get_set] at hget
      split at hget
      · rw [← Option.some.inj hget]
        exact hrecord
      · exact h.normal id r hget
    cases saveThrows with
    | true => cases hends <;> exact h.normal
    | false =>
      cases hends with
      | quiet _ | noDate _ _ _ _ => exact h.normal
      | created _ input expiresAt shareTicket _ _ _ =>
        refine hput _ ((normal_iff _).2 ⟨normalize_normalize _, fun request hmem => ?_⟩)
        cases hmem
      | edited _ hold hedit => exact hput _ (hedit.normal (h.normal _ _ (h.same ▸ hold)) hview)
      | policy _ hold _ hedit => exact hput _ (hedit.normal (h.normal _ _ (h.same ▸ hold)))

theorem run (past : List RelayEvent) (hsafe : StepsMeet (RelayState.step crypto) (RestartSafe crypto) .start past) :
    Settled (RelayState.run crypto .start past) := by
  have hstep : ∀ state event state', Settled state → RestartSafe crypto state event →
      RelayState.step crypto state event = some state' → Settled state' := by
    intro state event state' h hok hstep
    cases hstep
    cases event with
    | call op draws saveThrows => exact h.settle (outcome_ends crypto state.store draws op) hok.1 hok.2.1 hok.2.2
    | restart =>
      rw [h.restart_eq]
      exact h
  exact exec_invariant hstep start hsafe (RelayState.exec_step crypto .start past)

end Settled

/-- Whatever has been filed and saved as a load would read it, a restart changes no later answer and no later reading. -/
theorem restart_unobservable (crypto : TokenCrypto) (past : List RelayEvent)
    (hsafe : StepsMeet (RelayState.step crypto) (RestartSafe crypto) .start past) (future : List RelayEvent) :
    let before := RelayState.run crypto .start past
    let after := before.next crypto .restart
    after.replies crypto future = before.replies crypto future ∧
      SameReadings crypto (after.run crypto future).store (before.run crypto future).store := by
  intro before after
  have hsame : after = before := (Settled.run past hsafe).restart_eq
  rw [hsame]
  exact ⟨rfl, .refl crypto _⟩

def joinedRun (grants : List ShareGrant) : List RelayEvent :=
  [.call (.create (taskShare grants)) (.named "a") false, .call (.accept "kookr_inv_v1_a" none none) (.named "b") false]

def asks (grants : List ShareGrant) (name : String) : RelayEvent :=
  .call (.requestGrants ⟨"inv-a", grants, some "member-b", none⟩) (.named name) false

theorem restart_unobservable_terminalInput :
    let before := RelayState.run plainCrypto .start (joinedRun [.view] ++ [asks [.terminalInput] "c"])
    let after := before.next plainCrypto .restart
    after.replies plainCrypto [asks [.terminalInput] "d"] = before.replies plainCrypto [asks [.terminalInput] "d"] ∧
      SameReadings plainCrypto (after.run plainCrypto [asks [.terminalInput] "d"]).store
        (before.run plainCrypto [asks [.terminalInput] "d"]).store :=
  restart_unobservable plainCrypto (joinedRun [.view] ++ [asks [.terminalInput] "c"]) (by decide +kernel)
    [asks [.terminalInput] "d"]

/-- Terminal input asked for where terminal viewing is granted: asked for again, it is pending, and after a restart it is
filed once more. -/
theorem restart_files_again :
    let before := RelayState.run plainCrypto .start (joinedRun [.view, .terminalView] ++ [asks [.terminalInput] "c"])
    let after := before.next plainCrypto .restart
    before.replies plainCrypto [asks [.terminalInput] "d"] = [.ok (.refused .alreadyPending)] ∧
      after.replies plainCrypto [asks [.terminalInput] "d"] ≠ [.ok (.refused .alreadyPending)] ∧
      after.store.list ≠ before.store.list := by
  decide +kernel

end Kookr.Relay
