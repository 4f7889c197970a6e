import Kookr.Lib.SecondaryIndex
import Kookr.Sanity.Relay.StoreSteps

/-! The index maps of the invitation store lead to the records that the rows hold, over every run with new ids and tokens. -/

namespace Kookr.Relay

open Kookr.Lib Kookr.Lib.SecondaryIndex OrderedMap List Option

namespace InvitationRecord

def tokenKeys (invitation : InvitationRecord) : List String := [invitation.tokenHash]

def shareKeys (invitation : InvitationRecord) : List String := (nonEmpty invitation.shareId).toList

def memberKeys (invitation : InvitationRecord) : List String :=
  (nonEmpty invitation.memberTokenHash).toList ++ invitation.sessions.map MemberSessionRecord.memberTokenHash

variable (r : InvitationRecord)

@[simp] theorem normalize_invitationId :
    (normalizeInvitationRecord r).invitationId = r.invitationId := rfl

@[simp] theorem normalize_tokenKeys : (normalizeInvitationRecord r).tokenKeys = r.tokenKeys := rfl

@[simp] theorem normalize_shareKeys : (normalizeInvitationRecord r).shareKeys = r.shareKeys := rfl

@[simp] theorem normalize_memberKeys :
    (normalizeInvitationRecord r).memberKeys = r.memberKeys := rfl

@[simp] theorem normalize_policyVersion :
    (normalizeInvitationRecord r).policyVersion = r.policyVersion := rfl

end InvitationRecord

open InvitationRecord

theorem normalize_nodup (grants : List ShareGrant) : (normalizeTerminalGrantDependency grants).Nodup := nodup_eraseDups _

variable {grants : List ShareGrant}

theorem mem_normalize {g : ShareGrant} : g ∈ normalizeTerminalGrantDependency grants ↔
    g ∈ grants ∨ (g = .terminalView ∧ .terminalInput ∈ grants) := by
  unfold normalizeTerminalGrantDependency
  simp only [mem_eraseDups]
  split_ifs with h
  · rw [mem_insertIdx (idxOf_le_length)]
    constructor
    · rintro (rfl | hmem)
      · exact .inr ⟨rfl, h.1⟩
      · exact .inl hmem
    · rintro (hmem | ⟨rfl, _⟩)
      · exact .inr hmem
      · exact .inl rfl
  · refine ⟨.inl, ?_⟩
    rintro (hmem | ⟨rfl, hinput⟩)
    · exact hmem
    · by_contra hview
      exact h ⟨hinput, hview⟩

theorem normalize_dependency (h : .terminalInput ∈ normalizeTerminalGrantDependency grants) :
    .terminalView ∈ normalizeTerminalGrantDependency grants := by
  rw [mem_normalize] at h ⊢
  rcases h with h | ⟨h, _⟩
  · exact .inr ⟨rfl, h⟩
  · cases h

theorem normalize_eq_self (hnodup : grants.Nodup)
    (hview : .terminalInput ∈ grants → .terminalView ∈ grants) : normalizeTerminalGrantDependency grants = grants := by
  unfold normalizeTerminalGrantDependency
  rw [if_neg fun h => h.2 (hview h.1), eraseDups_eq_self hnodup]

@[simp] theorem normalize_normalize (grants : List ShareGrant) :
    normalizeTerminalGrantDependency (normalizeTerminalGrantDependency grants) = normalizeTerminalGrantDependency grants :=
  normalize_eq_self (normalize_nodup grants) normalize_dependency

@[simp] theorem normalizeInvitationRecord_idem (r : InvitationRecord) :
    normalizeInvitationRecord (normalizeInvitationRecord r) = normalizeInvitationRecord r := by
  cases hrequests : r.grantRequests with
  | none => simp [normalizeInvitationRecord, normalizeShareGrants, hrequests]
  | some requests =>
    simp [normalizeInvitationRecord, normalizeShareGrants, hrequests, normalizeGrantRequest, normalizeMutableShareGrants]

namespace InvitationStore

variable {crypto : TokenCrypto} {store : InvitationStore} {draws : Draws} {op : InvitationOp}
  {old record : InvitationRecord}

theorem remember_tokenIndex (store : InvitationStore) (r : InvitationRecord) :
    (store.remember r).invitationTokenIndex = setAll store.invitationTokenIndex r.tokenKeys r.invitationId :=
  foldl_update store.invitationTokenIndex r.tokenKeys r.invitationId

theorem remember_shareIdIndex (store : InvitationStore) (r : InvitationRecord) :
    (store.remember r).shareIdIndex = setAll store.shareIdIndex r.shareKeys r.invitationId := by
  rw [← foldl_update]
  unfold remember shareKeys
  cases nonEmpty r.shareId <;> rfl

theorem remember_memberTokenIndex (store : InvitationStore) (r : InvitationRecord) :
    (store.remember r).memberTokenIndex = setAll store.memberTokenIndex r.memberKeys r.invitationId := by
  rw [← foldl_update]
  unfold remember memberKeys
  rw [foldl_append, foldl_map]
  cases nonEmpty r.memberTokenHash <;> rfl

/-- The ids and tokens that a call draws are new to the store. -/
structure Fresh (crypto : TokenCrypto) (store : InvitationStore) (draws : Draws) : Prop where
  invitationId : store.invitations.get ("inv-" ++ draws.uuid 0) = none
  invitationToken : store.invitationTokenIndex (crypto.hashToken (draws.token "kookr_inv_v1" 0)) = none
  memberToken : store.memberTokenIndex (crypto.hashToken (draws.token "kookr_member_v1" 0)) = none

instance (crypto : TokenCrypto) (store : InvitationStore) (draws : Draws) : Decidable (Fresh crypto store draws) :=
  decidable_of_iff (store.invitations.get ("inv-" ++ draws.uuid 0) = none ∧
      store.invitationTokenIndex (crypto.hashToken (draws.token "kookr_inv_v1" 0)) = none ∧
      store.memberTokenIndex (crypto.hashToken (draws.token "kookr_member_v1" 0)) = none)
    ⟨fun h => ⟨h.1, h.2.1, h.2.2⟩, fun h => ⟨h.1, h.2, h.3⟩⟩

section

variable (h : Edit crypto store draws old op record)
include h

theorem Edit.invitationId : record.invitationId = old.invitationId := by
  cases h <;> rfl

theorem Edit.tokenKeys : record.tokenKeys = old.tokenKeys := by
  cases h <;> rfl

theorem Edit.shareKeys : record.shareKeys = old.shareKeys := by
  cases h <;> rfl

theorem Edit.policyVersion : record.policyVersion = old.policyVersion := by
  cases h <;> rfl

end

section

variable (h : PolicyEdit store draws old op record)
include h

theorem PolicyEdit.invitationId : record.invitationId = old.invitationId := by
  cases h <;> rfl

theorem PolicyEdit.tokenKeys : record.tokenKeys = old.tokenKeys := by
  cases h <;> rfl

theorem PolicyEdit.shareKeys : record.shareKeys = old.shareKeys := by
  cases h <;> rfl

theorem PolicyEdit.memberKeys : record.memberKeys = old.memberKeys := by
  cases h <;> rfl

theorem PolicyEdit.policyVersion : record.policyVersion = store.policyVersion + 1 := by
  cases h <;> rfl

/-- Before anybody has accepted there is nothing of a member on the record. -/
def Unjoined (invitation : InvitationRecord) : Prop :=
  invitation.acceptedAt = none → invitation.memberTokenHash = none ∧ invitation.memberSessions = none

omit h in
theorem Edit.unjoined (h : Edit crypto store draws old op record) (hold : Unjoined old) : Unjoined record := by
  cases h with
  | firstMember _ _ _ _ => intro hacc; cases hacc
  | newSession _ hacc =>
    intro hnone
    rw [show old.acceptedAt = none from hnone] at hacc
    cases hacc
  | failedAccept _ | ticketReset _ | browserDevice _ | browserSession _ _ _ _ _ | lease _ | request _ _ _ _ | denied _ _ _ _ => exact hold

theorem PolicyEdit.unjoined (hold : Unjoined old) : Unjoined record := by
  cases h <;> exact hold

end

theorem Edit.memberKeys_subset (h : Edit crypto store draws old op record) (hold : Unjoined old) :
    old.memberKeys ⊆ record.memberKeys := by
  cases h with
  | firstMember _ _ _ hnew =>
    obtain ⟨hhash, hsessions⟩ := hold hnew
    simp [memberKeys, InvitationRecord.sessions, hhash, hsessions, nonEmpty]
  | newSession _ _ => simp [memberKeys, InvitationRecord.sessions]
  | failedAccept _ | ticketReset _ | browserDevice _ | browserSession _ _ _ _ _ | lease _ | request _ _ _ _ | denied _ _ _ _ =>
    exact List.Subset.refl _

theorem Edit.mem_memberKeys (h : Edit crypto store draws old op record) {key : String} (hkey : key ∈ record.memberKeys) :
    key ∈ old.memberKeys ∨ key = crypto.hashToken (draws.token "kookr_member_v1" 0) := by
  cases h with
  | @firstMember _ d hd acceptedBy deviceId _ =>
    have hkeys : (InvitationStore.firstMember crypto d old acceptedBy deviceId).memberKeys =
        (nonEmpty (some (crypto.hashToken (d.token "kookr_member_v1" 0)))).toList ++
          [crypto.hashToken (d.token "kookr_member_v1" 0)] := rfl
    rw [hkeys, hd.token, mem_append, mem_singleton, mem_toList] at hkey
    rcases hkey with hkey | hkey
    · exact .inr (some.inj (filter_eq_some_iff.1 hkey).1).symm
    · exact .inr hkey
  | @newSession _ _ acceptedBy deviceId d hd _ =>
    have hhash : (InvitationStore.newSession crypto d acceptedBy deviceId).memberTokenHash =
        crypto.hashToken (draws.token "kookr_member_v1" 0) := by
      rw [← hd.token]
      rfl
    simp only [memberKeys, InvitationRecord.sessions, getD_some, map_append, map_cons, map_nil, hhash,
      mem_append, mem_singleton] at hkey ⊢
    tauto
  | failedAccept _ | ticketReset _ | browserDevice _ | browserSession _ _ _ _ _ | lease _ | request _ _ _ _ | denied _ _ _ _ => exact .inl hkey

theorem foldl_loadRecord (rs : List InvitationRecord) (store : InvitationStore) : rs.foldl loadRecord store =
    { invitations := rs.foldl (fun m r => m.set r.invitationId (normalizeInvitationRecord r)) store.invitations
      invitationTokenIndex := rs.foldl (fun index r => setAll index r.tokenKeys r.invitationId) store.invitationTokenIndex
      shareIdIndex := rs.foldl (fun index r => setAll index r.shareKeys r.invitationId) store.shareIdIndex
      memberTokenIndex := rs.foldl (fun index r => setAll index r.memberKeys r.invitationId) store.memberTokenIndex
      policyVersion := rs.foldl (fun version r => max version r.policyVersion) store.policyVersion } := by
  induction rs generalizing store with
  | nil => rfl
  | cons r rs ih =>
    rw [foldl_cons, ih]
    simp only [loadRecord, remember_tokenIndex, remember_shareIdIndex, remember_memberTokenIndex, normalize_tokenKeys,
      normalize_shareKeys, normalize_memberKeys, normalize_invitationId, foldl_cons]
    rfl

theorem get_load {rows : OrderedMap String InvitationRecord} (hself : SelfKeyed InvitationRecord.invitationId rows)
    (id : String) : (load rows.values).invitations.get id = (rows.get id).map normalizeInvitationRecord := by
  have hkeys : rows.values.map InvitationRecord.invitationId = rows.keys :=
    values_map_eq_keys rows _ hself
  unfold load
  rw [foldl_loadRecord]
  cases hget : rows.get id with
  | none =>
    have hnot : id ∉ rows.values.map InvitationRecord.invitationId := hkeys ▸ (get_eq_none_iff rows id).1 hget
    exact get_foldl_set_of_not_mem _ _ hnot .empty
  | some r =>
    obtain rfl := hself id r hget
    have hmem : r ∈ rows.values := (mem_values_iff rows r).2 ⟨_, hget⟩
    exact get_foldl_set_of_mem _ _ (hkeys ▸ rows.nodup_keys) hmem .empty

end InvitationStore

open InvitationStore

/-- The store has the rows, as a load would read them. -/
structure Paired (state : RelayState) : Prop where
  self : SelfKeyed InvitationRecord.invitationId state.rows
  agrees : ∀ id, (state.store.invitations.get id).map normalizeInvitationRecord =
    (state.rows.get id).map normalizeInvitationRecord

section

variable {crypto : TokenCrypto} {state : RelayState} {draws : Draws} {op : InvitationOp} {id : String}
  {old row record : InvitationRecord} {outcome : Outcome}

/-- What the normalised records have in common the records have in common. -/
theorem same_keys (hnorm : normalizeInvitationRecord row = normalizeInvitationRecord old) :
    row.invitationId = old.invitationId ∧ row.tokenKeys = old.tokenKeys ∧ row.shareKeys = old.shareKeys ∧
      row.memberKeys = old.memberKeys ∧ row.policyVersion = old.policyVersion := by
  refine ⟨?_, ?_, ?_, ?_, ?_⟩
  · rw [← normalize_invitationId row, hnorm, normalize_invitationId]
  · rw [← normalize_tokenKeys row, hnorm, normalize_tokenKeys]
  · rw [← normalize_shareKeys row, hnorm, normalize_shareKeys]
  · rw [← normalize_memberKeys row, hnorm, normalize_memberKeys]
  · rw [← normalize_policyVersion row, hnorm, normalize_policyVersion]

namespace Paired

theorem start : Paired RelayState.start where
  self := fun _ _ h => by cases h
  agrees := fun _ => rfl

section

variable (h : Paired state)
include h

theorem row_of_get (hget : state.store.invitations.get id = some old) :
    ∃ row, state.rows.get id = some row ∧ normalizeInvitationRecord row = normalizeInvitationRecord old := by
  have hagree := h.agrees id
  rw [hget] at hagree
  exact map_eq_some_iff.1 hagree.symm

theorem invitationId_eq (hget : state.store.invitations.get id = some old) : old.invitationId = id := by
  obtain ⟨row, hrow, hnorm⟩ := h.row_of_get hget
  rw [← (same_keys hnorm).1]
  exact h.self id row hrow

theorem put (policyVersion : ℕ) (record : InvitationRecord) :
    Paired ⟨{ state.store with policyVersion := policyVersion }.remember record, state.rows.set record.invitationId record⟩ where
  self := h.self.set record
  agrees := by
    intro id
    have hset : ({ state.store with policyVersion := policyVersion }.remember record).invitations =
        state.store.invitations.set record.invitationId record := rfl
    rw [hset, get_set, get_set]
    split
    · rfl
    · exact h.agrees id

theorem settle (outcome : Outcome) (saveThrows : Bool) : Paired (state.settle outcome saveThrows) := by
  obtain ⟨answer, policyVersion, saves⟩ := outcome
  cases saves with
  | none => exact ⟨h.self, h.agrees⟩
  | some record =>
    cases saveThrows with
    | true => exact ⟨h.self, h.agrees⟩
    | false => exact h.put policyVersion record

theorem restart : Paired (state.next crypto .restart) where
  self := h.self
  agrees := by
    intro id
    have hget := get_load h.self id
    unfold RelayState.next
    rw [hget]
    cases state.rows.get id with
    | none => rfl
    | some r => simp

/-- What a call does to a record that is there: nothing, or it saves an edit of it. -/
theorem get_settle (hnew : state.store.invitations.get ("inv-" ++ draws.uuid 0) = none)
    (hends : Ends crypto state.store draws op outcome) (saveThrows : Bool) (hget : state.store.invitations.get id = some old) :
    ∃ record, (state.settle outcome saveThrows).store.invitations.get id = some record ∧
      (record = old ∧ (saveThrows = false → ∀ r, outcome.saves = some r → r.invitationId ≠ id) ∨
        saveThrows = false ∧ outcome.saves = some record ∧
          (Edit crypto state.store draws old op record ∨ PolicyEdit state.store draws old op record)) := by
  have hkept : ∀ record : InvitationRecord, record.invitationId ≠ id →
      (state.store.invitations.set record.invitationId record).get id = some old :=
    fun record hne => (get_set_of_ne _ _ hne).trans hget
  have hput : ∀ record : InvitationRecord, record.invitationId = id →
      (state.store.invitations.set record.invitationId record).get id = some record := by
    rintro record rfl
    exact get_set_self _ _ _
  cases saveThrows with
  | true =>
    refine ⟨old, ?_, .inl ⟨rfl, nofun⟩⟩
    cases hends <;> exact hget
  | false =>
    cases hends with
    | quiet _ | noDate _ _ _ _ => exact ⟨old, hget, .inl ⟨rfl, fun _ r hr => by cases hr⟩⟩
    | created _ input expiresAt shareTicket _ _ _ =>
      have hne : (newInvitation crypto state.store draws input expiresAt shareTicket).invitationId ≠ id := by
        rintro rfl
        have hnone : some old = none := hget.symm.trans hnew
        cases hnone
      refine ⟨old, hkept _ hne, .inl ⟨rfl, fun _ r hr => ?_⟩⟩
      rwa [← some.inj hr]
    | @edited _ key found record hold hedit =>
      have hid : record.invitationId = key := hedit.invitationId.trans (h.invitationId_eq hold)
      by_cases hkey : key = id
      · subst hkey
        obtain rfl : found = old := some.inj (hold.symm.trans hget)
        exact ⟨record, hput record hid, .inr ⟨rfl, rfl, .inl hedit⟩⟩
      · have hne : record.invitationId ≠ id := fun heq => hkey (hid.symm.trans heq)
        refine ⟨old, hkept record hne, .inl ⟨rfl, fun _ r hr => ?_⟩⟩
        rwa [← some.inj hr]
    | @policy _ key found record hold _ hedit =>
      have hid : record.invitationId = key := hedit.invitationId.trans (h.invitationId_eq hold)
      by_cases hkey : key = id
      · subst hkey
        obtain rfl : found = old := some.inj (hold.symm.trans hget)
        exact ⟨record, hput record hid, .inr ⟨rfl, rfl, .inr hedit⟩⟩
      · have hne : record.invitationId ≠ id := fun heq => hkey (hid.symm.trans heq)
        refine ⟨old, hkept record hne, .inl ⟨rfl, fun _ r hr => ?_⟩⟩
        rwa [← some.inj hr]

theorem next (event : RelayEvent) : Paired (state.next crypto event) := by
  cases event with
  | call op draws saveThrows => exact h.settle _ saveThrows
  | restart => exact h.restart

end

end Paired

end

/-- The indexes of the store lead to the rows. -/
structure Mirrored (state : RelayState) : Prop extends Paired state where
  tokens : Indexes tokenKeys state.store.invitationTokenIndex state.rows
  shares : Indexes shareKeys state.store.shareIdIndex state.rows
  members : Indexes memberKeys state.store.memberTokenIndex state.rows
  unjoined : ∀ id r, state.rows.get id = some r → Unjoined r

namespace Mirrored

variable {crypto : TokenCrypto} {state : RelayState} {draws : Draws} {op : InvitationOp} {id : String}
  {old row record : InvitationRecord}

theorem indexes_empty (keys : InvitationRecord → List String) : Indexes keys (fun _ => none) (.empty : OrderedMap String _) := by
  intro key id
  constructor
  · intro h
    cases h
  · rintro ⟨_, h, _⟩
    cases h

theorem start : Mirrored RelayState.start where
  toPaired := .start
  tokens := indexes_empty _
  shares := indexes_empty _
  members := indexes_empty _
  unjoined := fun _ _ h => by cases h

section

variable (h : Mirrored state)
include h

theorem unjoined_of_get (hget : state.store.invitations.get id = some old) : Unjoined old := by
  obtain ⟨row, hrow, hnorm⟩ := h.row_of_get hget
  intro hacc
  have hacc' : row.acceptedAt = none := by
    rw [← show (normalizeInvitationRecord old).acceptedAt = none from hacc, ← hnorm]
    rfl
  obtain ⟨hhash, hsessions⟩ := h.unjoined id row hrow hacc'
  constructor
  · rw [← show (normalizeInvitationRecord row).memberTokenHash = none from hhash, hnorm]
    rfl
  · rw [← show (normalizeInvitationRecord row).memberSessions = none from hsessions, hnorm]
    rfl

/-- How a record goes with the index of some of its keys: it keeps the keys of its row and adds free ones. -/
structure Fits (keys : InvitationRecord → List String) (index : Index) (rows : OrderedMap String InvitationRecord)
    (record : InvitationRecord) : Prop where
  kept : ∀ row, rows.get record.invitationId = some row → keys row ⊆ keys record
  free : ∀ key ∈ keys record, (∃ row, rows.get record.invitationId = some row ∧ key ∈ keys row) ∨ index key = none

theorem put (policyVersion : ℕ) (htokens : Fits tokenKeys state.store.invitationTokenIndex state.rows record)
    (hshares : Fits shareKeys state.store.shareIdIndex state.rows record)
    (hmembers : Fits memberKeys state.store.memberTokenIndex state.rows record) (hunjoined : Unjoined record) :
    Mirrored ⟨{ state.store with policyVersion := policyVersion }.remember record,
      state.rows.set record.invitationId record⟩ where
  toPaired := h.toPaired.put policyVersion record
  tokens := by
    rw [remember_tokenIndex]
    exact h.tokens.set htokens.kept htokens.free
  shares := by
    rw [remember_shareIdIndex]
    exact h.shares.set hshares.kept hshares.free
  members := by
    rw [remember_memberTokenIndex]
    exact h.members.set hmembers.kept hmembers.free
  unjoined := by
    intro id r hget
    rw [get_set] at hget
    split at hget
    · rw [← some.inj hget]
      exact hunjoined
    · exact h.unjoined id r hget

theorem withVersion (policyVersion : ℕ) : Mirrored ⟨{ state.store with policyVersion := policyVersion }, state.rows⟩ :=
  ⟨⟨h.self, h.agrees⟩, h.tokens, h.shares, h.members, h.unjoined⟩

theorem fits {keys : InvitationRecord → List String} {index : Index}
    (hget : state.store.invitations.get id = some old) (hid : record.invitationId = old.invitationId)
    (hrow : ∀ row, normalizeInvitationRecord row = normalizeInvitationRecord old → keys row = keys old)
    (hkept : keys old ⊆ keys record) (hfree : ∀ key ∈ keys record, key ∈ keys old ∨ index key = none) :
    Fits keys index state.rows record := by
  obtain ⟨row, hrows, hnorm⟩ := h.row_of_get hget
  have hrecord : state.rows.get record.invitationId = some row := by rw [hid, h.invitationId_eq hget, hrows]
  constructor
  · intro row' hrow'
    obtain rfl : row = row' := some.inj (hrecord.symm.trans hrow')
    rw [hrow row hnorm]
    exact hkept
  · intro key hkey
    rcases hfree key hkey with hold | hnone
    · exact .inl ⟨row, hrecord, hrow row hnorm ▸ hold⟩
    · exact .inr hnone

omit h in
theorem fits_new {keys : InvitationRecord → List String} {index : Index}
    (hnew : state.rows.get record.invitationId = none) (hfree : ∀ key ∈ keys record, index key = none) :
    Fits keys index state.rows record :=
  ⟨fun row hrow => by (rw [hnew] at hrow; cases hrow), fun key hkey => .inr (hfree key hkey)⟩

omit h in
theorem createShareTicket_free {store : InvitationStore} {i attempts : ℕ} {ticket : ShareTicketSecret}
    (h : store.createShareTicket draws i attempts = some ticket) : store.shareIdIndex ticket.shareId = none := by
  induction attempts generalizing i with
  | zero => cases h
  | succ attempts ih =>
    unfold createShareTicket at h
    simp only at h
    split at h
    · exact ih h
    · rename_i hfree
      rw [← some.inj h]
      simp only [Bool.or_eq_true, decide_eq_true_eq, not_or, Bool.not_eq_true, isSome_eq_false_iff,
        isNone_iff_eq_none] at hfree
      exact hfree.2

/-- However a call with new ids and tokens ends, the store and its rows stay together. -/
theorem settle (hfresh : Fresh crypto state.store draws) {outcome : Outcome}
    (hends : Ends crypto state.store draws op outcome) (saveThrows : Bool) : Mirrored (state.settle outcome saveThrows) := by
  cases saveThrows with
  | true => cases hends <;> exact h.withVersion _
  | false =>
    cases hends with
    | quiet _ | noDate _ _ _ _ => exact h.withVersion _
    | created _ input expiresAt shareTicket _ _ hticket =>
      have hnone : state.rows.get ("inv-" ++ draws.uuid 0) = none := by
        have hagree := h.agrees ("inv-" ++ draws.uuid 0)
        rw [hfresh.invitationId] at hagree
        exact map_eq_none_iff.1 hagree.symm
      refine h.put _ (fits_new hnone ?_) (fits_new hnone ?_) (fits_new hnone ?_) fun _ => ⟨rfl, rfl⟩
      · intro key hkey
        rw [mem_singleton.1 hkey]
        exact hfresh.invitationToken
      · intro key hkey
        cases shareTicket with
        | none => cases hkey
        | some ticket =>
          have hshare : nonEmpty (some ticket.shareId) = some key := mem_toList.1 hkey
          rw [← some.inj (filter_eq_some_iff.1 hshare).1]
          exact createShareTicket_free (hticket ticket rfl)
      · intro key hkey
        cases hkey
    | edited _ hold hedit =>
      refine h.put _ (h.fits hold hedit.invitationId (fun row hnorm => (same_keys hnorm).2.1) ?_ ?_)
        (h.fits hold hedit.invitationId (fun row hnorm => (same_keys hnorm).2.2.1) ?_ ?_)
        (h.fits hold hedit.invitationId (fun row hnorm => (same_keys hnorm).2.2.2.1) ?_ ?_)
        (hedit.unjoined (h.unjoined_of_get hold))
      · rw [hedit.tokenKeys]
        exact List.Subset.refl _
      · rw [hedit.tokenKeys]
        exact fun key hkey => .inl hkey
      · rw [hedit.shareKeys]
        exact List.Subset.refl _
      · rw [hedit.shareKeys]
        exact fun key hkey => .inl hkey
      · exact hedit.memberKeys_subset (h.unjoined_of_get hold)
      · intro key hkey
        rcases hedit.mem_memberKeys hkey with hkey | rfl
        · exact .inl hkey
        · exact .inr hfresh.memberToken
    | policy _ hold _ hedit =>
      refine h.put _ (h.fits hold hedit.invitationId (fun row hnorm => (same_keys hnorm).2.1) ?_ ?_)
        (h.fits hold hedit.invitationId (fun row hnorm => (same_keys hnorm).2.2.1) ?_ ?_)
        (h.fits hold hedit.invitationId (fun row hnorm => (same_keys hnorm).2.2.2.1) ?_ ?_)
        (hedit.unjoined (h.unjoined_of_get hold))
      · rw [hedit.tokenKeys]
        exact List.Subset.refl _
      · rw [hedit.tokenKeys]
        exact fun key hkey => .inl hkey
      · rw [hedit.shareKeys]
        exact List.Subset.refl _
      · rw [hedit.shareKeys]
        exact fun key hkey => .inl hkey
      · rw [hedit.memberKeys]
        exact List.Subset.refl _
      · rw [hedit.memberKeys]
        exact fun key hkey => .inl hkey

theorem restart : Mirrored (state.next crypto .restart) where
  toPaired := h.toPaired.restart
  tokens := by
    have hindex : (load state.rows.values).invitationTokenIndex = state.store.invitationTokenIndex := by
      rw [load, foldl_loadRecord]
      exact rebuild_index h.tokens h.self
    exact hindex ▸ h.tokens
  shares := by
    have hindex : (load state.rows.values).shareIdIndex = state.store.shareIdIndex := by
      rw [load, foldl_loadRecord]
      exact rebuild_index h.shares h.self
    exact hindex ▸ h.shares
  members := by
    have hindex : (load state.rows.values).memberTokenIndex = state.store.memberTokenIndex := by
      rw [load, foldl_loadRecord]
      exact rebuild_index h.members h.self
    exact hindex ▸ h.members
  unjoined := h.unjoined

end

end Mirrored

theorem foldl_max_le {rs : List InvitationRecord} {m n : ℕ} (hm : m ≤ n) (hle : ∀ r ∈ rs, r.policyVersion ≤ n) :
    rs.foldl (fun version r => max version r.policyVersion) m ≤ n := by
  induction rs generalizing m with
  | nil => exact hm
  | cons r rs ih =>
    exact ih (max_le hm (hle r mem_cons_self)) fun r' hr' => hle r' (mem_cons_of_mem _ hr')

theorem le_foldl_max (rs : List InvitationRecord) (m : ℕ) : m ≤ rs.foldl (fun version r => max version r.policyVersion) m ∧
      ∀ r ∈ rs, r.policyVersion ≤ rs.foldl (fun version r => max version r.policyVersion) m := by
  induction rs generalizing m with
  | nil => exact ⟨le_refl m, fun r hr => by cases hr⟩
  | cons r rs ih =>
    obtain ⟨hstart, hrest⟩ := ih (max m r.policyVersion)
    refine ⟨le_trans (le_max_left _ _) hstart, fun r' hr' => ?_⟩
    rcases mem_cons.1 hr' with rfl | hr'
    · exact le_trans (le_max_right _ _) hstart
    · exact hrest r' hr'

/-- The counter is the greatest version of the rows. -/
structure Versioned (state : RelayState) : Prop where
  le : ∀ id r, state.rows.get id = some r → r.policyVersion ≤ state.store.policyVersion
  attained : state.store.policyVersion = 0 ∨
    ∃ id r, state.rows.get id = some r ∧ r.policyVersion = state.store.policyVersion

namespace Versioned

variable {crypto : TokenCrypto} {state : RelayState} {draws : Draws} {op : InvitationOp} {outcome : Outcome}
  {saveThrows : Bool}

theorem start : Versioned RelayState.start where
  le := fun _ _ h => by cases h
  attained := .inl rfl

theorem policyVersion_load (h : Versioned state) : (load state.rows.values).policyVersion = state.store.policyVersion := by
  have hfold : (load state.rows.values).policyVersion =
      state.rows.values.foldl (fun version r => max version r.policyVersion) 0 := by
    rw [load, foldl_loadRecord]
    rfl
  rw [hfold]
  refine Nat.le_antisymm (foldl_max_le (Nat.zero_le _) fun r hr => ?_) ?_
  · obtain ⟨id, hget⟩ := (mem_values_iff _ _).1 hr
    exact h.le id r hget
  · rcases h.attained with hzero | ⟨id, r, hget, heq⟩
    · rw [hzero]
      exact Nat.zero_le _
    · rw [← heq]
      exact (le_foldl_max state.rows.values 0).2 r ((mem_values_iff _ _).2 ⟨id, hget⟩)

theorem restart (h : Versioned state) : Versioned (state.next crypto .restart) := by
  have hload : (state.next crypto .restart).store.policyVersion = state.store.policyVersion := h.policyVersion_load
  constructor
  · rw [hload]
    exact h.le
  · rw [hload]
    exact h.attained

/-- A record under the counter's version takes the place of one that is not above it. -/
theorem put (h : Versioned state) {policyVersion : ℕ} {record : InvitationRecord}
    (hcounter : state.store.policyVersion ≤ policyVersion) (hle : record.policyVersion ≤ policyVersion)
    (hkept : record.policyVersion = policyVersion ∨ policyVersion = state.store.policyVersion ∧
      ∃ row, state.rows.get record.invitationId = some row ∧ row.policyVersion = record.policyVersion) :
    Versioned ⟨{ state.store with policyVersion := policyVersion }.remember record,
      state.rows.set record.invitationId record⟩ := by
  constructor
  · intro id r hget
    rw [get_set] at hget
    split at hget
    · rw [← some.inj hget]
      exact hle
    · exact Nat.le_trans (h.le id r hget) hcounter
  · rcases hkept with hown | ⟨hsame, row, hrow, heq⟩
    · exact .inr ⟨record.invitationId, record, get_set_self .., hown⟩
    · rw [hsame]
      refine h.attained.imp_right fun ⟨id, r, hget, hr⟩ => ?_
      by_cases hid : record.invitationId = id
      · subst hid
        obtain rfl : row = r := some.inj (hrow.symm.trans hget)
        exact ⟨_, record, get_set_self .., heq.symm.trans hr⟩
      · exact ⟨id, r, (get_set_of_ne _ _ hid).trans hget, hr⟩

theorem settle (h : Versioned state) (hpaired : Paired state) (hends : Ends crypto state.store draws op outcome)
    (hsaved : VersionSaved state.store draws saveThrows op) : Versioned (state.settle outcome saveThrows) := by
  cases hends with
  | quiet _ => exact ⟨h.le, h.attained⟩
  | noDate input hop hadvances hdate =>
    subst hop
    have hsome := (hsaved hadvances).2
    rw [endsAtDate, hdate] at hsome
    cases hsome
  | created _ input expiresAt shareTicket hop hadvances _ =>
    obtain rfl := (hsaved hadvances).1
    exact h.put (Nat.le_succ _) (Nat.le_refl _) (.inl rfl)
  | edited _ hold hedit =>
    cases saveThrows with
    | true => exact ⟨h.le, h.attained⟩
    | false =>
      obtain ⟨row, hrow, hnorm⟩ := hpaired.row_of_get hold
      have hrow' : state.rows.get _ = some row := (hedit.invitationId.trans (hpaired.invitationId_eq hold)).symm ▸ hrow
      have hversion : row.policyVersion = _ := (same_keys hnorm).2.2.2.2.trans hedit.policyVersion.symm
      exact h.put (Nat.le_refl _) (hversion ▸ h.le _ row hrow) (.inr ⟨rfl, row, hrow', hversion⟩)
  | policy _ hold hadvances hedit =>
    obtain rfl := (hsaved hadvances).1
    exact h.put (Nat.le_succ _) (Nat.le_of_eq hedit.policyVersion) (.inl hedit.policyVersion)

end Versioned

end Kookr.Relay
