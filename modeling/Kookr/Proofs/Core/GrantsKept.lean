import Kookr.Lib.ListAt
import Mathlib.Data.List.Dedup
import Kookr.Lib.History
import Kookr.Spec.Core.ViewerGrants

/-! The grants of the store are the mutations of its log, one after the other. A grant that was revoked never resolves again,
and only grants that do not resolve are pruned. -/

namespace Kookr.Core

open Kookr.Lib Kookr.Realtime GrantTexts ViewerGrantStore List

variable {texts : GrantTexts} {s s' : ViewerGrantStore} {g : ViewerGrant} {grants : List ViewerGrant}

/-- The grant as it was created. -/
def ViewerGrant.core (g : ViewerGrant) : ViewerGrant := { g with revokedAt := none }

theorem core_id {g g' : ViewerGrant} (h : g.core = g'.core) : g.id = g'.id :=
  (congrArg ViewerGrant.id h : g.core.id = g'.core.id)

theorem core_tokenHash {g g' : ViewerGrant} (h : g.core = g'.core) : g.tokenHash = g'.tokenHash :=
  (congrArg ViewerGrant.tokenHash h : g.core.tokenHash = g'.core.tokenHash)

theorem canonicalizeScope_idem (scope : Scope) : canonicalizeScope (canonicalizeScope scope) = canonicalizeScope scope := by
  cases scope with
  | all => rfl
  | projects projectIds =>
    unfold canonicalizeScope
    have hnodup : (projectIds.dedup.insertionSort fun a b => codeUnits a ≤ codeUnits b).Nodup :=
      (perm_insertionSort _ _).nodup_iff.2 projectIds.nodup_dedup
    have hsorted : (projectIds.dedup.insertionSort fun a b => codeUnits a ≤ codeUnits b).Pairwise fun a b => codeUnits a ≤ codeUnits b := by
      exact pairwise_insertionSort _ _
    simp only
    rw [hnodup.dedup, List.Pairwise.insertionSort_eq hsorted]

theorem stamp_isoText (h : texts.Lawful) (now : Timestamp) : stamp (some (isoText now)) = some (isoText now) ∧
    texts.isIsoTimestamp (isoText now) = true := by
  have hne : isoText now ≠ "" := by
    intro hempty
    have hnil : IsoDate.toISOString now = [] := by
      have hlist := congrArg String.toList hempty
      rwa [isoText, String.toList_ofList] at hlist
    simp [IsoDate.toISOString] at hnil
  exact ⟨by simp [stamp, hne], by simp [isIsoTimestamp, hne, h.iso]⟩

/-- A grant as the store has it. -/
structure Good (texts : GrantTexts) (g : ViewerGrant) : Prop where
  valid : texts.isValidGrant g = true
  canonical : canonicalizeScope g.scope = g.scope

theorem load_eq (h : ∀ g ∈ grants, Good texts g) : texts.load grants = grants := by
  unfold GrantTexts.load
  rw [filter_eq_self.2 fun g hg => (h g hg).valid]
  conv_rhs => rw [← map_id grants]
  refine map_congr_left fun g hg => ?_
  rw [(h g hg).canonical]
  rfl

theorem Good.revoked (h : Good texts g) {revokedAt : String} (hiso : texts.isIsoTimestamp revokedAt = true) :
    Good texts { g with revokedAt := some revokedAt } := by
  refine ⟨?_, h.canonical⟩
  have hvalid := h.valid
  unfold isValidGrant at hvalid ⊢
  simp only [Bool.and_eq_true] at hvalid ⊢
  exact ⟨hvalid.1, hiso⟩

theorem newGrant_good (h : texts.Lawful) {input : CreateGrantInput} (id token : String) (now : Timestamp)
    (hdate : ∀ expiresAt ∈ stamp input.expiresAt, (texts.dateParse expiresAt).isSome = true) :
    Good texts (newGrant texts input id token now) := by
  refine ⟨?_, canonicalizeScope_idem _⟩
  have hhash : isTokenHash (texts.hashToken token) = true := by
    simp only [isTokenHash, Bool.and_eq_true, decide_eq_true_eq, all_eq_true]
    exact h.hash token
  have hexpires : (stamp input.expiresAt).all texts.isIsoTimestamp = true := by
    cases hstamp : stamp input.expiresAt with
    | none => rfl
    | some expiresAt =>
      have hne : expiresAt ≠ "" := by simpa using (Option.filter_eq_some_iff.1 hstamp).2
      simp [isIsoTimestamp, hne, hdate expiresAt hstamp]
  simp [isValidGrant, newGrant, hhash, hexpires, (stamp_isoText h now).2]

/-- What both readers find of a grant. -/
def statusOf (texts : GrantTexts) (g : ViewerGrant) (now : ℤ) : ViewerGrantLiveness :=
  if (stamp g.revokedAt).isSome then .revoked
  else if (stamp g.expiresAt).any fun expiresAt => (texts.dateParse expiresAt).all fun expiresMs => expiresMs ≤ now then .expired
  else .active

/-- The resolution of a token of the grant, by the grant's liveness. -/
def ViewerGrantLiveness.resolution (g : ViewerGrant) : ViewerGrantLiveness → ViewerTokenResolution
  | .active => .valid g.id g.scope
  | .revoked => .revoked g.id
  | .expired => .expired g.id
  | .notFound => .notFound

theorem liveness_eq (hids : (grants.map ViewerGrant.id).Nodup) (hmem : g ∈ grants) (now : ℤ) :
    texts.liveness grants g.id now = statusOf texts g now := by
  unfold GrantTexts.liveness
  rw [find_key_eq_some hids hmem]
  rfl

theorem matchedGrant_concat (grants : List ViewerGrant) (g : ViewerGrant) (presented : String) :
    matchedGrant (grants ++ [g]) presented = if g.tokenHash = presented then some g else matchedGrant grants presented := by
  unfold matchedGrant
  rw [foldl_append]
  rfl

theorem matchedGrant_mem {presented : String} (h : matchedGrant grants presented = some g) :
    g ∈ grants ∧ g.tokenHash = presented := by
  induction grants using reverseRecOn with
  | nil => cases h
  | append_singleton grants g' ih =>
    rw [matchedGrant_concat] at h
    split at h
    · rename_i hhash
      obtain rfl := Option.some.inj h
      exact ⟨mem_append_right _ (mem_singleton_self _), hhash⟩
    · obtain ⟨hmem, hhash⟩ := ih h
      exact ⟨mem_append_left _ hmem, hhash⟩

theorem matchedGrant_eq (hhashes : (grants.map ViewerGrant.tokenHash).Nodup) (hmem : g ∈ grants) :
    matchedGrant grants g.tokenHash = some g := by
  cases hmatched : matchedGrant grants g.tokenHash with
  | some g' =>
    obtain ⟨hmem', hhash⟩ := matchedGrant_mem hmatched
    rw [eq_of_key hhashes hmem hmem' hhash]
  | none =>
    exfalso
    induction grants using reverseRecOn with
    | nil => cases hmem
    | append_singleton grants g' ih =>
      rw [matchedGrant_concat] at hmatched
      split at hmatched
      · cases hmatched
      · rename_i hne
        rw [map_append] at hhashes
        rcases mem_concat_cases hmem with hmem | hmem
        · exact ih (nodup_append.1 hhashes).1 hmem hmatched
        · exact hne (congrArg ViewerGrant.tokenHash hmem).symm

theorem resolve_eq (hhashes : (grants.map ViewerGrant.tokenHash).Nodup) (hmem : g ∈ grants)
    {token : String} (htoken : texts.hashToken token = g.tokenHash) (now : ℤ) :
    texts.resolve grants token now = (statusOf texts g now).resolution g := by
  unfold GrantTexts.resolve statusOf
  rw [htoken, matchedGrant_eq hhashes hmem]
  simp only
  split
  · rfl
  split
  · rfl
  · rfl

theorem resolve_valid {token id : String} {now : ℤ} {scope : Scope} (h : texts.resolve grants token now = .valid id scope) :
    ∃ g ∈ grants, g.tokenHash = texts.hashToken token ∧ (stamp g.revokedAt).isSome = false := by
  unfold GrantTexts.resolve at h
  cases hmatched : matchedGrant grants (texts.hashToken token) with
  | none =>
    rw [hmatched] at h
    cases h
  | some g =>
    obtain ⟨hmem, hhash⟩ := matchedGrant_mem hmatched
    refine ⟨g, hmem, hhash, ?_⟩
    rw [hmatched] at h
    by_contra hrevoked
    simp only [Bool.not_eq_false] at hrevoked
    simp only [hrevoked, if_true] at h
    cases h

theorem statusOf_prunable {cutoffMs : ℚ} {now : ℤ} (h : texts.isPrunable cutoffMs now g = true) : statusOf texts g now ≠ .active := by
  unfold isPrunable grantTerminalAtMs at h
  generalize hstamps : ((stamp g.revokedAt).bind texts.dateParse).toList ++
    (((stamp g.expiresAt).bind texts.dateParse).filter fun ms => ms ≤ now).toList = stamps at h
  cases hmax : stamps.max? with
  | none =>
    rw [hmax] at h
    cases h
  | some terminalMs =>
    have hmem := max?_mem hmax
    rw [← hstamps, mem_append, Option.mem_toList, Option.mem_toList] at hmem
    unfold statusOf
    rcases hmem with hrevoked | hexpired
    · obtain ⟨revokedAt, hstamp, _⟩ := Option.bind_eq_some_iff.1 hrevoked
      simp [hstamp]
    · obtain ⟨hparsed, hle⟩ := Option.filter_eq_some_iff.1 hexpired
      obtain ⟨expiresAt, hstamp, hparse⟩ := Option.bind_eq_some_iff.1 hparsed
      have hpast : terminalMs ≤ now := by simpa using hle
      split
      · exact nofun
      · simp [hstamp, hparse, hpast]

def createsOf (commits : List (Commit GrantMutation)) : List ViewerGrant :=
  commits.filterMap fun c => match c.mutation with
    | .create grant => some grant
    | _ => none

abbrev GrantLog := List (Applied GrantMutation (ViewerGrant → ℤ))

def grantsOf (texts : GrantTexts) (log : GrantLog) : List ViewerGrant := CommitQueue.replay texts.applyMutation [] log

/-- Every commit of the log revokes a grant that was created before it, at a time that is a date. -/
def RevokesKnown (texts : GrantTexts) (before : GrantLog) (e : Applied GrantMutation (ViewerGrant → ℤ)) : Prop :=
  ∀ id revokedAt, e.commit.mutation = .revoke id revokedAt →
    texts.isIsoTimestamp revokedAt = true ∧ ∃ g ∈ createsOf (before.map Applied.commit), g.id = id

/-- A log of good grants under distinct ids and token hashes. -/
structure GoodLog (texts : GrantTexts) (log : GrantLog) : Prop where
  good : ∀ g ∈ createsOf (log.map Applied.commit), Good texts g ∧ g.revokedAt = none
  ids : ((createsOf (log.map Applied.commit)).map ViewerGrant.id).Nodup
  hashes : ((createsOf (log.map Applied.commit)).map ViewerGrant.tokenHash).Nodup
  revokes : Along (RevokesKnown texts) log

theorem createsOf_append (commits more : List (Commit GrantMutation)) :
    createsOf (commits ++ more) = createsOf commits ++ createsOf more := filterMap_append

theorem grantsOf_concat (log : GrantLog) (e : Applied GrantMutation (ViewerGrant → ℤ)) :
    grantsOf texts (log ++ [e]) = texts.applyMutation e.commit.mutation e.reading (grantsOf texts log) :=
  CommitQueue.replay_concat _ _ _ _

theorem GoodLog.before {log more : GrantLog} (h : GoodLog texts (log ++ more)) : GoodLog texts log := by
  obtain ⟨hgood, hids, hhashes, hrevokes⟩ := h
  rw [map_append, createsOf_append] at hgood hids hhashes
  rw [map_append] at hids hhashes
  exact ⟨fun g hg => hgood g (mem_append_left _ hg), (nodup_append.1 hids).1, (nodup_append.1 hhashes).1,
    Along.before hrevokes⟩

/-- A clean-up of the log has removed a grant of the id, which was terminal at the clock of the clean-up. -/
def PrunedIn (texts : GrantTexts) (log : GrantLog) (id : String) : Prop :=
  ∃ before e after cutoffMs, log = before ++ e :: after ∧ e.commit.mutation = .prune cutoffMs ∧
    ∃ g ∈ grantsOf texts before, g.id = id ∧ texts.isPrunable cutoffMs (e.reading g) g = true

theorem PrunedIn.mono {log : GrantLog} {id : String} (h : PrunedIn texts log id) (more : GrantLog) :
    PrunedIn texts (log ++ more) id := by
  obtain ⟨before, e, after, cutoffMs, rfl, hrest⟩ := h
  exact ⟨before, e, after ++ more, cutoffMs, by simp, hrest⟩

theorem mem_applyMutation {mutation : GrantMutation} {clock : ViewerGrant → ℤ} {current : List ViewerGrant}
    (h : g ∈ texts.applyMutation mutation clock current) : mutation = .create g ∨ g ∈ current ∨
      ∃ id revokedAt, mutation = .revoke id revokedAt ∧ ∃ g' ∈ current, g'.id = id ∧ stamp g'.revokedAt = none ∧
        g = { g' with revokedAt := some revokedAt } := by
  cases mutation with
  | create grant =>
    rcases mem_concat_cases h with h | h
    · exact .inr (.inl h)
    · exact .inl (by rw [h])
  | prune cutoffMs => exact .inr (.inl (mem_filter.1 h).1)
  | revoke id revokedAt =>
    obtain ⟨g', hmem, heq⟩ := mem_map.1 h
    split at heq
    · rename_i hcond
      exact .inr (.inr ⟨id, revokedAt, rfl, g', hmem, hcond.1, hcond.2, heq.symm⟩)
    · exact .inr (.inl (heq ▸ hmem))

/-- The grants are those that were created, in their order, revoked or not. -/
theorem grantsOf_cores (texts : GrantTexts) (log : GrantLog) :
    ((grantsOf texts log).map ViewerGrant.core).Sublist ((createsOf (log.map Applied.commit)).map ViewerGrant.core) := by
  induction log using reverseRecOn with
  | nil => exact List.Sublist.refl _
  | append_singleton log e ih =>
    rw [grantsOf_concat, map_append, createsOf_append, map_append]
    have hkept : ((grantsOf texts log).map ViewerGrant.core).Sublist ((createsOf (log.map Applied.commit)).map ViewerGrant.core ++
        (createsOf ([e].map Applied.commit)).map ViewerGrant.core) := ih.trans (sublist_append_left _ _)
    obtain ⟨⟨number, mutation⟩, clock⟩ := e
    cases mutation with
    | create grant =>
      have hgrant : texts.applyMutation (.create grant) clock (grantsOf texts log) = grantsOf texts log ++ [grant] := rfl
      rw [hgrant, map_append]
      exact List.Sublist.append ih (List.Sublist.refl _)
    | revoke id revokedAt =>
      have hmap : (texts.applyMutation (.revoke id revokedAt) clock (grantsOf texts log)).map ViewerGrant.core =
          (grantsOf texts log).map ViewerGrant.core := by
        unfold applyMutation
        rw [map_map]
        refine map_congr_left fun g _ => ?_
        simp only [Function.comp_apply]
        split
        · rfl
        · rfl
      rw [hmap]
      exact hkept
    | prune cutoffMs => exact (List.Sublist.map _ (filter_sublist)).trans hkept

theorem created_of_mem {log : GrantLog} (h : g ∈ grantsOf texts log) :
    ∃ g' ∈ createsOf (log.map Applied.commit), g'.core = g.core :=
  mem_map.1 ((grantsOf_cores texts log).subset (mem_map_of_mem h))

theorem created_kept {log : GrantLog} {e : Applied GrantMutation (ViewerGrant → ℤ)} {grant : ViewerGrant} (hmem : e ∈ log) (hcreate : e.commit.mutation = .create grant) :
    (∃ g ∈ grantsOf texts log, g.core = grant.core) ∨ PrunedIn texts log grant.id := by
  induction log using reverseRecOn with
  | nil => cases hmem
  | append_singleton log last ih =>
    rw [grantsOf_concat]
    rcases mem_concat_cases hmem with hmem | hmem
    · rcases ih hmem with ⟨g, hg, hcore⟩ | hpruned
      · cases hmutation : last.commit.mutation with
        | create grant' => exact .inl ⟨g, mem_append_left _ hg, hcore⟩
        | revoke id revokedAt =>
          refine .inl ⟨_, mem_map_of_mem hg, ?_⟩
          split
          · exact hcore
          · exact hcore
        | prune cutoffMs =>
          by_cases hprunable : texts.isPrunable cutoffMs (last.reading g) g = true
          · exact .inr ⟨log, last, [], cutoffMs, rfl, hmutation, g, hg, core_id hcore, hprunable⟩
          · exact .inl ⟨g, mem_filter.2 ⟨hg, by simp [hprunable]⟩, hcore⟩
      · exact .inr (hpruned.mono [last])
    · rw [← hmem, hcreate]
      exact .inl ⟨grant, mem_append_right _ (mem_singleton_self _), rfl⟩

namespace GoodLog

variable {log : GrantLog} {e : Applied GrantMutation (ViewerGrant → ℤ)} {id : String}

section

variable (h : GoodLog texts log)
include h

theorem ids_nodup : ((grantsOf texts log).map ViewerGrant.id).Nodup := by
  have hsub := (grantsOf_cores texts log).map ViewerGrant.id
  rw [map_map, map_map] at hsub
  exact h.ids.sublist hsub

theorem hashes_nodup : ((grantsOf texts log).map ViewerGrant.tokenHash).Nodup := by
  have hsub := (grantsOf_cores texts log).map ViewerGrant.tokenHash
  rw [map_map, map_map] at hsub
  exact h.hashes.sublist hsub

theorem all_good : ∀ g ∈ grantsOf texts log, Good texts g := by
  induction log using reverseRecOn with
  | nil => exact nofun
  | append_singleton log e ih =>
    intro g hg
    rw [grantsOf_concat] at hg
    rcases mem_applyMutation hg with hcreate | hmem | ⟨id, revokedAt, hrevoke, g', hmem, _, _, rfl⟩
    · refine (h.good g ?_).1
      rw [map_append, createsOf_append]
      refine mem_append_right _ (mem_filterMap.2 ⟨e.commit, by simp, ?_⟩)
      rw [hcreate]
    · exact ih h.before g hmem
    · exact (ih h.before g' hmem).revoked (h.revokes.last id revokedAt hrevoke).1

omit h in
theorem created_new {grant : ViewerGrant} (h : GoodLog texts (log ++ [e])) (hcreate : e.commit.mutation = .create grant) :
    ∀ g ∈ createsOf (log.map Applied.commit), g.id ≠ grant.id := by
  intro g hg heq
  have hids := h.ids
  rw [map_append, createsOf_append, map_append, nodup_append] at hids
  refine hids.2.2 g.id (mem_map_of_mem hg) grant.id (mem_map_of_mem (mem_filterMap.2 ⟨e.commit, by simp, ?_⟩)) heq
  rw [hcreate]

/-- Once a revocation is in the log, the grant of its id is revoked wherever it is. -/
theorem revoked_kept (hmem : e ∈ log) {revokedAt : String} (hrevoke : e.commit.mutation = .revoke id revokedAt) :
    ∀ g ∈ grantsOf texts log, g.id = id → (stamp g.revokedAt).isSome = true := by
  induction log using reverseRecOn with
  | nil => cases hmem
  | append_singleton log last ih =>
    intro g hg hid
    rw [grantsOf_concat] at hg
    have hstamped : ∀ revokedAt, last.commit.mutation = .revoke id revokedAt → (stamp (some revokedAt)).isSome = true := by
      intro revokedAt hlast
      have hiso := (h.revokes.last id revokedAt hlast).1
      simp only [isIsoTimestamp, Bool.and_eq_true, decide_eq_true_eq] at hiso
      simp [stamp, hiso.1]
    rcases mem_concat_cases hmem with hbefore | rfl
    · rcases mem_applyMutation hg with hcreate | hmem' | ⟨id', at', hlast, g', hmem', hid', _, rfl⟩
      · -- the id was taken when it was revoked
        obtain ⟨before, after, rfl⟩ := append_of_mem hbefore
        obtain ⟨_, g', hg', hid'⟩ := h.revokes before e (after ++ [last]) (by simp) id revokedAt hrevoke
        refine absurd (hid'.trans hid.symm) (h.created_new hcreate g' ?_)
        rw [map_append, createsOf_append]
        exact mem_append_left _ hg'
      · exact ih h.before hbefore g hmem' hid
      · obtain rfl : id' = id := hid'.symm.trans hid
        exact hstamped at' hlast
    · rw [hrevoke] at hg
      obtain ⟨g', hmem', heq⟩ := mem_map.1 hg
      split at heq
      · subst heq
        exact hstamped revokedAt hrevoke
      · rename_i hnot
        subst heq
        rw [Option.isSome_iff_ne_none]
        exact fun hnone => hnot ⟨hid, hnone⟩

theorem pruned_kept (hpruned : PrunedIn texts log id) : ∀ g ∈ grantsOf texts log, g.id ≠ id := by
  obtain ⟨before, e, after, cutoffMs, rfl, hprune, g, hg, rfl, hprunable⟩ := hpruned
  induction after using reverseRecOn with
  | nil =>
    intro g' hg' hid
    rw [grantsOf_concat, hprune] at hg'
    obtain ⟨hmem, hkept⟩ := mem_filter.1 hg'
    obtain rfl : g' = g := eq_of_key h.before.ids_nodup hg hmem hid
    simp [hprunable] at hkept
  | append_singleton after last ih =>
    rw [← cons_append, ← append_assoc] at h ⊢
    intro g' hg' hid
    rw [grantsOf_concat] at hg'
    rcases mem_applyMutation hg' with hcreate | hmem | ⟨_, _, _, g'', hmem, _, _, rfl⟩
    · obtain ⟨g₀, hg₀, hcore⟩ := created_of_mem hg
      refine h.created_new hcreate g₀ ?_ ((core_id hcore).trans hid.symm)
      rw [map_append, createsOf_append]
      exact mem_append_left _ hg₀
    · exact ih h.before g' hmem hid
    · exact ih h.before g'' hmem hid

end

end GoodLog

/-- A commit that waits revokes a grant that was created. -/
def WaitsKnown (texts : GrantTexts) (log : GrantLog) (c : Commit GrantMutation) : Prop :=
  ∀ id revokedAt, c.mutation = .revoke id revokedAt →
    texts.isIsoTimestamp revokedAt = true ∧ ∃ g ∈ createsOf (log.map Applied.commit), g.id = id

/-- The queue with the grants that were issued. -/
structure GrantsHeld (texts : GrantTexts) (s : ViewerGrantStore) : Prop where
  linear : CommitQueue.Linear texts.applyMutation [] s.commits
  good : ∀ g ∈ s.issued, Good texts g ∧ g.revokedAt = none
  ids : (s.issued.map ViewerGrant.id).Nodup
  hashes : (s.issued.map ViewerGrant.tokenHash).Nodup
  creates : (createsOf s.commits.ahead).Sublist s.issued
  waiting : ∀ c ∈ s.commits.pending, WaitsKnown texts s.commits.log c
  revokes : Along (RevokesKnown texts) s.commits.log

theorem GrantsHeld.start (texts : GrantTexts) : GrantsHeld texts .start where
  linear := .start _ _
  good := nofun
  ids := nodup_nil
  hashes := nodup_nil
  creates := List.Sublist.refl _
  waiting := nofun
  revokes := along_nil

section

variable (h : GrantsHeld texts s)
include h

theorem GrantsHeld.goodLog : GoodLog texts s.commits.log := by
  have hsub : (createsOf (s.commits.log.map Applied.commit)).Sublist s.issued := by
    have hahead := h.creates
    unfold CommitQueue.ahead at hahead
    rw [createsOf_append] at hahead
    exact (sublist_append_left _ _).trans hahead
  exact ⟨fun g hg => h.good g (hsub.subset hg), h.ids.sublist (hsub.map _), h.hashes.sublist (hsub.map _), h.revokes⟩

theorem GrantsHeld.memory : ∃ before after, s.commits.log = before ++ after ∧
    s.commits.memory = grantsOf texts before ∧ GoodLog texts before ∧ ∀ c, (c, true) ∈ s.commits.answers → ∃ e ∈ before, e.commit = c := by
  obtain ⟨before, after, hlog, hmemory, hreturned⟩ := h.linear.returned
  have hgood := h.goodLog
  rw [hlog] at hgood
  exact ⟨before, after, hlog, hmemory, hgood.before, hreturned⟩

theorem GrantsHeld.writes {commits : GrantCommits} (hlinear : CommitQueue.Linear texts.applyMutation [] commits)
    (hwrites : CommitQueue.Writes s.commits commits) (lastWriteOk : Bool) : GrantsHeld texts ⟨commits, lastWriteOk, s.issued⟩ := by
  obtain ⟨hlog, hpending, hahead⟩ := hwrites
  have hcreates : (createsOf commits.ahead).Sublist s.issued := (hahead.filterMap _).trans h.creates
  rcases hlog with hlog | ⟨e, he, hlog⟩
  · exact ⟨hlinear, h.good, h.ids, h.hashes, hcreates, fun c hc => by rw [hlog]; exact h.waiting c (hpending c hc), by rw [hlog]; exact h.revokes⟩
  · refine ⟨hlinear, h.good, h.ids, h.hashes, hcreates, fun c hc id revokedAt hrevoke => ?_, ?_⟩
    · obtain ⟨hiso, g, hg, hid⟩ := h.waiting c (hpending c hc) id revokedAt hrevoke
      refine ⟨hiso, g, ?_, hid⟩
      rw [hlog, map_append, createsOf_append]
      exact mem_append_left _ hg
    · rw [hlog]
      exact h.revokes.concat (h.waiting e.commit he)

theorem GrantsHeld.call (mutation : Option GrantMutation) (issued : List ViewerGrant)
    (hgood : ∀ g ∈ issued, Good texts g ∧ g.revokedAt = none) (hids : ((s.issued ++ issued).map ViewerGrant.id).Nodup)
    (hhashes : ((s.issued ++ issued).map ViewerGrant.tokenHash).Nodup)
    (hcreates : ∀ c : ℕ, createsOf (mutation.map (Commit.mk c)).toList = issued)
    (hwaiting : ∀ m ∈ mutation, ∀ c, WaitsKnown texts s.commits.log ⟨c, m⟩) :
    GrantsHeld texts { s with commits := s.commits.call mutation, issued := s.issued ++ issued } := by
  refine ⟨h.linear.call mutation, fun g hg => ?_, hids, hhashes, ?_, fun c hc => ?_, h.revokes⟩
  · exact (mem_append.1 hg).elim (h.good g) (hgood g)
  · rw [CommitQueue.ahead_call, createsOf_append, hcreates]
    exact List.Sublist.append h.creates (List.Sublist.refl _)
  · have hpending : c ∈ s.commits.pending ++ (mutation.map (Commit.mk s.commits.calls)).toList := by
      have hassoc : (s.commits.call mutation).pending = s.commits.unlanded ++ (s.commits.queue ++ (mutation.map (Commit.mk s.commits.calls)).toList) := rfl
      rwa [hassoc, ← append_assoc] at hc
    rcases mem_append.1 hpending with hc | hc
    · exact h.waiting c hc
    · obtain ⟨m, hm, rfl⟩ := Option.map_eq_some_iff.1 (Option.mem_toList.1 hc)
      exact hwaiting m hm _

omit h in
theorem pruning_cases (texts : GrantTexts) (grants : List ViewerGrant) (retentionMs : ℚ) (now : ℤ) (clock : ViewerGrant → ℤ) :
    pruning texts grants retentionMs now clock = none ∨
      ∃ cutoffMs, pruning texts grants retentionMs now clock = some (.prune cutoffMs) := by
  unfold pruning
  simp only
  split
  · exact .inr ⟨_, rfl⟩
  · exact .inl rfl

theorem GrantsHeld.prunes (grants : List ViewerGrant) (retentionMs : ℚ) (now : ℤ) (clock : ViewerGrant → ℤ) :
    GrantsHeld texts { s with commits := s.commits.call (pruning texts grants retentionMs now clock) } := by
  have hcall : ∀ mutation, (mutation = none ∨ ∃ cutoffMs, mutation = some (GrantMutation.prune cutoffMs)) →
      GrantsHeld texts { s with commits := s.commits.call mutation } := by
    intro mutation hmutation
    have hkept := h.call mutation [] nofun (by simpa using h.ids) (by simpa using h.hashes)
      (fun c => by rcases hmutation with rfl | ⟨cutoffMs, rfl⟩ <;> rfl)
      (fun m hm c id revokedAt hrevoke => by rcases hmutation with rfl | ⟨cutoffMs, rfl⟩ <;> cases hm; cases hrevoke)
    rwa [append_nil] at hkept
  exact hcall _ (pruning_cases texts grants retentionMs now clock)

end

theorem GrantsHeld.step (hlawful : texts.Lawful) (h : GrantsHeld texts s) {event : GrantEvent} (hfresh : s.DrawsFresh texts event)
    (hs : s.step texts event = some s') : GrantsHeld texts s' := by
  cases event with
  | create input id token now =>
    cases hs
    obtain ⟨hid, hhash, hdate⟩ := hfresh
    refine h.call (some _) [_] (fun g hg => ?_) ?_ ?_ (fun c => rfl) (fun m hm c id revokedAt hrevoke => ?_)
    · rw [mem_singleton.1 hg]
      exact ⟨newGrant_good hlawful id token now hdate, rfl⟩
    · rw [map_append]
      exact nodup_concat h.ids hid
    · rw [map_append]
      exact nodup_concat h.hashes hhash
    · cases hm
      cases hrevoke
  | revoke id now =>
    cases hs
    have hkept := h.call (if s.commits.memory.any fun g => g.id = id then some (.revoke id (isoText now)) else none) []
      nofun (by simpa using h.ids) (by simpa using h.hashes) (fun c => by split <;> rfl) ?_
    · rwa [append_nil] at hkept
    intro m hm c id' revokedAt hrevoke
    split at hm
    · rename_i hknown
      cases hm
      cases hrevoke
      obtain ⟨g, hg, hid⟩ := any_eq_true.1 hknown
      obtain ⟨before, after, hlog, hmemory, _⟩ := h.memory
      rw [hmemory] at hg
      obtain ⟨g', hg', hcore⟩ := created_of_mem hg
      refine ⟨(stamp_isoText hlawful now).2, g', ?_, (core_id hcore).trans (by simpa using hid)⟩
      rw [hlog, map_append, createsOf_append]
      exact mem_append_left _ hg'
    · cases hm
  | pruneExpired retentionMs now clock =>
    cases hs
    exact h.prunes _ _ _ _
  | writeStarts clock =>
    obtain ⟨commits, hq, rfl⟩ := Option.map_eq_some_iff.1 hs
    exact h.writes (h.linear.startWrite hq) (.of_startWrite hq) _
  | writeLands =>
    obtain ⟨commits, hq, rfl⟩ := Option.map_eq_some_iff.1 hs
    exact h.writes (h.linear.landWrite hq) (.of_landWrite hq) _
  | writeReturns =>
    obtain ⟨commits, hq, rfl⟩ := Option.map_eq_some_iff.1 hs
    exact h.writes (h.linear.finishWrite hq) (.of_finishWrite hq) _
  | writeFails =>
    obtain ⟨commits, hq, rfl⟩ := Option.map_eq_some_iff.1 hs
    exact h.writes (h.linear.failWrite hq) (.of_failWrite hq) _
  | restart retentionMs now clock =>
    cases hs
    obtain hloaded : texts.load s.commits.file = s.commits.file := by
      rw [h.linear.file]
      exact load_eq h.goodLog.all_good
    have hreload : GrantsHeld texts ⟨s.commits.reload (texts.load s.commits.file), true, s.issued⟩ :=
      h.writes (h.linear.reload hloaded) (.of_reload _ _) true
    exact hreload.prunes _ _ _ _

def HasEffect (texts : GrantTexts) (log : GrantLog) (grants : List ViewerGrant) (c : Commit GrantMutation) : Prop :=
  match c.mutation with
  | .create grant => (∃ g ∈ grants, g.core = grant) ∨ PrunedIn texts log grant.id
  | .revoke id _ => ∀ g ∈ grants, g.id = id → (stamp g.revokedAt).isSome = true
  | .prune cutoffMs => ∃ before e after, log = before ++ e :: after ∧ e.commit = c ∧
      ∀ g ∈ grantsOf texts before, texts.isPrunable cutoffMs (e.reading g) g = true → g.id ∉ grants.map ViewerGrant.id

theorem GoodLog.hasEffect {log : GrantLog} (h : GoodLog texts log) {e : Applied GrantMutation (ViewerGrant → ℤ)} (hmem : e ∈ log) :
    HasEffect texts log (grantsOf texts log) e.commit := by
  unfold HasEffect
  cases hmutation : e.commit.mutation with
  | create grant =>
    have hgrant : grant.core = grant := by
      have hcreated : grant ∈ createsOf (log.map Applied.commit) :=
        mem_filterMap.2 ⟨e.commit, mem_map_of_mem hmem, by rw [hmutation]⟩
      unfold ViewerGrant.core
      rw [← (h.good grant hcreated).2]
    rw [← hgrant]
    exact created_kept hmem hmutation
  | revoke id revokedAt => exact h.revoked_kept hmem hmutation
  | prune cutoffMs =>
    obtain ⟨before, after, rfl⟩ := append_of_mem hmem
    refine ⟨before, e, after, rfl, rfl, fun g hg hprunable hin => ?_⟩
    obtain ⟨g', hg', hid⟩ := mem_map.1 hin
    exact h.pruned_kept ⟨before, e, after, cutoffMs, rfl, hmutation, g, hg, rfl, hprunable⟩ g' hg' hid

theorem HasEffect.mono {log : GrantLog} {c : Commit GrantMutation} (h : HasEffect texts log grants c)
    (more : GrantLog) : HasEffect texts (log ++ more) grants c := by
  unfold HasEffect at h ⊢
  cases hmutation : c.mutation with
  | create grant =>
    rw [hmutation] at h
    exact h.imp_right fun hpruned => hpruned.mono more
  | revoke id revokedAt =>
    rw [hmutation] at h
    exact h
  | prune cutoffMs =>
    rw [hmutation] at h
    obtain ⟨before, e, after, rfl, hrest⟩ := h
    exact ⟨before, e, after ++ more, by simp, hrest⟩

/-- However calls, writes, failures and restarts interleave: the file is what the landed writes make of it, in the order of their
calls, and memory is the file but for a write that has not returned. A call that resolved has its effect, one that was rejected
has none, a token of a revoked grant is never valid, what is pruned did not resolve, and both readers agree. -/
theorem grants_linearizable (hlawful : texts.Lawful) {events : List GrantEvent}
    (hfresh : StepsMeet (step texts) (ViewerGrantStore.DrawsFresh texts) .start events)
    (hrun : exec (step texts) .start events = some s) : s.commits.file = grantsOf texts s.commits.log ∧
    (s.commits.log.map fun e => e.commit.call).Pairwise (· < ·) ∧
    ((∀ w ∈ s.commits.writing, w.landed = false) → s.commits.memory = s.commits.file) ∧
    (∀ w ∈ s.commits.writing, w.landed = true → ∃ before, s.commits.log = before ++ [w.applied] ∧ s.commits.memory = grantsOf texts before) ∧
    (∀ c, (c, true) ∈ s.commits.answers → HasEffect texts s.commits.log s.commits.memory c) ∧
    (∀ c, (c, false) ∈ s.commits.answers → ∀ e ∈ s.commits.log, e.commit ≠ c) ∧
    (∀ c id revokedAt, (c, true) ∈ s.commits.answers → c.mutation = .revoke id revokedAt →
      ∀ g ∈ s.issued, g.id = id → ∀ token, texts.hashToken token = g.tokenHash →
        ∀ now id' scope, texts.resolve s.commits.memory token now ≠ .valid id' scope) ∧
    (∀ before e after cutoffMs, s.commits.log = before ++ e :: after → e.commit.mutation = .prune cutoffMs →
      ∀ g ∈ grantsOf texts before, g ∉ grantsOf texts (before ++ [e]) → ∀ token, texts.hashToken token = g.tokenHash →
          ∀ id' scope, texts.resolve (grantsOf texts before) token (e.reading g) ≠ .valid id' scope) ∧
    (∀ g ∈ s.commits.memory, ∀ token, texts.hashToken token = g.tokenHash → ∀ now,
      texts.resolve s.commits.memory token now = (texts.liveness s.commits.memory g.id now).resolution g) := by
  have hheld : GrantsHeld texts s :=
    exec_invariant (fun _ _ _ h hok hs => h.step hlawful hok hs) (GrantsHeld.start texts) hfresh hrun
  obtain ⟨before, after, hlog, hmemory, hgood, hreturned⟩ := hheld.memory
  refine ⟨hheld.linear.file, ?_, hheld.linear.memory, ?_, ?_, ?_, ?_, ?_, ?_⟩
  · have hordered := hheld.linear.ordered
    unfold CommitQueue.ahead at hordered
    rw [map_append, map_map] at hordered
    exact (pairwise_append.1 hordered).1
  · exact fun w hw hlanded => (hheld.linear.landed w hw hlanded).2
  · intro c hc
    obtain ⟨e, he, rfl⟩ := hreturned c hc
    rw [hlog, hmemory]
    exact (hgood.hasEffect he).mono after
  · intro c hc e he heq
    refine (hheld.linear.rejected c hc).2 (mem_map_of_mem (mem_append_left _ ?_))
    rw [← heq]
    exact mem_map_of_mem he
  · intro c id revokedAt hc hrevoke g hg hid token htoken now id' scope hvalid
    obtain ⟨e, he, rfl⟩ := hreturned c hc
    rw [hmemory] at hvalid
    obtain ⟨m, hm, hhash, hunrevoked⟩ := resolve_valid hvalid
    -- the grant of the token is the one that was issued with it
    obtain ⟨g', hg', hcore⟩ := created_of_mem hm
    have hissued : g' ∈ s.issued := by
      have hahead := hheld.creates
      unfold CommitQueue.ahead at hahead
      rw [hlog, map_append, createsOf_append, createsOf_append] at hahead
      exact hahead.subset (mem_append_left _ (mem_append_left _ hg'))
    have hsame : g' = g := eq_of_key hheld.hashes hg hissued (((core_tokenHash hcore).trans hhash).trans htoken)
    subst hsame
    have hstamped := hgood.revoked_kept he hrevoke m hm ((core_id hcore).symm.trans hid)
    rw [hunrevoked] at hstamped
    cases hstamped
  · intro before e after cutoffMs hlog hprune g hg hgone token htoken id' scope
    have hgood := hheld.goodLog
    rw [hlog] at hgood
    have hprunable : texts.isPrunable cutoffMs (e.reading g) g = true := by
      by_contra hnot
      refine hgone ?_
      rw [grantsOf_concat, hprune]
      exact mem_filter.2 ⟨hg, by simp [hnot]⟩
    rw [resolve_eq hgood.before.hashes_nodup hg htoken]
    have hstatus := statusOf_prunable hprunable
    cases hcase : statusOf texts g (e.reading g) with
    | active => exact absurd hcase hstatus
    | revoked | expired | notFound => exact nofun
  · intro g hg token htoken now
    rw [hmemory] at hg ⊢
    rw [resolve_eq hgood.hashes_nodup hg htoken, liveness_eq hgood.ids_nodup hg]

def tokenTexts : GrantTexts where
  hashToken token :=
    if token = "viewer-token" then "d036bd6d01a1cae081d39a2f8dab751dc042de814fd60df31fcb553170950f29"
    else if token = "guest-token" then "1da7e95ba163e2a04fb0079b15fcaebfeec45f916e108f2b799f5b8cead9e46c"
    else String.ofList (List.replicate 64 '0')
  dateParse text := (IsoDate.dateParse text.toList).map Timestamp.ms

theorem hexText {text : String} (h : isTokenHash text = true) :
    text.length = 64 ∧ ∀ c ∈ text.toList, '0' ≤ c ∧ c ≤ '9' ∨ 'a' ≤ c ∧ c ≤ 'f' := by
  simpa [isTokenHash] using h

theorem tokenTexts_lawful : tokenTexts.Lawful where
  hash token := by
    unfold tokenTexts
    simp only
    split
    · exact hexText (by decide +kernel)
    split
    · exact hexText (by decide +kernel)
    · exact hexText (by decide +kernel)
  iso now := by
    have hparse : IsoDate.dateParse (isoText now).toList = some now := by
      unfold isoText
      rw [String.toList_ofList, IsoDate.dateParse_toISOString]
    unfold tokenTexts
    simp only
    rw [hparse]
    rfl

/-- The write of a second grant fails while the revocation of the first waits behind it. -/
def overlappingCalls : List GrantEvent :=
  [.create ⟨"wall display", .all, none⟩ "g1" "viewer-token" .epoch, .writeStarts fun _ => 0, .writeLands, .writeReturns,
    .create ⟨"guest", .all, none⟩ "g2" "guest-token" .epoch, .writeStarts fun _ => 0, .revoke "g1" .epoch, .writeFails,
    .writeStarts fun _ => 0, .writeLands, .writeReturns, .restart 1000 0 fun _ => 0]

def revokedGrant : ViewerGrant :=
  ⟨"g1", tokenTexts.hashToken "viewer-token", "wall display", .all, isoText .epoch, none, some (isoText .epoch)⟩

theorem grants_linearizable_overlapping : ∃ s, exec (step tokenTexts) .start overlappingCalls = some s ∧
    ∀ now, tokenTexts.resolve s.commits.memory "viewer-token" now = (tokenTexts.liveness s.commits.memory "g1" now).resolution revokedGrant := by
  have hmemory : (exec (step tokenTexts) .start overlappingCalls).map (fun s => s.commits.memory) = some [revokedGrant] := by
    decide +kernel
  obtain ⟨s, hs, hmem⟩ := Option.map_eq_some_iff.1 hmemory
  have hall := grants_linearizable tokenTexts_lawful (by decide +kernel) hs
  exact ⟨s, hs, hall.2.2.2.2.2.2.2.2 revokedGrant (by rw [hmem]; exact mem_singleton_self _) "viewer-token" rfl⟩

end Kookr.Core
