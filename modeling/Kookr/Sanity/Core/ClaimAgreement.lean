import Kookr.Spec.Core.IssueClaimRegistry

/-! The map of owners and the claims on the tasks say the same, as far as live tasks go: what each
operation of the registry keeps of this. -/

namespace Kookr.Core

open Kookr.Lib Kookr.Launch OrderedMap List

theorem takeWhile_digits (n : ℕ) (rest : List Char) :
    ((Nat.toDigits 10 n).reverse ++ '\t' :: rest).takeWhile Char.isDigit = (Nat.toDigits 10 n).reverse := by
  rw [takeWhile_append_of_pos, takeWhile_cons_of_neg (by decide), append_nil]
  intro c hc
  exact Nat.isDigit_of_mem_toDigits (by decide) (by decide) (mem_reverse.1 hc)

theorem toList_claimKeyString (key : ClaimKey) :
    (claimKeyString key).toList.reverse = (Nat.toDigits 10 key.number).reverse ++ '\t' :: key.repo.toList.reverse := by
  simp [claimKeyString, String.toList_append]

theorem claimKeyString_inj {key key' : ClaimKey} (h : claimKeyString key = claimKeyString key') : key = key' := by
  have hrev := congrArg (fun k => k.toList.reverse) h
  simp only [toList_claimKeyString] at hrev
  have hdigits := congrArg (takeWhile Char.isDigit) hrev
  rw [takeWhile_digits, takeWhile_digits] at hdigits
  rw [hdigits] at hrev
  have hrepo := append_cancel_left hrev
  have hnumber : key.number = key'.number := by
    have := congrArg (fun ds => Nat.ofDigitChars 10 ds 0) (reverse_inj.1 hdigits)
    simpa [Nat.ofDigitChars_toDigits] using this
  have hrepo' : key.repo = key'.repo := String.toList_inj.1 (by simpa using hrepo)
  cases key
  simp_all

namespace IssueClaims

variable {s : IssueClaims} {k : String} {t u : String} {task : ClaimTaskView} {key : ClaimKey} {claimant : Claimant}

/-- The map and the claims agree. -/
structure Agree (s : IssueClaims) : Prop where
  projected : ∀ k t task, s.owners.get k = some t → s.tasks.get t = some task → task.claimKey = some k
  owned : ∀ k t task, s.tasks.get t = some task → task.isLive = true → task.claimKey = some k → s.owners.get k = some t

@[simp] theorem owners_setIssueClaim (s : IssueClaims) (t : String) (claim : IssueClaim) : (s.setIssueClaim t claim).owners = s.owners := by
  unfold setIssueClaim
  split <;> rfl

@[simp] theorem owners_clearIssueClaim (s : IssueClaims) (t : String) : (s.clearIssueClaim t).owners = s.owners := by
  unfold clearIssueClaim
  split <;> rfl

/-- To change the record of a task that is not there changes nothing. -/
theorem ite_eq_of_none {f : ClaimTaskView → ClaimTaskView} (h : s.tasks.get t = none) :
    (if t = u then (s.tasks.get u).map f else s.tasks.get u) = s.tasks.get u := by
  split
  · next heq => rw [← heq, h, Option.map_none]
  · rfl

theorem tasks_setIssueClaim (s : IssueClaims) (t u : String) (claim : IssueClaim) : (s.setIssueClaim t claim).tasks.get u =
    if t = u then (s.tasks.get u).map fun task => { task with issueClaim := some claim } else s.tasks.get u := by
  unfold setIssueClaim
  split
  · next task htask => exact s.tasks.get_set_map htask (fun task => { task with issueClaim := some claim }) u
  · next hnone => exact (ite_eq_of_none hnone).symm

theorem tasks_clearIssueClaim (s : IssueClaims) (t u : String) : (s.clearIssueClaim t).tasks.get u =
    if t = u then (s.tasks.get u).map fun task => { task with issueClaim := none } else s.tasks.get u := by
  unfold clearIssueClaim
  split
  · next task htask => exact s.tasks.get_set_map htask (fun task => { task with issueClaim := none }) u
  · next hnone => exact (ite_eq_of_none hnone).symm

theorem clearIssueClaim_owners (s : IssueClaims) (t k : String) : { s with owners := s.owners.delete k }.clearIssueClaim t =
      { s.clearIssueClaim t with owners := (s.clearIssueClaim t).owners.delete k } := by
  unfold clearIssueClaim
  dsimp only
  split <;> rfl

theorem owners_releaseAllFor (s : IssueClaims) (t k : String) :
    (s.releaseAllFor t).1.owners.get k = (s.owners.get k).filter fun owner => owner ≠ t := by
  unfold releaseAllFor
  dsimp only
  split
  · exact get_filter _ _ _
  · rw [owners_clearIssueClaim]
    exact get_filter _ _ _

theorem tasks_releaseAllFor_other (h : t ≠ u) : (s.releaseAllFor t).1.tasks.get u = s.tasks.get u := by
  unfold releaseAllFor
  dsimp only
  split
  · rfl
  · rw [tasks_clearIssueClaim, if_neg h]

theorem tasks_releaseAllFor_owner (h : s.owners.get k = some t) :
    (s.releaseAllFor t).1.tasks.get t = (s.tasks.get t).map fun task => { task with issueClaim := none } := by
  have hmem : k ∈ (s.owners.filter fun _ owner => owner = t).keys := by
    rw [← get_isSome_iff, get_filter, h]
    simp
  unfold releaseAllFor
  dsimp only
  rw [if_neg (ne_nil_of_mem hmem), tasks_clearIssueClaim, if_pos rfl]

theorem tasks_releaseAllFor_self (s : IssueClaims) (t : String) : (s.releaseAllFor t).1.tasks.get t = s.tasks.get t ∨
    (s.releaseAllFor t).1.tasks.get t = (s.tasks.get t).map fun task => { task with issueClaim := none } := by
  unfold releaseAllFor
  dsimp only
  split
  · exact .inl rfl
  · exact .inr (by rw [tasks_clearIssueClaim, if_pos rfl])

theorem claimKey_cleared {o : Option ClaimTaskView} (h : (o.map fun task => { task with issueClaim := none }) = some task) :
    task.claimKey ≠ some k := by
  obtain ⟨task', -, rfl⟩ := Option.map_eq_some_iff.1 h
  exact nofun

theorem Agree.releaseAllFor (h : Agree s) (t : String) : Agree (s.releaseAllFor t).1 := by
  constructor
  · intro k u task hk hu
    rw [owners_releaseAllFor, Option.filter_eq_some_iff] at hk
    have hne : t ≠ u := fun heq => by simp [heq] at hk
    rw [tasks_releaseAllFor_other hne] at hu
    exact h.projected k u task hk.1 hu
  · intro k u task hu hlive hk
    by_cases hne : t = u
    · subst hne
      rcases tasks_releaseAllFor_self s t with hsame | hcleared
      · -- whoever owns something loses its claim
        have howned := h.owned k t task (hsame ▸ hu) hlive hk
        exact absurd hk (claimKey_cleared (tasks_releaseAllFor_owner howned ▸ hu))
      · exact absurd hk (claimKey_cleared (hcleared ▸ hu))
    · rw [tasks_releaseAllFor_other hne] at hu
      rw [owners_releaseAllFor, h.owned k u task hu hlive hk]
      simp [Ne.symm hne]

theorem Agree.drop (h : Agree s) (hk : s.owners.get k = some t) :
    Agree ({ s with owners := s.owners.delete k }.clearIssueClaim t) := by
  constructor
  · intro k' u task hk' hu
    rw [owners_clearIssueClaim, get_delete] at hk'
    rw [tasks_clearIssueClaim] at hu
    split at hk'
    · cases hk'
    · next hne =>
      split at hu
      · next heq =>
        subst heq
        obtain ⟨task', htask', -⟩ := Option.map_eq_some_iff.1 hu
        have := (h.projected k t task' hk htask').symm.trans (h.projected k' t task' hk' htask')
        exact absurd (Option.some.inj this) hne
      · exact h.projected k' u task hk' hu
  · intro k' u task hu hlive hk'
    rw [tasks_clearIssueClaim] at hu
    split at hu
    · exact absurd hk' (claimKey_cleared hu)
    · next hne =>
      have howned := h.owned k' u task hu hlive hk'
      have hkey : k ≠ k' := by
        rintro rfl
        exact hne (Option.some.inj (hk.symm.trans howned))
      rw [owners_clearIssueClaim, get_delete, if_neg hkey, howned]

theorem Agree.grant (h : Agree s) (hk : s.owners.get (claimKeyString key) = none) (takeoverOf : Option String) (claimedAt : String) :
    Agree (s.grant key claimant takeoverOf claimedAt) := by
  have hreleased := h.releaseAllFor claimant.taskId
  have hnone : (s.releaseAllFor claimant.taskId).1.owners.get (claimKeyString key) = none := by
    rw [owners_releaseAllFor, hk]
    rfl
  have hother (k' : String) : (s.releaseAllFor claimant.taskId).1.owners.get k' ≠ some claimant.taskId := by
    rw [owners_releaseAllFor]
    intro heq
    simp at heq
  unfold IssueClaims.grant
  constructor
  · intro k' u task hk' hu
    rw [owners_setIssueClaim, get_set] at hk'
    rw [tasks_setIssueClaim] at hu
    split at hk'
    · next heq =>
      cases hk'
      rw [if_pos rfl] at hu
      obtain ⟨task', -, rfl⟩ := Option.map_eq_some_iff.1 hu
      simp [ClaimTaskView.claimKey, heq]
    · have hne : claimant.taskId ≠ u := fun heq => hother k' (heq ▸ hk')
      rw [if_neg hne] at hu
      exact hreleased.projected k' u task hk' hu
  · intro k' u task hu hlive hk'
    rw [tasks_setIssueClaim] at hu
    rw [owners_setIssueClaim, get_set]
    split at hu
    · next heq =>
      obtain ⟨task', -, rfl⟩ := Option.map_eq_some_iff.1 hu
      simp only [ClaimTaskView.claimKey, Option.map_some, Option.some.injEq] at hk'
      rw [if_pos hk', heq]
    · have howned := hreleased.owned k' u task hu hlive hk'
      have hne : claimKeyString key ≠ k' := by
        rintro rfl
        rw [hnone] at howned
        cases howned
      rw [if_neg hne, howned]

/-- Tasks keep their claims, and none comes to life with a claim that the map does not know. -/
theorem Agree.of_tasks {s' : IssueClaims} (h : Agree s) (howners : s'.owners = s.owners)
    (htasks : ∀ u task', s'.tasks.get u = some task' → ∃ task, s.tasks.get u = some task ∧ task'.claimKey = task.claimKey ∧
      (task'.isLive = true → task.isLive = true ∨ ∀ k, task.claimKey = some k → s.owners.get k = some u)) : Agree s' := by
  constructor
  · intro k u task' hk hu
    obtain ⟨task, htask, hkey, -⟩ := htasks u task' hu
    rw [howners] at hk
    rw [hkey]
    exact h.projected k u task hk htask
  · intro k u task' hu hlive hk
    obtain ⟨task, htask, hkey, hwas⟩ := htasks u task' hu
    rw [hkey] at hk
    rw [howners]
    exact (hwas hlive).elim (fun hlive => h.owned k u task htask hlive hk) fun hknown => hknown k hk

theorem Agree.refresh (h : Agree s) {holder : ClaimTaskView} (hholder : s.tasks.get claimant.taskId = some holder) :
    Agree (s.refresh holder claimant) := by
  unfold IssueClaims.refresh
  split
  · next sessionId claim _ hclaim =>
    refine h.of_tasks (owners_setIssueClaim _ _ _) fun u task' hu => ?_
    rw [tasks_setIssueClaim] at hu
    split at hu
    · next heq =>
      subst heq
      rw [hholder] at hu
      cases hu
      exact ⟨holder, hholder, by simp [ClaimTaskView.claimKey, hclaim], fun hlive => .inl hlive⟩
    · exact ⟨task', hu, rfl, fun hlive => .inl hlive⟩
  · exact h

/-- What a claim comes down to. -/
inductive Claimed (s : IssueClaims) (key : ClaimKey) (claimant : Claimant) (force : Bool) (claimedAt : String) : IssueClaims → Prop where
  | free (hfree : s.owners.get (claimKeyString key) = none) : Claimed s key claimant force claimedAt (s.grant key claimant none claimedAt)
  | again (holder : ClaimTaskView) (howner : s.owners.get (claimKeyString key) = some claimant.taskId)
      (hholder : s.tasks.get claimant.taskId = some holder) : Claimed s key claimant force claimedAt (s.refresh holder claimant)
  | denied : Claimed s key claimant force claimedAt s
  | taken (holderId : String) (takeoverOf : Option String) (howner : s.owners.get (claimKeyString key) = some holderId)
      (hmay : force = true ∧ holderId ≠ claimant.taskId ∨ (s.tasks.get holderId).any ClaimTaskView.isLive = false) :
      Claimed s key claimant force claimedAt
        (({ s with owners := s.owners.delete (claimKeyString key) }.clearIssueClaim holderId).grant key claimant takeoverOf claimedAt)

theorem claim_claimed (s : IssueClaims) (key : ClaimKey) (claimant : Claimant) (force : Bool) (claimedAt : String) :
    Claimed s key claimant force claimedAt (s.claim key claimant force claimedAt).1 := by
  unfold claim
  dsimp only
  split
  · next hfree => exact .free hfree
  · next holderId howner =>
    split
    · next holder hholder =>
      rw [Option.filter_eq_some_iff] at hholder
      split
      · next heq =>
        subst heq
        exact .again holder howner hholder.1
      · next hne =>
        split
        · next hforce =>
          rw [← clearIssueClaim_owners]
          exact .taken holderId (some holderId) howner (.inl ⟨hforce, hne⟩)
        · exact .denied
    · next hgone =>
      refine .taken holderId none howner (.inr ?_)
      cases ht : s.tasks.get holderId with
      | none => rfl
      | some task => simpa [ht, Option.filter] using hgone

theorem Agree.claim (h : Agree s) (key : ClaimKey) (claimant : Claimant) (force : Bool) (claimedAt : String) :
    Agree (s.claim key claimant force claimedAt).1 := by
  have hclaimed := claim_claimed s key claimant force claimedAt
  generalize (s.claim key claimant force claimedAt).1 = s' at hclaimed
  cases hclaimed with
  | free hfree => exact h.grant hfree _ _
  | again holder howner hholder => exact h.refresh hholder
  | denied => exact h
  | taken holderId takeoverOf howner hmay =>
    refine (h.drop howner).grant ?_ _ _
    rw [owners_clearIssueClaim, get_delete, if_pos rfl]

def live (s : IssueClaims) (t : String) : Bool := (s.tasks.get t).any ClaimTaskView.isLive

@[simp] theorem live_setIssueClaim (s : IssueClaims) (t u : String) (claim : IssueClaim) : (s.setIssueClaim t claim).live u = s.live u := by
  unfold live
  rw [tasks_setIssueClaim]
  split
  · cases s.tasks.get u <;> rfl
  · rfl

@[simp] theorem live_clearIssueClaim (s : IssueClaims) (t u : String) : (s.clearIssueClaim t).live u = s.live u := by
  unfold live
  rw [tasks_clearIssueClaim]
  split
  · cases s.tasks.get u <;> rfl
  · rfl

@[simp] theorem live_owners (s : IssueClaims) (owners : OrderedMap String String) (u : String) : { s with owners }.live u = s.live u := rfl

@[simp] theorem live_releaseAllFor (s : IssueClaims) (t u : String) : (s.releaseAllFor t).1.live u = s.live u := by
  unfold releaseAllFor
  dsimp only
  split
  · rfl
  · rw [live_clearIssueClaim, live_owners]

@[simp] theorem live_grant (s : IssueClaims) (takeoverOf : Option String) (claimedAt : String) (u : String) :
    (s.grant key claimant takeoverOf claimedAt).live u = s.live u := by
  simp [grant]

@[simp] theorem live_refresh (s : IssueClaims) (holder : ClaimTaskView) (u : String) : (s.refresh holder claimant).live u = s.live u := by
  unfold refresh
  split
  · rw [live_setIssueClaim]
  · rfl

theorem live_claim (s : IssueClaims) (key : ClaimKey) (claimant : Claimant) (force : Bool) (claimedAt : String) (u : String) :
    (s.claim key claimant force claimedAt).1.live u = s.live u := by
  have hclaimed := claim_claimed s key claimant force claimedAt
  generalize (s.claim key claimant force claimedAt).1 = s' at hclaimed
  cases hclaimed <;> simp

/-- A grant takes the key, and everything else from the claimant alone. -/
theorem owners_grant_other {takeoverOf : Option String} {claimedAt : String} (hkey : claimKeyString key ≠ k)
    (howner : s.owners.get k = some t) (hne : t ≠ claimant.taskId) :
    (s.grant key claimant takeoverOf claimedAt).owners.get k = some t := by
  unfold grant
  rw [owners_setIssueClaim]
  rw [get_set_of_ne _ _ hkey, owners_releaseAllFor, howner]
  simp [hne]

@[simp] theorem owners_refresh (s : IssueClaims) (holder : ClaimTaskView) : (s.refresh holder claimant).owners = s.owners := by
  unfold refresh
  split
  · rw [owners_setIssueClaim]
  · rfl

/-- A live owner loses a key to another key of its own, or by force to another task. -/
theorem owners_claim (howner : s.owners.get k = some t) (hlive : s.live t = true) (key : ClaimKey) (claimant : Claimant)
    (force : Bool) (claimedAt : String) : (s.claim key claimant force claimedAt).1.owners.get k = some t ∨
      claimant.taskId = t ∧ claimKeyString key ≠ k ∨ claimant.taskId ≠ t ∧ claimKeyString key = k ∧ force = true := by
  have hclaimed := claim_claimed s key claimant force claimedAt
  generalize (s.claim key claimant force claimedAt).1 = s' at hclaimed
  cases hclaimed with
  | free hfree =>
    have hkey : claimKeyString key ≠ k := by
      rintro rfl
      rw [hfree] at howner
      cases howner
    by_cases ht : claimant.taskId = t
    · exact .inr (.inl ⟨ht, hkey⟩)
    · exact .inl (owners_grant_other hkey howner (Ne.symm ht))
  | again holder howner' hholder => exact .inl (by rw [owners_refresh, howner])
  | denied => exact .inl howner
  | taken holderId takeoverOf howner' hmay =>
    by_cases ht : claimant.taskId = t
    · refine .inr (.inl ⟨ht, ?_⟩)
      rintro rfl
      -- the live claimant is the holder, and is not taken over
      obtain rfl := Option.some.inj (howner'.symm.trans howner)
      rcases hmay with ⟨-, hne⟩ | hgone
      · exact hne ht.symm
      · rw [live, hgone] at hlive
        cases hlive
    · by_cases hkey : claimKeyString key = k
      · subst hkey
        obtain rfl := Option.some.inj (howner'.symm.trans howner)
        rcases hmay with ⟨hforce, -⟩ | hgone
        · exact .inr (.inr ⟨ht, rfl, hforce⟩)
        · rw [live, hgone] at hlive
          cases hlive
      · refine .inl (owners_grant_other hkey ?_ (Ne.symm ht))
        rw [owners_clearIssueClaim, get_delete, if_neg hkey, howner]

def carries (k : String) (entry : String × ClaimTaskView) : Bool := entry.2.isLive && entry.2.claimKey = some k

theorem foldl_rebuildOwner (entries : List (String × ClaimTaskView)) (owners : OrderedMap String String) (k : String) :
    (entries.foldl rebuildOwner owners).get k = (owners.get k).or ((entries.find? (carries k)).map Prod.fst) := by
  induction entries generalizing owners with
  | nil => simp
  | cons entry entries ih =>
    rw [foldl_cons, ih, find?_cons]
    cases hkey : entry.2.claimKey with
    | none =>
      have hcarries : carries k entry = false := by simp [carries, hkey]
      rw [hcarries, rebuildOwner, hkey]
    | some k₀ =>
      simp only [rebuildOwner, hkey]
      by_cases heq : k₀ = k
      · -- the key itself: it is taken, or the owner of the entry takes it, or passes it by
        subst heq
        cases hget : owners.get k₀ <;> cases hlive : entry.2.isLive <;> simp [carries, hkey, hlive, hget, has]
      · have hcarries : carries k entry = false := by simp [carries, hkey, heq]
        rw [hcarries]
        split
        · rw [get_set_of_ne _ _ heq]
        · rfl

theorem owners_rebuildFromTasks (s : IssueClaims) (k : String) :
    s.rebuildFromTasks.owners.get k = (s.tasks.entries.find? (carries k)).map Prod.fst := by
  unfold rebuildFromTasks
  rw [foldl_rebuildOwner, get_empty, Option.none_or]

theorem owners_rebuildFromTasks_some (h : s.rebuildFromTasks.owners.get k = some t) :
    ∃ task, s.tasks.get t = some task ∧ task.isLive = true ∧ task.claimKey = some k := by
  rw [owners_rebuildFromTasks] at h
  obtain ⟨⟨t', task⟩, hfind, rfl⟩ := Option.map_eq_some_iff.1 h
  have hcarries := find?_some hfind
  simp only [carries, Bool.and_eq_true, decide_eq_true_eq] at hcarries
  exact ⟨task, (get_eq_some_iff _ _ _).2 (mem_of_find?_eq_some hfind), hcarries⟩

theorem Agree.owners_restart (h : Agree s) (htask : s.tasks.get t = some task) (hlive : task.isLive = true)
    (hk : task.claimKey = some k) : s.rebuildFromTasks.owners.get k = some t := by
  have hmem : (t, task) ∈ s.tasks.entries := (get_eq_some_iff _ _ _).1 htask
  have hsome : (s.tasks.entries.find? (carries k)).isSome = true := find?_isSome.2 ⟨(t, task), hmem, by simp [carries, hlive, hk]⟩
  obtain ⟨⟨t', task'⟩, hfind⟩ := Option.isSome_iff_exists.1 hsome
  have hrebuilt : s.rebuildFromTasks.owners.get k = some t' := by rw [owners_rebuildFromTasks, hfind, Option.map_some]
  obtain ⟨other, hother, hotherLive, hotherKey⟩ := owners_rebuildFromTasks_some hrebuilt
  rw [hrebuilt, ← h.owned k t' other hother hotherLive hotherKey, h.owned k t task htask hlive hk]

theorem Agree.restart (h : Agree s) : Agree s.rebuildFromTasks := by
  constructor
  · intro k t task hk ht
    obtain ⟨other, hother, -, hkey⟩ := owners_rebuildFromTasks_some hk
    obtain rfl := Option.some.inj (hother.symm.trans ht)
    exact hkey
  · exact fun k t task ht hlive hk => h.owners_restart ht hlive hk

end IssueClaims

end Kookr.Core
