import Kookr.Lib.Exec
import Kookr.Sanity.Core.ClaimAgreement

/-! A live task that owns an issue keeps it, over restarts as well, in every run in which no task
comes back to life with a claim that the registry has forgotten. A restart forgets the claim of a task
that ended without a release; when the task is reopened, two live tasks may carry one claim. -/

namespace Kookr.Core.IssueClaims

open Kookr.Lib Kookr.Launch Option OrderedMap

variable {s s' : IssueClaims} {e : ClaimStep} {key : ClaimKey} {k t : String}

def Owns (s : IssueClaims) (t : String) (key : ClaimKey) : Prop := (s.ownerRecord key).map ClaimOwnerRecord.taskId = some t

def Ends (t : String) (key : ClaimKey) : ClaimStep → Prop
  | .claim key' claimant force _ => claimant.taskId = t ∧ key' ≠ key ∨ claimant.taskId ≠ t ∧ key' = key ∧ force = true
  | .release taskId => taskId = t
  | .transition taskId status => taskId = t ∧ status.isTerminalStatus = true
  | .delete taskId => taskId = t
  | _ => False

structure Exclusive (s : IssueClaims) : Prop where
  kept : ∀ e s' key t, step s e = some s' → Owns s t key → Owns s' t key ∨ Ends t key e
  restart : ∀ key, s.rebuildFromTasks.ownerRecord key = s.ownerRecord key
  carried : ∀ key t u task other, s.tasks.get t = some task → s.tasks.get u = some other → task.isLive = true → other.isLive = true →
    task.issueClaim.map IssueClaim.toClaimKey = some key → other.issueClaim.map IssueClaim.toClaimKey = some key → t = u

/-- A task that comes back to life has no claim, or the map still names it as the owner. -/
def ReopensOwned (s : IssueClaims) : ClaimStep → Prop
  | .transition taskId status =>
    match s.tasks.get taskId with
    | some task => task.isLive = true ∨ status.isTerminalStatus = true ∨
        (task.claimKey.all fun k => s.owners.get k = some taskId) = true
    | none => True
  | _ => True

instance ReopensOwned.decidable (s : IssueClaims) (e : ClaimStep) : Decidable (s.ReopensOwned e) := by
  unfold ReopensOwned
  split
  · split <;> infer_instance
  · infer_instance

theorem agree_empty : Agree empty := ⟨(fun _ _ _ h => nomatch h), fun _ _ _ h => nomatch h⟩

theorem agree_step (h : Agree s) (hok : s.ReopensOwned e) (hstep : step s e = some s') : Agree s' := by
  cases e with
  | create taskId name worktreePath =>
    simp only [step, ite_none_left_eq_some, not_or, some.injEq] at hstep
    obtain ⟨⟨-, hunknown⟩, rfl⟩ := hstep
    constructor
    · intro k u task hk hu
      rw [get_set] at hu
      split at hu
      · next heq =>
        subst heq
        exact absurd ((mem_values_iff _ _).2 ⟨k, hk⟩) hunknown
      · exact h.projected k u task hk hu
    · intro k u task hu hlive hk
      rcases get_set_some hu with ⟨-, rfl⟩ | ⟨-, hu⟩
      · cases hk
      · exact h.owned k u task hu hlive hk
  | claim key claimant force claimedAt =>
    cases hstep
    exact h.claim key claimant force claimedAt
  | release taskId =>
    cases hstep
    exact h.releaseAllFor taskId
  | transition taskId status =>
    simp only [step, bind_eq_bind, bind_eq_some_iff, ite_none_right_eq_some, pure_def, some.injEq] at hstep
    obtain ⟨task, htask, -, rfl⟩ := hstep
    refine h.of_tasks rfl fun u task' hu => ?_
    rw [get_set] at hu
    split at hu
    · next heq =>
      subst heq
      cases hu
      refine ⟨task, htask, rfl, fun hlive => ?_⟩
      simp only [ReopensOwned, htask] at hok
      rcases hok with hwas | hterminal | hknown
      · exact .inl hwas
      · simp [ClaimTaskView.isLive, hterminal] at hlive
      · exact .inr fun k hk => of_decide_eq_true ((all_eq_true _ _).1 hknown k hk)
    · exact ⟨task', hu, rfl, fun hlive => .inl hlive⟩
  | delete taskId =>
    simp only [step, ite_none_right_eq_some, some.injEq] at hstep
    obtain ⟨-, rfl⟩ := hstep
    refine h.of_tasks rfl fun u task' hu => ?_
    exact ⟨task', (get_delete_some hu).2, rfl, fun hlive => .inl hlive⟩
  | restart =>
    cases hstep
    exact h.restart

theorem ownerRecord_eq_some {r : ClaimOwnerRecord} : s.ownerRecord key = some r ↔
    ∃ t task, s.owners.get (claimKeyString key) = some t ∧ s.tasks.get t = some task ∧ task.isLive = true ∧ toOwnerRecord t task = r := by
  simp only [ownerRecord, bind_eq_bind, bind_eq_some_iff, filter_eq_some_iff, pure_def, some.injEq]
  constructor
  · rintro ⟨t, ht, task, ⟨htask, hlive⟩, rfl⟩
    exact ⟨t, task, ht, htask, hlive, rfl⟩
  · rintro ⟨t, task, ht, htask, hlive, rfl⟩
    exact ⟨t, ht, task, ⟨htask, hlive⟩, rfl⟩

theorem owns_iff : Owns s t key ↔ s.owners.get (claimKeyString key) = some t ∧ s.live t = true := by
  simp only [Owns, map_eq_some_iff, ownerRecord_eq_some, live, any_eq_true]
  constructor
  · rintro ⟨r, ⟨u, task, hu, htask, hlive, rfl⟩, rfl⟩
    exact ⟨hu, task, htask, hlive⟩
  · rintro ⟨hu, task, htask, hlive⟩
    exact ⟨toOwnerRecord t task, ⟨t, task, hu, htask, hlive, rfl⟩, rfl⟩

theorem ownerRecord_restart (h : Agree s) (key : ClaimKey) : s.rebuildFromTasks.ownerRecord key = s.ownerRecord key := by
  refine ext fun r => ?_
  rw [ownerRecord_eq_some, ownerRecord_eq_some]
  constructor
  · rintro ⟨t, task, howner, htask, hlive, hr⟩
    obtain ⟨other, hother, -, hkey⟩ := owners_rebuildFromTasks_some howner
    obtain rfl := some.inj (hother.symm.trans htask)
    exact ⟨t, other, h.owned _ t other htask hlive hkey, htask, hlive, hr⟩
  · rintro ⟨t, task, howner, htask, hlive, hr⟩
    exact ⟨t, task, h.owners_restart htask hlive (h.projected _ t task howner htask), htask, hlive, hr⟩

theorem kept_step (h : Agree s) (hstep : step s e = some s') (howns : Owns s t key) : Owns s' t key ∨ Ends t key e := by
  obtain ⟨howner, hlive⟩ := owns_iff.1 howns
  have halive {s' : IssueClaims} (howner' : s'.owners.get (claimKeyString key) = some t) (hlive' : s'.live t = true) : Owns s' t key :=
    owns_iff.2 ⟨howner', hlive'⟩
  cases e with
  | create taskId name worktreePath =>
    simp only [step, ite_none_left_eq_some, not_or, some.injEq] at hstep
    obtain ⟨⟨hnew, -⟩, rfl⟩ := hstep
    have hne : taskId ≠ t := by
      rintro rfl
      cases htask : s.tasks.get taskId with
      | none => simp [live, htask] at hlive
      | some task => simp [has, htask] at hnew
    exact .inl (halive howner (by rw [live, get_set_of_ne _ _ hne]; exact hlive))
  | claim key' claimant force claimedAt =>
    cases hstep
    rcases owners_claim howner hlive key' claimant force claimedAt with hkept | ⟨ht, hne⟩ | ⟨ht, hkey, hforce⟩
    · exact .inl (halive hkept (by rw [live_claim, hlive]))
    · exact .inr (.inl ⟨ht, fun heq => hne (by rw [heq])⟩)
    · exact .inr (.inr ⟨ht, claimKeyString_inj hkey, hforce⟩)
  | release taskId =>
    cases hstep
    by_cases ht : taskId = t
    · exact .inr ht
    · exact .inl (halive (by rw [owners_releaseAllFor, howner]; simp [Ne.symm ht]) (by rw [live_releaseAllFor, hlive]))
  | transition taskId status =>
    simp only [step, bind_eq_bind, bind_eq_some_iff, ite_none_right_eq_some, pure_def, some.injEq] at hstep
    obtain ⟨task, htask, -, rfl⟩ := hstep
    by_cases ht : taskId = t
    · subst ht
      cases hterminal : status.isTerminalStatus with
      | true => exact .inr ⟨rfl, hterminal⟩
      | false => exact .inl (halive howner (by simp [live, ClaimTaskView.isLive, hterminal]))
    · exact .inl (halive howner (by rw [live, get_set_of_ne _ _ ht]; exact hlive))
  | delete taskId =>
    simp only [step, ite_none_right_eq_some, some.injEq] at hstep
    obtain ⟨-, rfl⟩ := hstep
    by_cases ht : taskId = t
    · exact .inr ht
    · exact .inl (halive howner (by rw [live, get_delete, if_neg ht]; exact hlive))
  | restart =>
    cases hstep
    exact .inl (by rw [Owns, ownerRecord_restart h]; exact howns)

theorem claimKey_eq {task : ClaimTaskView} (h : task.issueClaim.map IssueClaim.toClaimKey = some key) :
    task.claimKey = some (claimKeyString key) := by
  obtain ⟨claim, hclaim, rfl⟩ := map_eq_some_iff.1 h
  rw [ClaimTaskView.claimKey, hclaim, map_some]

theorem Agree.exclusive (h : Agree s) : Exclusive s := by
  refine ⟨fun e s' key t hstep howns => kept_step h hstep howns, ownerRecord_restart h, ?_⟩
  intro key t u task other htask hother hlive hlive' hkey hkey'
  have howner := h.owned _ t task htask hlive (claimKey_eq hkey)
  have howner' := h.owned _ u other hother hlive' (claimKey_eq hkey')
  exact some.inj (howner.symm.trans howner')

/-- In every run whose reopened tasks come back with no claim, or with one that the registry still
knows, ownership is exclusive and survives restarts. -/
theorem ownership_exclusive (events : List ClaimStep) (s : IssueClaims) (hrun : exec step empty events = some s)
    (hok : StepsMeet step ReopensOwned empty events) : Exclusive s :=
  (exec_invariant (fun _ _ _ h hok hstep => agree_step h hok hstep) agree_empty hok hrun).exclusive

def issue : ClaimKey := ⟨"github.com/owner/repo", 7⟩

/-- Two tasks, a takeover, a release that is missed, a restart, and a task that comes back without its claim. -/
def claimRun : List ClaimStep :=
  [.create "first" none none, .claim issue ⟨"first", some "session"⟩ false "2026-01-01", .create "second" none none,
    .claim issue ⟨"second", none⟩ true "2026-01-02", .transition "second" .terminated, .restart,
    .claim issue ⟨"first", none⟩ false "2026-01-03", .transition "first" .inProgress, .transition "first" .completed,
    .release "first", .restart, .transition "first" .open]

theorem ownership_exclusive_claimRun : ∃ s, exec step empty claimRun = some s ∧ Exclusive s := by
  cases hrun : exec step empty claimRun with
  | none => exact absurd hrun (by decide +kernel)
  | some s => exact ⟨s, rfl, ownership_exclusive claimRun s hrun (by decide +kernel)⟩

/-- The first task ends without a release and is forgotten by a restart; the second one claims the
issue; the first one is reopened with its claim. -/
def forgottenRun : List ClaimStep :=
  [.create "first" none none, .claim issue ⟨"first", none⟩ false "2026-01-01", .transition "first" .terminated, .restart,
    .create "second" none none, .claim issue ⟨"second", none⟩ false "2026-01-02", .transition "first" .open]

theorem tasks_forgottenRun : (exec step empty forgottenRun).map (fun s => (s.tasks.get "first", s.tasks.get "second")) =
    some (some ⟨.open, none, some ⟨issue, none, "2026-01-01", none⟩, none⟩, some ⟨.open, none, some ⟨issue, none, "2026-01-02", none⟩, none⟩) := by
  decide +kernel

theorem two_carry : ¬ ∀ events s, exec step empty events = some s → Exclusive s := by
  intro h
  obtain ⟨s, hrun, htasks⟩ := map_eq_some_iff.1 tasks_forgottenRun
  obtain ⟨hfirst, hsecond⟩ := Prod.mk.inj htasks
  have hsame := (h forgottenRun s hrun).carried issue "first" "second" _ _ hfirst hsecond rfl rfl rfl rfl
  exact absurd hsame (by decide)

end Kookr.Core.IssueClaims
