import Kookr.Lib.ListAt
import Kookr.Sanity.Core.CircuitEntries
import Kookr.Spec.Core.ProbeHolders

/-! One recovery probe for each dependency, in every run in which an owner is settled alone. A
settlement takes every owner of the dependency off and its token away, whoever they belong to: with
another owner or a probe left, the next launch is let through. -/

namespace Kookr.Core

open Kookr.Lib LaunchDependencyAdmission CircuitEntry List

variable {d : String} {entry : CircuitEntry} {now : ℤ} {token : ℕ}

namespace CircuitEntry

/-- The entry lets no launch through while the probe is outstanding. -/
def Held (token : ℕ) (entry : CircuitEntry) : Prop :=
  entry.startupRecoveryOwners ≠ [] ∨ entry.probeToken = some token ∧ (entry.state = .degraded ∨ entry.state = .halfOpen)

theorem Held.observe (h : Held token entry) (relevant : List DependencyFinding) : Held token (entry.observe now relevant) := by
  refine h.imp (fun howners => ?_) fun ⟨htoken, hstate⟩ => ⟨?_, ?_⟩
  · rwa [observe_owners]
  · rwa [observe_probeToken]
  · unfold CircuitEntry.observe
    dsimp only
    rcases hstate with hstate | hstate <;> split_ifs <;> (try split) <;> simp_all

theorem Held.completeProbe {token' : ℕ} (h : Held token entry) (hne : token ≠ token') (healthy : Bool) :
    Held token (entry.completeProbe now token' healthy) := by
  unfold CircuitEntry.completeProbe
  split
  · exact h
  · rename_i htoken
    refine .inl ?_
    rcases h with howners | ⟨htoken', -⟩
    · simpa using howners
    · exact absurd (Option.some.inj (htoken'.symm.trans (not_not.1 htoken))) hne

theorem Held.releaseProbe {token' : ℕ} (h : Held token entry) (hne : token ≠ token') :
    Held token (entry.releaseProbe now token') := by
  unfold CircuitEntry.releaseProbe
  split
  · exact h
  · rename_i htoken
    refine .inl ?_
    rcases h with howners | ⟨htoken', -⟩
    · split <;> simpa using howners
    · exact absurd (Option.some.inj (htoken'.symm.trans (not_not.1 htoken))) hne

theorem Held.busy (h : Held token entry) (hfence : entry.FenceOk) :
    (entry.state = .degraded ∨ entry.state = .halfOpen) ∧ entry.isBusy = true := by
  rcases h with howners | ⟨htoken, hstate⟩
  · exact ⟨.inr (hfence howners).1, by simp [isBusy, howners]⟩
  · exact ⟨hstate, by simp [isBusy, htoken]⟩

end CircuitEntry

namespace ProbeHolders

variable {s s' : ProbeHolders} {e : HolderEvent} {p : LaunchDependencyProbe} {own : String × String}
  {dependencies : List TaskLaunchAdmissionDependency} {ownerToken : String}

/-- No launch that needs a dependency is admitted while a probe of it is outstanding or one of its
owners is not settled. -/
def OneProbe (s : ProbeHolders) : Prop :=
  ∀ now required probe, (s.admission.evaluate now required).1 = .admits probe → ∀ d ∈ required.getD [],
    (∀ p ∈ s.outstanding, d ∉ p.dependencies) ∧ ∀ own ∈ s.cleanup, own.1 ≠ d

/-- Every owner that has not been settled still fences its dependency. -/
def Fenced (s : ProbeHolders) : Prop :=
  ∀ own ∈ s.cleanup, ∀ now, own.2 ∈ (s.admission.entry now own.1).startupRecoveryOwners

/-- Nobody else has the dependency when an owner of it is settled. -/
def Alone (s : ProbeHolders) (ownerToken d : String) : Prop :=
  (∀ own ∈ s.cleanup, own.1 = d → own.2 = ownerToken) ∧ ∀ p ∈ s.outstanding, d ∉ p.dependencies

instance Alone.decidable (s : ProbeHolders) (ownerToken d : String) : Decidable (Alone s ownerToken d) :=
  inferInstanceAs (Decidable (_ ∧ _))

def SettlesAlone (s : ProbeHolders) : HolderEvent → Prop
  | .settleReconciledProbe _ dependencies _ ownerToken => ∀ d ∈ dependencies, s.Alone ownerToken d.dependency
  | .releaseInterruptedProbe _ dependencies ownerToken => ∀ d ∈ dependencies, s.Alone ownerToken d.dependency
  | _ => True

instance SettlesAlone.decidable (s : ProbeHolders) (e : HolderEvent) : Decidable (SettlesAlone s e) :=
  match e with
  | .settleReconciledProbe .. | .releaseInterruptedProbe .. => List.decidableBAll _ _
  | .observe .. | .evaluate .. | .completeProbe .. | .releaseProbe .. | .retainProbeCleanup ..
  | .restoreInterruptedProbe .. => isTrue trivial

structure Guards (outstanding : List LaunchDependencyProbe) (cleanup : List (String × String)) (d : String)
    (entry : CircuitEntry) : Prop where
  fence : entry.FenceOk
  held : ∀ p ∈ outstanding, d ∈ p.dependencies → entry.Held p.token
  owners : ∀ own ∈ cleanup, own.1 = d → own.2 ∈ entry.startupRecoveryOwners

structure Inv (s : ProbeHolders) : Prop where
  guards : ∀ d, At s.admission d (Guards s.outstanding s.cleanup d)
  fresh : ∀ p ∈ s.outstanding, p.token ≤ s.admission.probeSequence
  distinct : (s.outstanding.map LaunchDependencyProbe.token).Nodup

theorem inv_start : Inv start where
  guards d := at_new fun now =>
    { fence := fenceOk_new now, held := by simp [start], owners := by simp [start] }
  fresh := by simp [start]
  distinct := nodup_nil

theorem Guards.mono {outstanding outstanding' : List LaunchDependencyProbe} {cleanup cleanup' : List (String × String)}
    (h : Guards outstanding cleanup d entry) (houtstanding : ∀ p ∈ outstanding', p ∈ outstanding)
    (hcleanup : ∀ own ∈ cleanup', own ∈ cleanup) : Guards outstanding' cleanup' d entry where
  fence := h.fence
  held p hp := h.held p (houtstanding p hp)
  owners own hown := h.owners own (hcleanup own hown)

section

variable (h : s.Inv)
include h

/-- With the token of the admission as it was, a part of the probes stays fresh and distinct. -/
theorem Inv.of_guards (hguards : ∀ d, At s'.admission d (Guards s'.outstanding s'.cleanup d))
    (houtstanding : s'.outstanding.Sublist s.outstanding)
    (hsequence : s'.admission.probeSequence = s.admission.probeSequence) : s'.Inv where
  guards := hguards
  fresh p hp := hsequence ▸ h.fresh p (houtstanding.subset hp)
  distinct := h.distinct.sublist (houtstanding.map _)

theorem Inv.token_ne {q : LaunchDependencyProbe} (hp : p ∈ s.outstanding) (hq : q ∈ s.outstanding.erase p) :
    q.token ≠ p.token := by
  intro heq
  obtain ⟨hne, hmem⟩ := (h.distinct.of_map _).mem_erase_iff.1 hq
  exact hne (inj_on_of_nodup_map h.distinct hmem hp heq)

omit h in
theorem mem_owned : own ∈ owned dependencies ownerToken ↔ own.2 = ownerToken ∧ ∃ d ∈ dependencies, d.dependency = own.1 := by
  obtain ⟨d, o⟩ := own
  simp only [owned, mem_map, Prod.mk.injEq]
  constructor
  · rintro ⟨d', hd', rfl, rfl⟩
    exact ⟨rfl, d', hd', rfl⟩
  · rintro ⟨rfl, d', hd', rfl⟩
    exact ⟨d', hd', rfl, rfl⟩

theorem Inv.observe (now : ℤ) (required : Option (List String)) (findings : List DependencyFinding) :
    Inv { s with admission := s.admission.observe now required findings } := by
  refine h.of_guards (fun d => ?_) (List.Sublist.refl _) (foldl_update_probeSequence (k := id) _)
  refine At.foldl_update (k := id) (fun x _ _ entry hentry => ?_) (h.guards d)
  exact ⟨hentry.fence.observe _, fun p hp hd => (hentry.held p hp hd).observe _, fun own hown hd => by
    rw [observe_owners]
    exact hentry.owners own hown hd⟩

theorem Inv.evaluate (now : ℤ) (required : Option (List String)) :
    Inv { s with
      admission := (s.admission.evaluate now required).2
      outstanding := s.outstanding ++ admitted (s.admission.evaluate now required).1 } := by
  rcases evaluate_cases s.admission now required with ⟨reason, ds, heq⟩ | ⟨-, heq⟩ |
    ⟨claimed, hclaimed, -, hidle, hadmitted, hsequence, hentry⟩
  · simp only [heq, admitted, append_nil]
    exact h.of_guards (fun d => (h.guards d).known) (List.Sublist.refl _) (known_probeSequence _ _)
  · simp only [heq, admitted, append_nil]
    exact h.of_guards (fun d => (h.guards d).known) (List.Sublist.refl _) (known_probeSequence _ _)
  · rw [hadmitted]
    refine ⟨fun d now' => ?_, fun p hp => ?_, ?_⟩
    · rw [hentry]
      split
      · rename_i hd
        have hguards := h.guards d now
        have hnot : ∀ token, ¬ (s.admission.entry now d).Held token := fun token hheld => by
          simpa [hidle d hd] using (hheld.busy hguards.fence).2
        refine ⟨fenceOk_claim (hidle d hd), fun p hp hpd => ?_, fun own hown hd' => ?_⟩
        · rcases mem_concat_cases hp with hp | rfl
          · exact absurd (hguards.held p hp hpd) (hnot p.token)
          · exact .inr ⟨rfl, .inr ((hclaimed d).1 hd).2⟩
        · exact absurd (.inl (ne_nil_of_mem (hguards.owners own hown hd'))) (hnot 0)
      · rename_i hd
        have hguards : Guards s.outstanding s.cleanup d ((s.admission.known now (uniqueDependencies required)).entry now' d) :=
          (h.guards d).known now'
        refine ⟨hguards.fence, fun p hp hpd => ?_, hguards.owners⟩
        rcases mem_concat_cases hp with hp | rfl
        · exact hguards.held p hp hpd
        · exact absurd hpd hd
    · rw [hsequence]
      rcases mem_concat_cases hp with hp | rfl
      · exact Nat.le_succ_of_le (h.fresh p hp)
      · exact Nat.le_refl _
    · rw [map_append, nodup_append]
      refine ⟨h.distinct, nodup_singleton _, fun token htoken token' htoken' => ?_⟩
      obtain ⟨p, hp, rfl⟩ := mem_map.1 htoken
      obtain rfl := mem_singleton.1 htoken'
      have hfresh := h.fresh p hp
      simp only
      omega

theorem Inv.completeProbe (now : ℤ) (hp : p ∈ s.outstanding) (healthy : Bool) :
    Inv { s with
      admission := s.admission.completeProbe now p healthy
      outstanding := s.outstanding.erase p } := by
  refine h.of_guards (fun d => ?_) erase_sublist (foldl_modify_probeSequence (k := id) _)
  refine At.foldl_modify (k := id) (fun x _ _ entry hentry => ?_)
    ((h.guards d).mono fun _ hentry => hentry.mono (fun q => mem_of_mem_erase) fun _ => id)
  refine ⟨hentry.fence.completeProbe _, fun q hq hd => ?_, fun own hown hd => ?_⟩
  · exact (hentry.held q hq hd).completeProbe (h.token_ne hp hq) healthy
  · have howners := hentry.owners own hown hd
    unfold CircuitEntry.completeProbe
    split
    · exact howners
    · simpa using howners

theorem Inv.releaseProbe (now : ℤ) (hp : p ∈ s.outstanding) :
    Inv { s with
      admission := s.admission.releaseProbe now p
      outstanding := s.outstanding.erase p } := by
  refine h.of_guards (fun d => ?_) erase_sublist (foldl_modify_probeSequence (k := id) _)
  refine At.foldl_modify (k := id) (fun x _ _ entry hentry => ?_)
    ((h.guards d).mono fun _ hentry => hentry.mono (fun q => mem_of_mem_erase) fun _ => id)
  refine ⟨hentry.fence.releaseProbe, fun q hq hd => ?_, fun own hown hd => ?_⟩
  · exact (hentry.held q hq hd).releaseProbe (h.token_ne hp hq)
  · have howners := hentry.owners own hown hd
    unfold CircuitEntry.releaseProbe
    split
    · exact howners
    · split <;> simpa using howners

theorem Inv.addOwners {f : CircuitEntry → CircuitEntry}
    (hfence : ∀ entry, (f entry).FenceOk) (howners : ∀ entry, (f entry).startupRecoveryOwners = entry.addOwner ownerToken) :
    Inv { s with
      admission := dependencies.foldl (fun a d => a.update now d.dependency f) s.admission
      cleanup := s.cleanup ++ owned dependencies ownerToken } := by
  refine h.of_guards (fun d => ?_) (List.Sublist.refl _) (foldl_update_probeSequence (k := TaskLaunchAdmissionDependency.dependency) _)
  by_cases hd : d ∈ dependencies.map (·.dependency)
  · refine At.foldl_update_mem (P := Guards s.outstanding s.cleanup d) hd (fun x _ _ entry hentry => ?_)
      (fun entry hentry => hentry.mono (fun _ => id) fun _ => mem_append_left _) (h.guards d)
    have hnew := howners entry
    refine ⟨hfence entry, fun p _ _ => .inl (hnew ▸ addOwner_ne_nil entry ownerToken), fun own hown hown' => ?_⟩
    rw [hnew, mem_addOwner]
    rcases mem_append.1 hown with hown | hown
    · exact .inr (hentry.owners own hown hown')
    · exact .inl (mem_owned.1 hown).1
  · refine At.foldl_update (fun x hx hxd => absurd (hxd ▸ mem_map_of_mem hx) hd) ((h.guards d).mono fun entry hentry => ?_)
    refine ⟨hentry.fence, hentry.held, fun own hown hown' => ?_⟩
    rcases mem_append.1 hown with hown | hown
    · exact hentry.owners own hown hown'
    · obtain ⟨-, d', hd', heq⟩ := mem_owned.1 hown
      exact absurd (mem_map.2 ⟨d', hd', heq.trans hown'⟩) hd

theorem Inv.settle {f : CircuitEntry → CircuitEntry} (hnil : ∀ entry, (f entry).startupRecoveryOwners = [])
    (halone : ∀ d ∈ dependencies, s.Alone ownerToken d.dependency) :
    Inv { s with
      admission := dependencies.foldl (fun a d => a.update now d.dependency f) s.admission
      cleanup := s.cleanup.filter fun own => own ∉ owned dependencies ownerToken } := by
  refine h.of_guards (fun d => ?_) (List.Sublist.refl _) (foldl_update_probeSequence (k := TaskLaunchAdmissionDependency.dependency) _)
  refine At.foldl_update (fun x hx hxd entry hentry => ?_)
    ((h.guards d).mono fun _ hentry => hentry.mono (fun _ => id) fun _ => mem_of_mem_filter)
  obtain ⟨howners, hprobes⟩ := hxd ▸ halone x hx
  refine ⟨fenceOk_of_nil (hnil entry), fun p hp hpd => absurd hpd (hprobes p hp), fun own hown hown' => ?_⟩
  obtain ⟨hmem, hleft⟩ := mem_filter.1 hown
  simp only [decide_eq_true_eq] at hleft
  exact absurd (mem_owned.2 ⟨howners own hmem hown', x, hx, hxd.trans hown'.symm⟩) hleft

theorem inv_step (hok : s.SettlesAlone e) (hstep : s.step e = some s') : s'.Inv := by
  cases e with
  | observe now required findings =>
    cases hstep
    exact h.observe now required findings
  | evaluate now required =>
    cases hstep
    exact h.evaluate now required
  | completeProbe now probe healthy =>
    obtain ⟨hp, hs'⟩ := Option.ite_none_right_eq_some.1 hstep
    cases hs'
    exact h.completeProbe now hp healthy
  | releaseProbe now probe =>
    obtain ⟨hp, hs'⟩ := Option.ite_none_right_eq_some.1 hstep
    cases hs'
    exact h.releaseProbe now hp
  | retainProbeCleanup now probe dependencies ownerToken =>
    obtain ⟨-, hs'⟩ := Option.ite_none_right_eq_some.1 hstep
    cases hs'
    -- the probe has ended, and what it covered is fenced
    have hended : Inv { s with outstanding := s.outstanding.erase probe } :=
      h.of_guards (fun d => (h.guards d).mono fun _ hentry => hentry.mono (fun _ => mem_of_mem_erase) fun _ => id)
        erase_sublist rfl
    exact hended.addOwners (fun entry => fenceOk_retainProbeCleanup entry now ownerToken) fun _ => rfl
  | restoreInterruptedProbe now dependencies ownerToken =>
    cases hstep
    exact h.addOwners (fun entry => fenceOk_restoreInterruptedProbe entry now ownerToken) fun _ => rfl
  | settleReconciledProbe now dependencies outcome ownerToken =>
    obtain ⟨-, hs'⟩ := Option.ite_none_right_eq_some.1 hstep
    cases hs'
    exact h.settle (fun entry => settle_owners entry now outcome) hok
  | releaseInterruptedProbe now dependencies ownerToken =>
    obtain ⟨-, hs'⟩ := Option.ite_none_right_eq_some.1 hstep
    cases hs'
    exact h.settle (fun _ => rfl) hok

theorem Inv.fenced : s.Fenced := fun own hown now => (h.guards own.1 now).owners own hown rfl

theorem Inv.oneProbe : s.OneProbe := by
  intro now required probe hadmitted d hd
  have hguards := h.guards d now
  have hfree : ∀ token, ¬ (s.admission.entry now d).Held token := by
    intro token hheld
    obtain ⟨hstate, hbusy⟩ := hheld.busy hguards.fence
    rcases evaluate_cases s.admission now required with ⟨reason, ds, heq⟩ | ⟨hnone, -⟩ |
      ⟨claimed, hclaimed, hdegraded, hidle, -, -, -⟩
    · simp [heq] at hadmitted
    · rcases hstate with hstate | hstate
      · exact (hnone d hd).1 hstate
      · exact (hnone d hd).2 hstate
    · rcases hstate with hstate | hstate
      · exact hdegraded d hd hstate
      · exact absurd hbusy (by simp [hidle d ((hclaimed d).2 ⟨hd, hstate⟩)])
  constructor
  · exact fun p hp hpd => hfree p.token (hguards.held p hp hpd)
  · exact fun own hown hown' => hfree 0 (.inl (ne_nil_of_mem (hguards.owners own hown hown')))

end

theorem one_probe (events : List HolderEvent) (hok : StepsMeet step SettlesAlone start events)
    (hrun : exec step start events = some s) : s.OneProbe ∧ s.Fenced := by
  have hinv : s.Inv := exec_invariant (fun _ _ _ h hok hstep => inv_step h hok hstep) inv_start hok hrun
  exact ⟨hinv.oneProbe, hinv.fenced⟩

def github : TaskLaunchAdmissionDependency := ⟨"github", .degraded, none⟩

/-- A failed dependency, a clean preflight, a probe that is handed to a cleanup owner, who is settled. -/
def cleanupRun : List HolderEvent :=
  [.observe 1 (some ["github"]) [⟨"github", "auth", none⟩], .observe 2 (some ["github"]) [], .evaluate 3 (some ["github"]),
    .retainProbeCleanup 4 ⟨1, ["github"]⟩ [github] "a", .settleReconciledProbe 5 [github] .released "a",
    .evaluate 6 (some ["github"])]

theorem one_probe_of_cleanupRun : ∃ s, exec step start cleanupRun = some s ∧ s.OneProbe ∧ s.Fenced :=
  ⟨_, rfl, one_probe cleanupRun (by decide) rfl⟩

/-- Two workers of one dependency were interrupted, and one of them has been reaped. -/
def halfSettled : List HolderEvent :=
  [.restoreInterruptedProbe 1 [github] "a", .restoreInterruptedProbe 2 [github] "b",
    .settleReconciledProbe 3 [github] .released "a"]

theorem two_probes : ¬ ∀ events s, exec step start events = some s → s.OneProbe ∧ s.Fenced := by
  intro h
  obtain ⟨s, hs, hcleanup, hadmitted⟩ : ∃ s, exec step start halfSettled = some s ∧ ("github", "b") ∈ s.cleanup ∧
      (s.admission.evaluate 4 (some ["github"])).1 = .admits (some ⟨1, ["github"]⟩) := ⟨_, rfl, by decide, by decide⟩
  exact ((h halfSettled s hs).1 4 _ _ hadmitted "github" (by simp)).2 _ hcleanup rfl

end ProbeHolders

end Kookr.Core
