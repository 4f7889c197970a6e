import Kookr.Spec.Core.LaunchDependencyAdmission

/-! What the operations of the admission do to the entry of one dependency. An entry that has a
cleanup owner is half-open and carries no token: every operation keeps that. -/

namespace Kookr.Core

open Kookr.Lib List

namespace CircuitEntry

variable {entry : CircuitEntry} {now : ℤ} {token : ℕ} {ownerToken o : String}

@[simp] theorem transition_state (entry : CircuitEntry) (now : ℤ) (state : LaunchDependencyState) :
    (entry.transition now state).state = state := by
  unfold transition
  split
  · assumption
  · rfl

@[simp] theorem transition_probeToken (entry : CircuitEntry) (now : ℤ) (state : LaunchDependencyState) :
    (entry.transition now state).probeToken = entry.probeToken := by
  unfold transition
  split <;> rfl

@[simp] theorem transition_probeInvalidated (entry : CircuitEntry) (now : ℤ) (state : LaunchDependencyState) :
    (entry.transition now state).probeInvalidated = entry.probeInvalidated := by
  unfold transition
  split <;> rfl

@[simp] theorem transition_owners (entry : CircuitEntry) (now : ℤ) (state : LaunchDependencyState) :
    (entry.transition now state).startupRecoveryOwners = entry.startupRecoveryOwners := by
  unfold transition
  split <;> rfl

@[simp] theorem mem_addOwner : o ∈ entry.addOwner ownerToken ↔ o = ownerToken ∨ o ∈ entry.startupRecoveryOwners := by
  unfold addOwner
  split
  · rename_i hmem
    exact ⟨Or.inr, fun h => h.elim (fun heq => heq ▸ hmem) id⟩
  · simp [or_comm]

theorem addOwner_ne_nil (entry : CircuitEntry) (ownerToken : String) : entry.addOwner ownerToken ≠ [] :=
  ne_nil_of_mem (mem_addOwner.2 (.inl rfl))

/-- A dependency with a cleanup owner is half-open, and nobody holds a probe of it. -/
def FenceOk (entry : CircuitEntry) : Prop :=
  entry.startupRecoveryOwners ≠ [] → entry.state = .halfOpen ∧ entry.probeToken = none

theorem fenceOk_of_nil (h : entry.startupRecoveryOwners = []) : FenceOk entry := fun hne => absurd h hne

theorem fenceOk_new (now : ℤ) : FenceOk (new now) := fenceOk_of_nil rfl

theorem observe_owners (entry : CircuitEntry) (relevant : List DependencyFinding) (now : ℤ) :
    (entry.observe now relevant).startupRecoveryOwners = entry.startupRecoveryOwners := by
  unfold observe
  dsimp only
  split_ifs
  · split <;> rfl
  all_goals (try split) <;> simp

theorem observe_probeToken (entry : CircuitEntry) (relevant : List DependencyFinding) (now : ℤ) :
    (entry.observe now relevant).probeToken = entry.probeToken := by
  unfold observe
  dsimp only
  split_ifs
  · split <;> rfl
  all_goals (try split) <;> simp

theorem observe_state_of_fenced (h : entry.startupRecoveryOwners ≠ []) (relevant : List DependencyFinding) :
    (entry.observe now relevant).state = entry.state := by
  unfold observe
  rw [if_pos h]
  split <;> rfl

theorem FenceOk.observe (h : FenceOk entry) (relevant : List DependencyFinding) : FenceOk (entry.observe now relevant) := by
  intro hne
  rw [observe_owners] at hne
  rw [observe_state_of_fenced hne, observe_probeToken]
  exact h hne

theorem fenceOk_claim (h : entry.isBusy = false) : FenceOk (entry.claim token) := by
  simp only [isBusy, Bool.or_eq_false_iff, decide_eq_false_iff_not, not_not] at h
  exact fenceOk_of_nil h.2

theorem FenceOk.completeProbe (h : FenceOk entry) (healthy : Bool) : FenceOk (entry.completeProbe now token healthy) := by
  unfold CircuitEntry.completeProbe
  split
  · exact h
  · rename_i htoken
    intro hne
    simp only [transition_owners] at hne
    exact absurd ((h hne).2.symm.trans (not_not.1 htoken)) (by simp)

theorem FenceOk.releaseProbe (h : FenceOk entry) : FenceOk (entry.releaseProbe now token) := by
  unfold CircuitEntry.releaseProbe
  split
  · exact h
  · rename_i htoken
    intro hne
    have howners : entry.startupRecoveryOwners ≠ [] := by
      revert hne
      split <;> simp
    exact absurd ((h howners).2.symm.trans (not_not.1 htoken)) (by simp)

theorem fenceOk_restoreParked (entry : CircuitEntry) (now : ℤ) (parked : TaskLaunchAdmissionDependency) :
    FenceOk (entry.restoreParked now parked) := fenceOk_of_nil rfl

theorem fenceOk_restoreInterruptedProbe (entry : CircuitEntry) (now : ℤ) (ownerToken : String) :
    FenceOk (entry.restoreInterruptedProbe now ownerToken) := fun _ => ⟨rfl, rfl⟩

theorem fenceOk_retainProbeCleanup (entry : CircuitEntry) (now : ℤ) (ownerToken : String) :
    FenceOk (entry.retainProbeCleanup now ownerToken) := fun _ => ⟨rfl, rfl⟩

theorem settle_owners (entry : CircuitEntry) (now : ℤ) (outcome : ProbeOutcome) :
    (entry.settleReconciledProbe now outcome).startupRecoveryOwners = [] := by
  unfold settleReconciledProbe
  split <;> simp

theorem settle_probeToken (entry : CircuitEntry) (now : ℤ) (outcome : ProbeOutcome) :
    (entry.settleReconciledProbe now outcome).probeToken = none := by
  unfold settleReconciledProbe
  split <;> simp

end CircuitEntry

namespace LaunchDependencyAdmission

variable {a : LaunchDependencyAdmission} {now now' : ℤ} {d : String} {α : Type*} {xs : List α} {k : α → String}
  {f : α → CircuitEntry → CircuitEntry} {P Q : CircuitEntry → Prop}

/-- What is known of the entry of a dependency, whether it is there or yet to be made. -/
def At (a : LaunchDependencyAdmission) (d : String) (P : CircuitEntry → Prop) : Prop := ∀ now, P (a.entry now d)

theorem At.mono (h : At a d P) (hPQ : ∀ entry, P entry → Q entry) : At a d Q := fun now => hPQ _ (h now)

theorem at_new (h : ∀ now, P (.new now)) : At new d P := h

theorem entry_update (a : LaunchDependencyAdmission) (now now' : ℤ) (d d' : String) (g : CircuitEntry → CircuitEntry) :
    (a.update now d g).entry now' d' = if d = d' then g (a.entry now d) else a.entry now' d' := by
  unfold update entry
  rw [OrderedMap.get_set]
  split <;> rfl

theorem entry_modify (a : LaunchDependencyAdmission) (now : ℤ) (d d' : String) (g : CircuitEntry → CircuitEntry) :
    (a.modify d g).entry now d' = a.entry now d' ∨ d = d' ∧ (a.modify d g).entry now d' = g (a.entry now d') := by
  unfold modify entry
  cases hget : a.entries.get d with
  | none => exact .inl rfl
  | some entry =>
    by_cases hd : d = d'
    · subst hd
      exact .inr ⟨rfl, by simp [hget]⟩
    · exact .inl (by simp [OrderedMap.get_set_of_ne _ _ hd])

theorem At.update {d' : String} {g : CircuitEntry → CircuitEntry} (h : At a d P)
    (hg : d' = d → P (a.entry now d) → P (g (a.entry now d))) : At (a.update now d' g) d P := by
  intro now'
  rw [entry_update]
  split
  · rename_i hd
    subst hd
    exact hg rfl (h now)
  · exact h now'

theorem At.modify {d' : String} {g : CircuitEntry → CircuitEntry} (h : At a d P)
    (hg : d' = d → ∀ entry, P entry → P (g entry)) : At (a.modify d' g) d P := by
  intro now'
  rcases entry_modify a now' d' d g with heq | ⟨hd, heq⟩
  · rw [heq]
    exact h now'
  · rw [heq]
    exact hg hd _ (h now')

theorem At.foldl_update (hkeep : ∀ x ∈ xs, k x = d → ∀ entry, P entry → P (f x entry)) (h : At a d P) :
    At (xs.foldl (fun a x => a.update now (k x) (f x)) a) d P := by
  induction xs generalizing a with
  | nil => exact h
  | cons x xs ih =>
    refine ih (fun y hy => hkeep y (mem_cons_of_mem _ hy)) ?_
    exact h.update fun hd => hkeep x mem_cons_self hd _

theorem At.foldl_modify (hkeep : ∀ x ∈ xs, k x = d → ∀ entry, P entry → P (f x entry)) (h : At a d P) :
    At (xs.foldl (fun a x => a.modify (k x) (f x)) a) d P := by
  induction xs generalizing a with
  | nil => exact h
  | cons x xs ih =>
    refine ih (fun y hy => hkeep y (mem_cons_of_mem _ hy)) ?_
    exact h.modify fun hd => hkeep x mem_cons_self hd

theorem At.foldl_update_mem (hd : d ∈ xs.map k) (hf : ∀ x ∈ xs, k x = d → ∀ entry, P entry → Q (f x entry))
    (hQ : ∀ entry, Q entry → P entry) (h : At a d P) : At (xs.foldl (fun a x => a.update now (k x) (f x)) a) d Q := by
  induction xs generalizing a with
  | nil => cases hd
  | cons x xs ih =>
    rw [foldl_cons]
    by_cases hx : k x = d
    · refine At.foldl_update (fun y hy hyd entry hentry => ?_) fun now' => ?_
      · exact hf y (mem_cons_of_mem _ hy) hyd entry (hQ entry hentry)
      · rw [entry_update, if_pos hx, hx]
        exact hf x mem_cons_self hx _ (h now)
    · have hrest : d ∈ xs.map k := by
        rcases mem_cons.1 hd with heq | hrest
        · exact absurd heq.symm hx
        · exact hrest
      exact ih hrest (fun y hy => hf y (mem_cons_of_mem _ hy)) (h.update fun heq => absurd heq hx)

end LaunchDependencyAdmission

end Kookr.Core

/-! What a call decides and leaves behind. A decision looks at the entries as they are, and only
an admitted probe changes them; the token it hands out is a new one. -/

namespace Kookr.Core.LaunchDependencyAdmission

open Kookr.Lib

variable {a : LaunchDependencyAdmission} {now now' : ℤ} {d : String} {ds : List String} {α : Type*} {xs : List α}
  {k : α → String} {f : α → CircuitEntry → CircuitEntry} {g : CircuitEntry → CircuitEntry} {P : CircuitEntry → Prop}

@[simp] theorem update_probeSequence (a : LaunchDependencyAdmission) (now : ℤ) (d : String) (g : CircuitEntry → CircuitEntry) :
    (a.update now d g).probeSequence = a.probeSequence := rfl

@[simp] theorem modify_probeSequence (a : LaunchDependencyAdmission) (d : String) (g : CircuitEntry → CircuitEntry) :
    (a.modify d g).probeSequence = a.probeSequence := by
  unfold modify
  split <;> rfl

@[simp] theorem foldl_update_probeSequence (a : LaunchDependencyAdmission) :
    (xs.foldl (fun a x => a.update now (k x) (f x)) a).probeSequence = a.probeSequence := by
  induction xs generalizing a with
  | nil => rfl
  | cons x xs ih => simp [ih]

@[simp] theorem foldl_modify_probeSequence (a : LaunchDependencyAdmission) :
    (xs.foldl (fun a x => a.modify (k x) (f x)) a).probeSequence = a.probeSequence := by
  induction xs generalizing a with
  | nil => rfl
  | cons x xs ih => simp [ih]

theorem entry_foldl_update (hg : ∀ entry, g (g entry) = g entry) (a : LaunchDependencyAdmission) (now now' : ℤ) (d : String) :
    (ds.foldl (fun a d => a.update now d g) a).entry now' d = if d ∈ ds then g (a.entry now d) else a.entry now' d := by
  induction ds generalizing a with
  | nil => rfl
  | cons d' ds ih =>
    by_cases hd : d' = d
    · subst hd
      simp [ih, entry_update, hg]
    · simp [ih, entry_update, hd, Ne.symm hd]

theorem entry_foldl_modify (hg : ∀ entry, g (g entry) = g entry) (a : LaunchDependencyAdmission) (now : ℤ) (d : String) :
    (ds.foldl (fun a d => a.modify d g) a).entry now d = a.entry now d ∨
      d ∈ ds ∧ (ds.foldl (fun a d => a.modify d g) a).entry now d = g (a.entry now d) := by
  induction ds generalizing a with
  | nil => exact .inl rfl
  | cons d' ds ih =>
    rw [List.foldl_cons]
    rcases ih (a.modify d' g) with hrest | ⟨hmem, hrest⟩ <;> rcases entry_modify a now d' d g with hhead | ⟨rfl, hhead⟩ <;>
      rw [hrest, hhead]
    · exact .inl rfl
    · exact .inr ⟨List.mem_cons_self, rfl⟩
    · exact .inr ⟨List.mem_cons_of_mem _ hmem, rfl⟩
    · exact .inr ⟨List.mem_cons_self, hg _⟩

@[simp] theorem known_probeSequence (a : LaunchDependencyAdmission) (ds : List String) :
    (a.known now ds).probeSequence = a.probeSequence := foldl_update_probeSequence a

@[simp] theorem entry_known (a : LaunchDependencyAdmission) (ds : List String) (d : String) :
    (a.known now ds).entry now d = a.entry now d := by
  unfold known
  rw [entry_foldl_update (g := id) fun _ => rfl]
  split <;> rfl

theorem At.known (h : At a d P) : At (a.known now ds) d P := h.foldl_update fun _ _ _ _ hentry => hentry

theorem mem_uniqueDependencies {dependencies : Option (List String)} :
    d ∈ uniqueDependencies dependencies ↔ d ∈ dependencies.getD [] := List.mem_eraseDups

/-- A launch waits, or needs no probe, or claims every half-open dependency with a new token. -/
theorem evaluate_cases (a : LaunchDependencyAdmission) (now : ℤ) (dependencies : Option (List String)) :
    (∃ reason findings, a.evaluate now dependencies =
      (.deny reason findings, a.known now (uniqueDependencies dependencies))) ∨
    ((∀ d ∈ dependencies.getD [], (a.entry now d).state ≠ .degraded ∧ (a.entry now d).state ≠ .halfOpen) ∧
      a.evaluate now dependencies = (.admits none, a.known now (uniqueDependencies dependencies))) ∨
    ∃ claimed,
      (∀ d, d ∈ claimed ↔ d ∈ dependencies.getD [] ∧ (a.entry now d).state = .halfOpen) ∧
      (∀ d ∈ dependencies.getD [], (a.entry now d).state ≠ .degraded) ∧
      (∀ d ∈ claimed, (a.entry now d).isBusy = false) ∧
      (a.evaluate now dependencies).1 = .admits (some ⟨a.probeSequence + 1, claimed⟩) ∧
      (a.evaluate now dependencies).2.probeSequence = a.probeSequence + 1 ∧
      ∀ now' d, (a.evaluate now dependencies).2.entry now' d =
        if d ∈ claimed then (a.entry now d).claim (a.probeSequence + 1)
        else (a.known now (uniqueDependencies dependencies)).entry now' d := by
  unfold evaluate
  dsimp only
  split_ifs with hdegraded hbusy hhalf
  · exact .inl ⟨_, _, rfl⟩
  · exact .inl ⟨_, _, rfl⟩
  all_goals
    simp only [inState, entry_known, ne_eq, not_not, List.filter_eq_nil_iff, decide_eq_true_eq, mem_uniqueDependencies]
      at hdegraded hhalf
  · exact .inr (.inl ⟨fun d hd => ⟨hdegraded d hd, hhalf d hd⟩, rfl⟩)
  · rw [known_probeSequence]
    refine .inr (.inr ⟨_, fun d => ?_, hdegraded, fun d hd => ?_, rfl, ?_, fun now' d => ?_⟩)
    · simp [inState, mem_uniqueDependencies]
    · simp only [ne_eq, not_not, List.filter_eq_nil_iff, entry_known] at hbusy
      exact Bool.eq_false_iff.2 (hbusy d hd)
    · exact foldl_update_probeSequence (k := id) _
    · -- the number of the token is no part of an entry
      have hentry : ∀ now', LaunchDependencyAdmission.entry
          { a.known now (uniqueDependencies dependencies) with probeSequence := a.probeSequence + 1 } now' d =
          (a.known now (uniqueDependencies dependencies)).entry now' d := fun _ => rfl
      rw [entry_foldl_update (g := fun entry => entry.claim (a.probeSequence + 1)) fun _ => rfl, hentry, hentry, entry_known]

end Kookr.Core.LaunchDependencyAdmission
