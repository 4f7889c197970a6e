import Kookr.Sanity.Core.CircuitEntries
import Kookr.Spec.Core.ProbeHolders

/-! A degraded dependency becomes healthy only through a fresh probe. While no probe that was
claimed since the latest confirmed finding has completed, the dependency is degraded or half-open,
and whoever has its token either claimed it since that finding or has been invalidated by it. -/

namespace Kookr.Core

open Kookr.Lib CircuitEntry List

variable {d : String} {history : List CircuitRecord} {r : CircuitRecord} {entry : CircuitEntry} {now : ℤ} {token : ℕ}
  {since : List CircuitRecord}

/-- A launch that got the token has come since. -/
def Claimed (d : String) (token : ℕ) (since : List CircuitRecord) : Prop :=
  ∃ p, p.token = token ∧ d ∈ p.dependencies ∧ .evaluated (.admits (some p)) ∈ since

/-- A probe was claimed, and then completed as healthy while it had the dependency. -/
def Recovered (d : String) (since : List CircuitRecord) : Prop :=
  ∃ p q owned, [.evaluated (.admits (some p)), .completed q true owned].Sublist since ∧
    q.token = p.token ∧ d ∈ p.dependencies ∧ d ∈ owned

/-- The circuit is open, and its token is of no use unless it was claimed since. -/
structure Open (d : String) (since : List CircuitRecord) (entry : CircuitEntry) : Prop where
  state : entry.state = .degraded ∨ entry.state = .halfOpen
  token : ∀ token, entry.probeToken = some token → entry.probeInvalidated = true ∨ Claimed d token since

/-- What a confirmed finding leaves behind. -/
def Remembered (d : String) (history : List CircuitRecord) (entry : CircuitEntry) : Prop :=
  (∃ r ∈ history, r.confirms d = true) →
    Recovered d (sinceLast (CircuitRecord.confirms d) history) ∨ Open d (sinceLast (CircuitRecord.confirms d) history) entry

def Kept (d : String) (history : List CircuitRecord) (entry : CircuitEntry) : Prop :=
  entry.FenceOk ∧ Remembered d history entry

theorem Claimed.concat (h : Claimed d token since) (r : CircuitRecord) : Claimed d token (since ++ [r]) := by
  obtain ⟨p, htoken, hd, hp⟩ := h
  exact ⟨p, htoken, hd, mem_append_left _ hp⟩

theorem Recovered.concat (h : Recovered d since) (r : CircuitRecord) : Recovered d (since ++ [r]) := by
  obtain ⟨p, q, owned, hsub, hrest⟩ := h
  exact ⟨p, q, owned, hsub.trans (sublist_append_left _ _), hrest⟩

theorem Open.concat (h : Open d since entry) (r : CircuitRecord) : Open d (since ++ [r]) entry :=
  ⟨h.state, fun token htoken => (h.token token htoken).imp_right fun hclaimed => hclaimed.concat r⟩

theorem Remembered.concat (h : Remembered d history entry) (hr : r.confirms d = false) : Remembered d (history ++ [r]) entry := by
  rintro ⟨r', hr', hconfirms⟩
  have hseen : ∃ r ∈ history, r.confirms d = true := by
    rcases mem_append.1 hr' with hmem | hmem
    · exact ⟨r', hmem, hconfirms⟩
    · obtain rfl := mem_singleton.1 hmem
      simp [hr] at hconfirms
  rw [sinceLast_concat, hr]
  exact (h hseen).imp (fun h => h.concat r) fun h => h.concat r

theorem Remembered.mono {entry' : CircuitEntry} (h : Remembered d history entry)
    (hopen : ∀ since, Open d since entry → Open d since entry') : Remembered d history entry' :=
  fun hseen => (h hseen).imp_right (hopen _)

theorem open_of_free (hstate : entry.state = .degraded ∨ entry.state = .halfOpen)
    (htoken : entry.probeToken = none) : Open d since entry := by
  refine ⟨hstate, fun token h => ?_⟩
  simp [htoken] at h

theorem Open.observe (h : Open d since entry) (relevant : List DependencyFinding) :
    Open d since (entry.observe now relevant) := by
  have hkeeps : entry.probeInvalidated = true → (entry.observe now relevant).probeInvalidated = true := by
    intro hinv
    unfold CircuitEntry.observe
    dsimp only
    split_ifs <;> (try split) <;> simp [hinv]
  refine ⟨?_, fun token htoken => ?_⟩
  · unfold CircuitEntry.observe
    dsimp only
    rcases h.state with hstate | hstate <;> split_ifs <;> (try split) <;> simp_all
  · rw [CircuitEntry.observe_probeToken] at htoken
    exact (h.token token htoken).imp_left hkeeps

theorem open_observe_confirmed {relevant : List DependencyFinding} (hfence : entry.FenceOk)
    (hconfirmed : ∃ finding ∈ relevant, finding.isConfirmed = true) : Open d since (entry.observe now relevant) := by
  obtain ⟨confirmed, hfind⟩ : ∃ confirmed, relevant.find? DependencyFinding.isConfirmed = some confirmed :=
    Option.isSome_iff_exists.1 (find?_isSome.2 hconfirmed)
  have hne : relevant ≠ [] := by
    rintro rfl
    simp at hfind
  by_cases howners : entry.startupRecoveryOwners = []
  · refine ⟨?_, fun token htoken => .inl ?_⟩
    · simp [observe, howners, hne, hfind]
    · rw [observe_probeToken] at htoken
      simp [observe, howners, hne, hfind, htoken]
  · refine open_of_free (.inr ?_) ?_
    · rw [observe_state_of_fenced howners]
      exact (hfence howners).1
    · rw [observe_probeToken]
      exact (hfence howners).2

theorem Open.releaseProbe (h : Open d since entry) : Open d since (entry.releaseProbe now token) := by
  unfold CircuitEntry.releaseProbe
  split_ifs
  · exact h
  · exact open_of_free (.inl (by simp)) (by simp)
  · exact open_of_free h.state rfl

theorem open_restoreParked (entry : CircuitEntry) (parked : TaskLaunchAdmissionDependency) :
    Open d since (entry.restoreParked now parked) := by
  refine open_of_free ?_ rfl
  unfold restoreParked
  by_cases hparked : parked.state = .halfOpen
  · by_cases hstate : entry.state = .degraded <;> simp [hparked, hstate]
  · simp [hparked]

theorem open_releaseInterruptedProbe (entry : CircuitEntry) : Open d since (entry.releaseInterruptedProbe now) := by
  refine open_of_free ?_ rfl
  unfold releaseInterruptedProbe
  split <;> simp

theorem open_settleReconciledProbe (entry : CircuitEntry) (outcome : ProbeOutcome) :
    Open d since (entry.settleReconciledProbe now outcome) := by
  refine open_of_free ?_ (settle_probeToken entry now outcome)
  unfold settleReconciledProbe
  split_ifs <;> simp

/-- Only a probe of the dependency that completes as healthy, and was not invalidated, may close it. -/
theorem Open.completeProbe (h : Open d since entry) (now : ℤ) (token : ℕ) (healthy : Bool) :
    Open d since (entry.completeProbe now token healthy) ∨
      entry.probeToken = some token ∧ healthy = true ∧ Claimed d token since := by
  unfold CircuitEntry.completeProbe
  dsimp only
  split_ifs with htoken hcloses
  · exact .inl h
  · simp only [Bool.and_eq_true, Bool.not_eq_true'] at hcloses
    have hclaimed := (h.token token (not_not.1 htoken)).resolve_left (by simp [hcloses.2])
    exact .inr ⟨not_not.1 htoken, hcloses.1, hclaimed⟩
  · exact .inl (open_of_free (by simp) (by simp))

theorem open_claim (hstate : entry.state = .halfOpen) (hclaimed : Claimed d token since) : Open d since (entry.claim token) := by
  refine ⟨.inr hstate, fun token' htoken => .inr ?_⟩
  cases htoken
  exact hclaimed

namespace CircuitRun

open LaunchDependencyAdmission

variable {a : LaunchDependencyAdmission} {s : CircuitRun} {c : AdmissionCall} {α : Type*} {xs : List α} {k : α → String}
  {f : α → CircuitEntry → CircuitEntry} {probe : LaunchDependencyProbe}

theorem mem_owned (now : ℤ) : d ∈ a.owned probe ↔ d ∈ probe.dependencies ∧ (a.entry now d).probeToken = some probe.token := by
  unfold owned LaunchDependencyAdmission.entry
  rw [mem_filter]
  cases a.entries.get d <;> simp [CircuitEntry.new]

theorem kept_foldl_update (hfence : ∀ x entry, CircuitEntry.FenceOk entry → (f x entry).FenceOk)
    (hopen : ∀ x entry since, Open d since entry → Open d since (f x entry)) (h : At a d (Kept d history)) :
    At (xs.foldl (fun a x => a.update now (k x) (f x)) a) d (Kept d history) := by
  refine h.foldl_update fun x _ _ entry hentry => ?_
  exact ⟨hfence x entry hentry.1, hentry.2.mono fun since => hopen x entry since⟩

section

variable (h : At a d (Kept d history))
include h

theorem kept_observe {dependencies : Option (List String)} {findings : List DependencyFinding} :
    At (a.observe now dependencies findings) d (Kept d (history ++ [.observed dependencies findings])) := by
  cases hr : (CircuitRecord.observed dependencies findings).confirms d with
  | false =>
    refine At.foldl_update (k := id) (fun x _ _ entry hentry => ?_) (h.mono fun entry hentry => ?_)
    · exact ⟨hentry.1.observe _, hentry.2.mono fun since hopen => hopen.observe _⟩
    · exact ⟨hentry.1, hentry.2.concat hr⟩
  | true =>
    simp only [CircuitRecord.confirms, Bool.and_eq_true, decide_eq_true_eq, any_eq_true] at hr
    obtain ⟨hmem, finding, hfinding, hd, hconfirmed⟩ := hr
    refine At.foldl_update_mem (k := id) (P := CircuitEntry.FenceOk) (by simpa using hmem) ?_
      (fun _ h => h.1) (h.mono fun _ h => h.1)
    rintro x _ rfl entry hfence
    refine ⟨hfence.observe _, fun _ => .inr (open_observe_confirmed hfence ⟨finding, ?_, hconfirmed⟩)⟩
    exact mem_filter.2 ⟨hfinding, decide_eq_true hd⟩

theorem kept_evaluate {dependencies : Option (List String)} :
    At (a.evaluate now dependencies).2 d (Kept d (history ++ [.evaluated (a.evaluate now dependencies).1])) := by
  have hlogged : ∀ decision, At a d (Kept d (history ++ [.evaluated decision])) := fun decision =>
    h.mono fun entry hentry => ⟨hentry.1, hentry.2.concat rfl⟩
  rcases evaluate_cases a now dependencies with ⟨reason, ds, heq⟩ | ⟨-, heq⟩ |
    ⟨claimed, hclaimed, -, hidle, hadmitted, -, hentry⟩
  · rw [heq]
    exact (hlogged _).known
  · rw [heq]
    exact (hlogged _).known
  · rw [hadmitted]
    intro now'
    rw [hentry]
    split
    · rename_i hd
      refine ⟨fenceOk_claim (hidle d hd), fun hseen => .inr ?_⟩
      refine open_claim ((hclaimed d).1 hd).2 ⟨⟨a.probeSequence + 1, claimed⟩, rfl, hd, ?_⟩
      rw [sinceLast_concat]
      exact mem_append_right _ (mem_singleton.2 rfl)
    · exact (hlogged _).known now'

theorem kept_completeProbe {healthy : Bool} :
    At (a.completeProbe now (some probe) healthy) d (Kept d (history ++ [.completed probe healthy (a.owned probe)])) := by
  intro now'
  have hidem : ∀ entry : CircuitEntry, (entry.completeProbe now probe.token healthy).completeProbe now probe.token healthy =
      entry.completeProbe now probe.token healthy := by
    intro entry
    unfold CircuitEntry.completeProbe
    by_cases htoken : entry.probeToken = some probe.token <;> simp [htoken]
  obtain ⟨hfence, hkept⟩ := h now'
  unfold LaunchDependencyAdmission.completeProbe
  rcases entry_foldl_modify (g := fun entry => entry.completeProbe now probe.token healthy) hidem a now' d with heq | ⟨hmem, heq⟩ <;> rw [heq]
  · exact ⟨hfence, hkept.concat rfl⟩
  · refine ⟨hfence.completeProbe healthy, fun hseen => ?_⟩
    rcases hkept.concat (r := .completed probe healthy (a.owned probe)) rfl hseen with hrecovered | hopen
    · exact .inl hrecovered
    · rcases hopen.completeProbe now probe.token healthy with hstill | ⟨htoken, rfl, hclaimed⟩
      · exact .inr hstill
      · refine .inl ?_
        rw [sinceLast_concat, if_neg (by simp [CircuitRecord.confirms])] at hclaimed ⊢
        obtain ⟨p, hp, hd, hrecord⟩ := hclaimed
        have hbefore : .evaluated (.admits (some p)) ∈ sinceLast (CircuitRecord.confirms d) history := by
          simpa using hrecord
        refine ⟨p, probe, a.owned probe, ?_, hp.symm, hd, (mem_owned now').2 ⟨hmem, htoken⟩⟩
        exact (singleton_sublist.2 hbefore).append (List.Sublist.refl _)

theorem kept_releaseProbe : At (a.releaseProbe now (some probe)) d (Kept d history) := by
  refine At.foldl_modify (k := id) (fun x _ _ entry hentry => ?_) h
  exact ⟨hentry.1.releaseProbe, hentry.2.mono fun since hopen => hopen.releaseProbe⟩

end

theorem kept_next (hc : c.restoresSuccess = false) (h : At s.admission d (Kept d s.history)) :
    At (s.next c).admission d (Kept d (s.next c).history) := by
  unfold next
  cases c with
  | observe now dependencies findings => exact kept_observe h
  | evaluate now dependencies => exact kept_evaluate h
  | completeProbe now probe healthy =>
    cases probe with
    | none =>
      simp only [records, append_nil]
      exact h
    | some probe => exact kept_completeProbe h
  | releaseProbe now probe =>
    simp only [records, append_nil]
    cases probe with
    | none => exact h
    | some probe => exact kept_releaseProbe h
  | restoreParked now dependencies =>
    simp only [records, append_nil]
    exact kept_foldl_update (fun parked entry _ => fenceOk_restoreParked entry now parked)
      (fun parked entry _ _ => open_restoreParked entry parked) h
  | restoreInterruptedProbe now dependencies ownerToken =>
    simp only [records, append_nil]
    exact kept_foldl_update (fun _ entry _ => fenceOk_restoreInterruptedProbe entry now ownerToken)
      (fun _ _ _ _ => open_of_free (.inr rfl) rfl) h
  | retainProbeCleanup now dependencies ownerToken =>
    simp only [records, append_nil]
    exact kept_foldl_update (fun _ entry _ => fenceOk_retainProbeCleanup entry now ownerToken)
      (fun _ _ _ _ => open_of_free (.inr rfl) rfl) h
  | releaseInterruptedProbe now dependencies =>
    simp only [records, append_nil]
    exact kept_foldl_update (fun _ entry _ => fenceOk_of_nil rfl)
      (fun _ entry _ _ => open_releaseInterruptedProbe entry) h
  | settleReconciledProbe now dependencies outcome =>
    simp only [records, append_nil]
    exact kept_foldl_update (fun _ entry _ => fenceOk_of_nil (settle_owners entry now outcome))
      (fun _ entry _ _ => open_settleReconciledProbe entry outcome) h
  | restoreSuccessfulProbe now dependencies probeStartedAt latest => simp [AdmissionCall.restoresSuccess] at hc

theorem kept_run {calls : List AdmissionCall} (hcalls : ∀ c ∈ calls, c.restoresSuccess = false) (d : String) :
    At (run calls).admission d (Kept d (run calls).history) := by
  induction calls using reverseRecOn with
  | nil => exact at_new fun now => ⟨fenceOk_new now, fun ⟨r, hr, _⟩ => absurd hr not_mem_nil⟩
  | append_singleton calls c ih =>
    have hlast : run (calls ++ [c]) = (run calls).next c := by simp [run, foldl_append]
    rw [hlast]
    exact kept_next (hcalls c (by simp)) (ih fun c hc => hcalls c (mem_append_left _ hc))

/-- After a confirmed finding, a dependency that is neither degraded nor half-open has had a probe
claimed since the latest such finding, and then completed as healthy while it had the dependency. -/
theorem recovered_of_closed {calls : List AdmissionCall} (hcalls : ∀ c ∈ calls, c.restoresSuccess = false) (d : String)
    (hconfirmed : ∃ r ∈ (run calls).history, r.confirms d = true) (now : ℤ)
    (hclosed : ((run calls).admission.entry now d).state = .healthy ∨ ((run calls).admission.entry now d).state = .unknown) :
    Recovered d (sinceLast (CircuitRecord.confirms d) (run calls).history) := by
  rcases (kept_run hcalls d now).2 hconfirmed with hrecovered | hopen
  · exact hrecovered
  · rcases hopen.state with hstate | hstate <;> simp [hstate] at hclosed

/-- A failed dependency, a clean preflight, a bounded launch that succeeds. -/
def recoveryRun : List AdmissionCall :=
  [.observe 1 (some ["github"]) [⟨"github", "auth", some "token expired"⟩], .observe 2 (some ["github"]) [],
    .evaluate 3 (some ["github"]), .completeProbe 4 (some ⟨1, ["github"]⟩) true]

theorem recovered_of_recoveryRun : Recovered "github" (sinceLast (CircuitRecord.confirms "github") (run recoveryRun).history) :=
  recovered_of_closed (by decide) "github" ⟨_, mem_cons_self, by decide⟩ 5 (.inl (by decide))

end CircuitRun

end Kookr.Core
