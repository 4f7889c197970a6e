import Kookr.Sanity.Server.ChainPrograms

/-! What the probe of the phases finds out: a phase keeps all but its status, its merge time and
whether its owner ended, and what it is told of these stands in the log. -/

namespace Kookr.Server.ChainScan

open Kookr.Lib Kookr.Lib.Traced Kookr.Core

variable {c : ChainScan} {phase w : PhaseLedgerPhase} {phases ws : List PhaseLedgerPhase} {probe probe' : ChainProbe}
  {log log' : List ChainEvent}

/-- The pull request was reported reachable, and merged at this time. -/
def MergedAt (log : List ChainEvent) (prNumber : ℕ) (text : String) : Prop :=
  .isPullRequestReachable prNumber (.ok true) ∈ log ∧ .getPullRequestMergedAt prNumber (.ok (some text)) ∈ log ∧
    isValidIsoTimestamp text = .ok true

/-- The owner of the phase is recorded as ended, or was reported so. -/
def OwnerEnded (log : List ChainEvent) (phase : PhaseLedgerPhase) : Prop :=
  phase.ownerTerminal = some true ∨ ∃ taskId, truthy phase.taskId = some taskId ∧ .isTaskTerminal taskId (.ok true) ∈ log

theorem MergedAt.mono {prNumber : ℕ} {text : String} (h : MergedAt log prNumber text)
    (hlog : ∀ event ∈ log, event ∈ log') : MergedAt log' prNumber text :=
  ⟨hlog _ h.1, hlog _ h.2.1, h.2.2⟩

theorem OwnerEnded.mono (h : OwnerEnded log phase) (hlog : ∀ event ∈ log, event ∈ log') : OwnerEnded log' phase :=
  h.imp_right fun ⟨taskId, htask, hmem⟩ => ⟨taskId, htask, hlog _ hmem⟩

/-- What a probe leaves of a phase. -/
structure ProbedPhase (log : List ChainEvent) (phase w : PhaseLedgerPhase) : Prop where
  frame : w = { phase with status := w.status, mergedAt := w.mergedAt, ownerTerminal := w.ownerTerminal }
  ownerEnded : w.ownerTerminal = some true → OwnerEnded log phase

theorem ProbedPhase.mono (h : ProbedPhase log phase w) (hlog : ∀ event ∈ log, event ∈ log') : ProbedPhase log' phase w :=
  ⟨h.frame, fun hw => (h.ownerEnded hw).mono hlog⟩

theorem ProbedPhase.prNumber (h : ProbedPhase log phase w) : w.prNumber = phase.prNumber := by rw [h.frame]

theorem ProbedPhase.id (h : ProbedPhase log phase w) : w.id = phase.id := by rw [h.frame]

theorem isTaskTerminal_true {taskId : String} (h : (c.isTaskTerminal taskId).run log = (.ok true, log')) :
    .isTaskTerminal taskId (.ok true) ∈ log' := by
  unfold isTaskTerminal at h
  split at h
  · rw [ask_eq_ok] at h
    rw [h.2]
    simp
  · simp [pure_eq_ok] at h

theorem probeOwner_probed {changed : Bool} (h : (c.probeOwner phase).run log = (.ok (w, changed), log')) :
    ProbedPhase log' phase w := by
  unfold probeOwner at h
  split at h
  · next taskId htask =>
    split at h
    · next hended =>
      obtain ⟨⟨rfl, -⟩, -⟩ := h
      exact ⟨rfl, fun _ => .inl hended⟩
    · simp only [bind_eq_ok] at h
      obtain ⟨terminal, log₁, hterminal, h⟩ := h
      cases terminal with
      | false =>
        obtain ⟨⟨rfl, -⟩, -⟩ := h
        exact ⟨rfl, fun hended => .inl hended⟩
      | true =>
        obtain ⟨⟨rfl, -⟩, rfl⟩ := h
        exact ⟨rfl, fun _ => .inr ⟨taskId, htask, isTaskTerminal_true hterminal⟩⟩
  · obtain ⟨⟨rfl, -⟩, -⟩ := h
    exact ⟨rfl, fun hended => .inl hended⟩

/-- What a probe of pull requests finds out: it writes of these alone. -/
structure ProbedPulls (log : List ChainEvent) (prNumbers : List ℕ) (probe probe' : ChainProbe) : Prop where
  other : ∀ n, n ∉ prNumbers → probe'.reachable.get n = probe.reachable.get n
  heads : ∀ n sha, probe'.currentHeadByPr.get n = some sha →
    probe.currentHeadByPr.get n = some sha ∨ truthy (some sha) = some sha ∧ .getPullRequestHeadSha n (.ok (some sha)) ∈ log

/-- A phase whose pull request is reachable in the end was told when it was merged. -/
def Told (log : List ChainEvent) (probe : ChainProbe) (w : PhaseLedgerPhase) : Prop :=
  ∀ n, w.prNumber = some n → probe.reachable.get n = some true → ∃ text, w.mergedAt = some text ∧ MergedAt log n text

theorem truthy_eq_some {text : Option String} {filled : String} (h : truthy text = some filled) :
    text = some filled ∧ filled ≠ "" := by
  unfold truthy at h
  simpa using h

theorem heads_noteHead {heads : OrderedMap ℕ String} {prNumber n : ℕ} {headSha : Option String} {sha : String}
    (h : (noteHead heads prNumber headSha).get n = some sha) :
    heads.get n = some sha ∨ n = prNumber ∧ headSha = some sha ∧ truthy (some sha) = some sha := by
  unfold noteHead at h
  split at h
  · next filled hfilled =>
    by_cases hn : n = prNumber
    · subst hn
      rw [OrderedMap.get_set_self] at h
      cases h
      obtain ⟨rfl, hne⟩ := truthy_eq_some hfilled
      exact .inr ⟨rfl, rfl, hfilled⟩
    · rw [OrderedMap.get_set_of_ne _ _ (Ne.symm hn)] at h
      exact .inl h
  · exact .inl h

theorem probePullRequest_probed {prNumber : ℕ} (hpr : phase.prNumber = some prNumber)
    (h : (c.probePullRequest phase prNumber probe).run log = (.ok (w, probe'), log')) :
    w = { phase with status := w.status, mergedAt := w.mergedAt } ∧ ProbedPulls log' [prNumber] probe probe' ∧
      Told log' probe' w := by
  unfold probePullRequest at h
  simp only [bind_eq_ok, ask_eq_ok] at h
  obtain ⟨isReachable, _, ⟨-, rfl⟩, h⟩ := h
  have hother {b : Bool} (n : ℕ) (hn : n ∉ [prNumber]) : (probe.reachable.set prNumber b).get n = probe.reachable.get n :=
    OrderedMap.get_set_of_ne _ _ (by simpa [eq_comm] using hn)
  cases isReachable with
  | false =>
    obtain ⟨⟨rfl, rfl⟩, rfl⟩ := h
    refine ⟨rfl, ⟨hother, fun n sha hsha => .inl hsha⟩, fun n hn hreachable => ?_⟩
    rw [hpr] at hn
    cases hn
    simp at hreachable
  | true =>
    simp only [if_true, bind_eq_ok, ask_eq_ok] at h
    obtain ⟨headSha, _, ⟨-, rfl⟩, mergedAt, _, ⟨-, rfl⟩, h⟩ := h
    have hheads {log : List ChainEvent} (hlog : .getPullRequestHeadSha prNumber (.ok headSha) ∈ log) (n : ℕ) (sha : String)
        (hsha : (noteHead probe.currentHeadByPr prNumber headSha).get n = some sha) :
        probe.currentHeadByPr.get n = some sha ∨ truthy (some sha) = some sha ∧ .getPullRequestHeadSha n (.ok (some sha)) ∈ log := by
      refine (heads_noteHead hsha).imp_right fun ⟨hn, hhead, htruthy⟩ => ⟨htruthy, ?_⟩
      rwa [hn, ← hhead]
    have hunverified {log : List ChainEvent} {heads : OrderedMap ℕ String} {changed : Bool} :
        Told log ⟨probe.reachable.set prNumber false, heads, changed⟩ phase := by
      intro n hn hreachable
      rw [hpr] at hn
      cases hn
      simp at hreachable
    cases mergedAt with
    | none =>
      obtain ⟨⟨rfl, rfl⟩, rfl⟩ := h
      exact ⟨rfl, ⟨hother, hheads (by simp)⟩, hunverified⟩
    | some text =>
      simp only [bind_eq_ok, lift_eq_ok] at h
      obtain ⟨valid, _, ⟨hvalid, rfl⟩, h⟩ := h
      cases valid with
      | false =>
        obtain ⟨⟨rfl, rfl⟩, rfl⟩ := h
        exact ⟨rfl, ⟨hother, hheads (by simp)⟩, hunverified⟩
      | true =>
        obtain ⟨⟨rfl, rfl⟩, rfl⟩ := h
        refine ⟨rfl, ⟨hother, hheads (by simp)⟩, fun n hn _ => ⟨text, rfl, ?_⟩⟩
        rw [hpr] at hn
        cases hn
        exact ⟨by simp, by simp, hvalid⟩

theorem probePhase_probed (h : (c.probePhase phase probe).run log = (.ok (w, probe'), log')) :
    ProbedPhase log' phase w ∧ ProbedPulls log' phase.prNumber.toList probe probe' ∧ Told log' probe' w := by
  unfold probePhase at h
  rw [bind_eq_ok] at h
  obtain ⟨⟨w₁, changed⟩, log₁, howner, h⟩ := h
  have hprobed := probeOwner_probed howner
  dsimp only at h
  split at h
  · next hpr =>
    obtain ⟨⟨rfl, rfl⟩, rfl⟩ := h
    refine ⟨hprobed, ⟨fun n _ => rfl, fun n sha hsha => .inl hsha⟩, fun n hn => ?_⟩
    rw [hpr] at hn
    cases hn
  · next prNumber hpr =>
    obtain ⟨hframe, hpulls, htold⟩ := probePullRequest_probed hpr h
    have hlog : ∀ event ∈ log₁, event ∈ log' := fun event => (probes_probePullRequest prNumber).mem_of_eq h
    have howner : w.ownerTerminal = w₁.ownerTerminal := by rw [hframe]
    refine ⟨⟨?_, fun hw => (hprobed.mono hlog).ownerEnded (by rwa [← howner])⟩, ?_, htold⟩
    · rw [hframe, hprobed.frame]
    · rw [← hprobed.prNumber, hpr]
      exact ⟨hpulls.other, hpulls.heads⟩

theorem Told.mono (h : Told log probe w) (hlog : ∀ event ∈ log, event ∈ log')
    (hreachable : ∀ n, w.prNumber = some n → probe'.reachable.get n = probe.reachable.get n) : Told log' probe' w := by
  intro n hn hmerged
  rw [hreachable n hn] at hmerged
  obtain ⟨text, htext, hat⟩ := h n hn hmerged
  exact ⟨text, htext, hat.mono hlog⟩

/-- The probe of all phases, of which no two have a pull request in common. -/
theorem probePhases_probed (h : (c.probePhases phases probe).run log = (.ok (ws, probe'), log'))
    (hdistinct : phases.Pairwise fun a b => ∀ n, a.prNumber = some n → b.prNumber ≠ some n) :
    List.Forall₂ (ProbedPhase log') phases ws ∧ ProbedPulls log' (phases.filterMap (·.prNumber)) probe probe' ∧
      ∀ w ∈ ws, Told log' probe' w := by
  induction phases generalizing probe ws log with
  | nil =>
    obtain ⟨⟨rfl, rfl⟩, rfl⟩ := h
    exact ⟨.nil, ⟨fun n _ => rfl, fun n sha hsha => .inl hsha⟩, by simp⟩
  | cons phase phases ih =>
    simp only [probePhases, bind_eq_ok, pure_eq_ok, Prod.mk.injEq] at h
    obtain ⟨⟨w, probe₁⟩, log₁, hphase, ⟨ws', probe₂⟩, log₂, hphases, ⟨rfl, rfl⟩, rfl⟩ := h
    obtain ⟨hhead, htail⟩ := List.pairwise_cons.1 hdistinct
    obtain ⟨hprobed, hpulls, htold⟩ := probePhase_probed hphase
    obtain ⟨hprobeds, hpulls', htolds⟩ := ih hphases htail
    have hlog : ∀ event ∈ log₁, event ∈ log₂ := fun event => probes_probePhases.mem_of_eq hphases
    refine ⟨.cons (hprobed.mono hlog) hprobeds, ⟨fun n hn => ?_, fun n sha hsha => ?_⟩, ?_⟩
    · have htail : n ∉ phases.filterMap (·.prNumber) := fun hmem => hn (by
        rw [List.filterMap_cons]
        split
        · exact hmem
        · exact List.mem_cons_of_mem _ hmem)
      have hphase : n ∉ phase.prNumber.toList := fun hmem => hn (by simp [Option.mem_toList.1 hmem])
      rw [hpulls'.other n htail, hpulls.other n hphase]
    · rcases hpulls'.heads n sha hsha with hsha | hsha
      · exact (hpulls.heads n sha hsha).imp_right fun hsha => ⟨hsha.1, hlog _ hsha.2⟩
      · exact .inr hsha
    · rintro w' (_ | ⟨_, hw'⟩)
      · refine htold.mono hlog fun n hn => hpulls'.other n fun hmem => ?_
        rw [hprobed.prNumber] at hn
        obtain ⟨other, hother, hotherNumber⟩ := List.mem_filterMap.1 hmem
        exact hhead other hother n hn hotherNumber
      · exact htolds w' hw'

end Kookr.Server.ChainScan

/-! What a phase that passed the review carries: a `pass` after its merge, for the head its pull
request has now, by a task that is not its owner and that the registry knows to be independent. -/

namespace Kookr.Server

open Kookr.Lib Kookr.Lib.Traced Kookr.Core

variable {caseMap : CaseMap} {input : IndependentReviewInput} {phase w : PhaseLedgerPhase} {head : Option String}

theorem mergeAllowed_passed (h : (evaluateIndependentReview caseMap input).decision = .mergeAllowed) :
    input.verdict = some .pass ∧ headMatches caseMap input.reviewHeadSha input.currentHeadSha = true ∧
      ∃ reviewer, truthy input.reviewerTaskId = some reviewer ∧ reviewer ∉ input.implementerLineage := by
  unfold evaluateIndependentReview at h
  dsimp only at h
  split at h
  · cases h
  · split at h
    · cases h
    · next hidentity =>
      split at h
      · split at h <;> cases h
      · next hhead =>
        split at h
        · split at h <;> cases h
        · split at h
          · next hpass =>
            simp only [Bool.and_eq_true, decide_eq_true_eq] at hpass
            obtain ⟨hran, hverdict⟩ := hpass
            refine ⟨hverdict, by simpa [hran, hverdict] using hhead, ?_⟩
            simp only [reviewerIdentity, hran, if_true] at hidentity
            split at hidentity
            · cases hidentity
            · next reviewer hreviewer =>
              split at hidentity
              · cases hidentity
              · next hother => exact ⟨reviewer, hreviewer, hother⟩
          · split at h <;> cases h

theorem auditReviewGate_passed (h : (auditReviewGate caseMap phase head).flagged = false) (hpr : phase.prNumber.isSome = true) :
    predates phase = false ∧ phase.reviewedAt.isSome = true ∧
      (evaluateIndependentReview caseMap (phaseReviewInput phase head)).decision = .mergeAllowed := by
  unfold auditReviewGate at h
  split at h
  · next hnone =>
    rw [Option.isNone_iff_eq_none] at hnone
    simp [hnone] at hpr
  · split at h
    · cases h
    · next hpredates =>
      split at h
      · cases h
      · next hreviewed =>
        dsimp only at h
        split at h
        · next hallowed =>
          simp only [Bool.or_eq_true, Option.isNone_iff_eq_none, not_or] at hreviewed
          exact ⟨by simpa using hpredates, Option.isSome_iff_ne_none.2 hreviewed.2, hallowed⟩
        · cases h

theorem headMatches_eq_true {reviewHeadSha currentHeadSha : Option String} (h : headMatches caseMap reviewHeadSha currentHeadSha = true) :
    ∃ reviewed current, reviewHeadSha = some reviewed ∧ currentHeadSha = some current ∧ current ≠ "" ∧
      caseMap.lower reviewed = caseMap.lower current := by
  unfold headMatches at h
  split at h
  · next reviewed current hreviewed hcurrent =>
    obtain ⟨rfl, hne⟩ := ChainScan.truthy_eq_some hcurrent
    exact ⟨reviewed, current, (ChainScan.truthy_eq_some hreviewed).1, rfl, hne, by simpa using h⟩
  · cases h

theorem dateParse_of_valid {text : String} (h : isValidIsoTimestamp text = .ok true) :
    ∃ t, IsoTimestamp.dateParse text.toList = some t := by
  unfold isValidIsoTimestamp at h
  split at h
  · cases h
  · split at h
    · cases h
    · next t ht => exact ⟨t, ht⟩

namespace ChainScan

variable {c : ChainScan} {phases : List PhaseLedgerPhase} {log log' : List ChainEvent}

/-- The task that reviewed the phase is not its owner, and was reported independent of it. -/
def Independent (log : List ChainEvent) (phase : PhaseLedgerPhase) : Prop :=
  ∃ owner reviewer, truthy phase.taskId = some owner ∧ truthy phase.reviewerTaskId = some reviewer ∧
    .isReviewTaskIndependent owner reviewer (.ok true) ∈ log

theorem findDependentReview_none (h : (c.findDependentReview phases).run log = (.ok none, log')) :
    ∀ phase ∈ phases, phase.prNumber.isSome = true → Independent log' phase := by
  induction phases generalizing log with
  | nil => simp
  | cons phase phases ih =>
    unfold findDependentReview at h
    split at h
    · next hnone =>
      rintro other (_ | ⟨_, hother⟩) hpr
      · rw [Option.isNone_iff_eq_none] at hnone
        simp [hnone] at hpr
      · exact ih h other hother hpr
    · split at h
      · next owner reviewer answer howner hreviewer hanswer =>
        rw [bind_eq_ok] at h
        obtain ⟨independent, log₁, hindependent, h⟩ := h
        cases independent with
        | false => simp [pure_eq_ok] at h
        | true =>
          have hmem : .isReviewTaskIndependent owner reviewer (.ok true) ∈ log₁ := by
            simp only [isReviewTaskIndependent, hanswer, ask_eq_ok] at hindependent
            rw [hindependent.2]
            simp
          rintro other (_ | ⟨_, hother⟩) hpr
          · exact ⟨owner, reviewer, howner, hreviewer, probes_findDependentReview.mem_of_eq h hmem⟩
          · exact ih h other hother hpr
      · simp [pure_eq_ok] at h

theorem findReviewAuditBlocker_none {heads : OrderedMap ℕ String}
    (h : (c.findReviewAuditBlocker phases heads).run log = (.ok none, log')) : ∀ phase ∈ phases, phase.prNumber.isSome = true →
      (auditReviewGate c.config.caseMap phase (headOf heads phase)).flagged = false ∧ Independent log' phase := by
  unfold findReviewAuditBlocker at h
  split at h
  · simp [pure_eq_ok] at h
  · next hfind =>
    intro phase hmem hpr
    exact ⟨by simpa using List.find?_eq_none.1 hfind phase hmem, findDependentReview_none h phase hmem hpr⟩

theorem nextEligiblePhase_eligible {isMerged : ℕ → Bool} (h : nextEligiblePhase isMerged phases = .eligible phase) :
    phase.prNumber = none ∧ ∃ before after, phases = before ++ phase :: after ∧
      ∀ w ∈ before, ∃ n, w.prNumber = some n ∧ isMerged n = true := by
  induction phases with
  | nil => cases h
  | cons other phases ih =>
    unfold nextEligiblePhase at h
    split at h
    · next hmerged =>
      obtain ⟨hnone, before, after, rfl, hbefore⟩ := ih h
      refine ⟨hnone, other :: before, after, rfl, ?_⟩
      rintro w (_ | ⟨_, hw⟩)
      · exact (Option.any_eq_true _ _).1 hmerged
      · exact hbefore w hw
    · split at h
      · next hnone =>
        obtain rfl := PhaseEligibility.eligible.inj h
        exact ⟨by simpa using hnone, [], phases, rfl, by simp⟩
      · cases h

theorem predecessors_eq {ledger : PhaseLedger} {before after : List PhaseLedgerPhase} (hledger : ledger.phases = before ++ phase :: after)
    (hid : ∀ w ∈ before, w.id ≠ phase.id) : predecessors ledger phase = before := by
  unfold predecessors
  rw [hledger, List.takeWhile_append_of_pos (by simpa using hid), List.takeWhile_cons_of_neg (by simp), List.append_nil]

end ChainScan

end Kookr.Server
