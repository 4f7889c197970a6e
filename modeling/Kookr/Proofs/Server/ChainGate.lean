import Kookr.Sanity.Server.ReviewPassed

/-! What stops a scan from launching. The mode and a block that was set by hand stop every launch,
and the kill switch stops the launch of a phase. A review correction does not ask the kill switch:
once one is claimed, it is launched. -/

namespace Kookr.Server.ChainScan

open Kookr.Lib Kookr.Lib.Traced Kookr.Core

variable {c : ChainScan} {s : ChainState} {log : List ChainEvent}

/-- The scan is to launch nothing. -/
def Halted (c : ChainScan) : Prop :=
  c.config.mode ≠ .spawn ∨ c.disabled = true ∨ ∃ ledger, c.issue.ledger = .ok ledger ∧ isManualBlock ledger = true

def Quiet (c : ChainScan) : Prop := ∀ event ∈ c.trace, event.isLaunch = false

/-- The review of a phase stands in the way, and the claim store grants the correction of it. -/
def CorrectionClaimed (c : ChainScan) : Prop :=
  ∃ s blocker complete log attempt key ownerToken log', c.gate.run [] = (.ok (.reviewBlocked s blocker complete), log) ∧
    (c.claimCorrection s blocker).run log = (.ok (.claimed attempt key ownerToken), log')

theorem quiet_bind {α β : Type} {m : ChainProgram α} {f : α → ChainProgram β}
    (hm : ∀ event ∈ (m.run log).2, event.isLaunch = false)
    (hf : ∀ a log', m.run log = (.ok a, log') → (∀ event ∈ log', event.isLaunch = false) →
      ∀ event ∈ ((f a).run log').2, event.isLaunch = false) : ∀ event ∈ ((m >>= f).run log).2, event.isLaunch = false := by
  intro event hmem
  rcases mem_bind hmem with hfirst | ⟨a, log', hrun, hmem⟩
  · exact hm event hfirst
  · rw [hrun] at hm
    exact hf a log' hrun hm event hmem

theorem launch_of_correctionClaimed (h : CorrectionClaimed c) : ¬ Quiet c := by
  obtain ⟨s, blocker, complete, log, attempt, key, ownerToken, log', hgate, hclaim⟩ := h
  obtain ⟨answer, hanswer⟩ := Option.isSome_iff_exists.1 (claimCorrection_claimed hclaim).2
  let options := c.options (.reviewCorrection blocker.id attempt (blocker.reviewIterationCap.getD defaultReviewIterationCap))
    key s.ledger.issueNumber
  have hlaunch : ChainEvent.launch options (answer log' options) ∈ ((c.launch options).run log').2 := by
    simp [launch, hanswer, Traced.attempt, ask]
  have hcorrection : ChainEvent.launch options (answer log' options) ∈ ((c.launchReviewCorrection s blocker).run log).2 := by
    rw [launchReviewCorrection, bind_of_ok hclaim]
    exact mem_bind_left (launchesNothing_correctionLaunched attempt key ownerToken) hlaunch
  have hmem : ChainEvent.launch options (answer log' options) ∈ c.trace := by
    rw [trace, scanIssue, bind_of_ok hgate]
    exact mem_bind_left (fun r => launchesNothing_blockForReview complete r.1 r.2) hcorrection
  exact fun hquiet => absurd (hquiet _ hmem) (by simp [ChainEvent.isLaunch])

/-- Past the gate, in the mode that spawns, only the kill switch is left to stop the scan. -/
theorem Halted.disabled {original reconciled : PhaseLedger} {probe : ChainProbe} (h : Halted c)
    (hprobed : Probed c original reconciled probe s log) (hmode : c.config.mode = .spawn) : c.disabled = true := by
  rcases h with hne | hdisabled | ⟨ledger, hledger, hmanual⟩
  · exact absurd hmode hne
  · exact hdisabled
  · rw [hprobed.ledger] at hledger
    obtain rfl := Except.ok.inj hledger
    rw [hprobed.notManual_original] at hmanual
    cases hmanual

theorem quiet_reviewBlocked {blocker : PhaseLedgerPhase} (complete : Bool) (hlog : ∀ event ∈ log, event.isLaunch = false)
    (hnone : ∀ attempt key ownerToken log', (c.claimCorrection s blocker).run log ≠ (.ok (.claimed attempt key ownerToken), log')) :
    ∀ event ∈ ((c.reviewBlocked s blocker complete).run log).2, event.isLaunch = false := by
  refine quiet_bind (quiet_bind (launchesNothing_claimCorrection.quiet hlog) fun outcome log' hclaim hlog' => ?_)
    fun r log' _ hlog' => (launchesNothing_blockForReview complete r.1 r.2).quiet hlog'
  cases outcome with
  | declined | recovered => exact hlog'
  | claimed attempt key ownerToken => exact absurd hclaim (hnone attempt key ownerToken log')

theorem quiet_of_not_correctionClaimed (h : ¬ (c.disabled = true ∧ CorrectionClaimed c)) (hhalted : Halted c) : Quiet c := by
  refine quiet_bind (probes_gate.launchesNothing.quiet (by simp)) fun outcome log hgate hlog => ?_
  cases outcome with
  | ended => exact hlog
  | reviewBlocked s blocker complete =>
    obtain ⟨original, reconciled, probe, log₀, hprobed⟩ := gate_reviewBlocked hgate
    refine quiet_reviewBlocked complete hlog fun attempt key ownerToken log' hclaim => h ⟨?_, ?_⟩
    · exact hhalted.disabled hprobed (claimCorrection_claimed hclaim).1
    · exact ⟨s, blocker, complete, log, attempt, key, ownerToken, log', hgate, hclaim⟩
  | eligible s phase =>
    obtain ⟨original, reconciled, probe, log₀, hprobed, -⟩ := gate_eligible hgate
    refine quiet_bind (launchesNothing_claimPhase.quiet hlog) fun claimed log' hclaim hlog' => ?_
    cases claimed with
    | none => exact hlog'
    | some p =>
      obtain ⟨t, log₁, -, -, -, hmode, hdisabled, -⟩ := claimPhase_some hclaim
      rw [hhalted.disabled hprobed hmode] at hdisabled
      cases hdisabled

def blockedPhase : PhaseLedgerPhase :=
  ⟨⟨"one", some 5, some .merged⟩, [], some "owner", some true, some "2026-01-01T00:00:00Z", some .block,
    some "2026-01-02T00:00:00Z", some "reviewer", some 1, some "ab", none⟩

def grantingDeps : ChainDeps where
  isTaskTerminal := some fun _ _ => .ok true
  isReviewTaskIndependent := some fun _ _ _ => .ok true
  launch := some fun _ _ => .ok "correction"
  isPullRequestReachable _ _ := .ok true
  getPullRequestHeadSha _ _ := .ok (some "ab")
  getPullRequestMergedAt _ _ := .ok (some "2026-01-01T00:00:00Z")
  getClaim _ _ := .ok none
  claim _ key := .claimed ⟨key, "token", "2026-01-03T00:00:00Z", none⟩
  finalize _ _ _ _ := .ok ()
  release _ _ _ := .ok ()
  now _ := ⟨1767398400000, by decide⟩

/-- The chain is complete but for the review, and the kill switch is on. -/
def switchedOff : ChainScan where
  deps := grantingDeps
  config := ⟨.ascii, .spawn, 0, "owner/repo", none, some "true"⟩
  project := ⟨"github.com/owner/repo", "owner/repo", "/repo"⟩
  issue := ⟨7, .ok ⟨"chain", "owner/repo", 7, [blockedPhase], none, none⟩, []⟩

theorem correction_switchedOff : switchedOff.disabled = true ∧ (switchedOff.trace.any ChainEvent.isLaunch) = true := by
  decide +kernel

end Kookr.Server.ChainScan

/-! A scan launches a phase only behind the gate: every phase before it is merged and reviewed, the
one right before it has ended and its grace time is over, and nobody is at work on the phase itself.
The owners of the phases further back are not asked about. -/

namespace Kookr.Server.ChainScan

open Kookr.Lib Kookr.Lib.Traced Kookr.Core

variable {c : ChainScan} {s : ChainState} {phase r w : PhaseLedgerPhase} {before after log log' : List ChainEvent}

/-- The pull request `n` of the phase was merged at this time, and a review passed it after that. -/
structure Reviewed (caseMap : CaseMap) (log : List ChainEvent) (r : PhaseLedgerPhase) (n : ℕ) (merged : Timestamp) : Prop where
  prNumber : r.prNumber = some n
  mergedAt : ∃ text, MergedAt log n text ∧ IsoTimestamp.dateParse text.toList = some merged
  verdict : r.reviewVerdict = some .pass
  later : ∃ text reviewed, r.reviewedAt = some text ∧ IsoTimestamp.dateParse text.toList = some reviewed ∧ merged.ms < reviewed.ms
  head : ∃ reviewed current, r.reviewHeadSha = some reviewed ∧ .getPullRequestHeadSha n (.ok (some current)) ∈ log ∧
    current ≠ "" ∧ caseMap.lower reviewed = caseMap.lower current
  reviewer : r.reviewerTaskId ≠ r.taskId
  independent : Independent log r

/-- What stands before the launch of the phase with the id, in the ledger and in the log. -/
def LaunchGate (c : ChainScan) (ledger : PhaseLedger) (log : List ChainEvent) (phaseId : String) : Prop :=
  ∃ pre phase post, ledger.phases = pre ++ phase :: post ∧ phase.id = phaseId ∧
    (∀ r ∈ pre, ∃ prNumber merged, Reviewed c.config.caseMap log r prNumber merged) ∧
    (∀ r ∈ pre.getLast?, OwnerEnded log r ∧ ∃ prNumber merged now, Reviewed c.config.caseMap log r prNumber merged ∧
      .now now ∈ log ∧ c.config.graceMs ≤ now.ms - merged.ms) ∧
    (∀ taskId, truthy phase.taskId = some taskId → .isTaskTerminal taskId (.ok true) ∈ log) ∧
    ∀ key claim taskId, .getClaim key (.ok (some claim)) ∈ log → truthy claim.taskId = some taskId →
      .isTaskTerminal taskId (.ok true) ∈ log

theorem Reviewed.mono {caseMap : CaseMap} {n : ℕ} {merged : Timestamp} (h : Reviewed caseMap log r n merged)
    (hlog : ∀ event ∈ log, event ∈ log') : Reviewed caseMap log' r n merged := by
  obtain ⟨text, hat, hdate⟩ := h.mergedAt
  obtain ⟨reviewed, current, hreviewed, hcurrent, hhead⟩ := h.head
  obtain ⟨owner, reviewer, howner, hreviewer, hindependent⟩ := h.independent
  exact ⟨h.prNumber, ⟨text, hat.mono hlog, hdate⟩, h.verdict, h.later, ⟨reviewed, current, hreviewed, hlog _ hcurrent, hhead⟩,
    h.reviewer, owner, reviewer, howner, hreviewer, hlog _ hindependent⟩

/-- A probed phase that passes the review was reviewed as the ledger has it. -/
theorem reviewed_of_probed {probe : ChainProbe} {n : ℕ} (hprobed : ProbedPhase log r w) (hchecked : PhaseLedger.Checked r)
    (htold : Told log probe w) (hheads : ∀ n sha, probe.currentHeadByPr.get n = some sha →
      truthy (some sha) = some sha ∧ .getPullRequestHeadSha n (.ok (some sha)) ∈ log)
    (hn : w.prNumber = some n) (hmerged : probe.reachable.get n = some true)
    (haudit : (auditReviewGate c.config.caseMap w (headOf probe.currentHeadByPr w)).flagged = false)
    (hindependent : Independent log w) : ∃ text merged, w.mergedAt = some text ∧ IsoTimestamp.dateParse text.toList = some merged ∧
      Reviewed c.config.caseMap log r n merged := by
  obtain ⟨text, htext, hat⟩ := htold n hn hmerged
  obtain ⟨merged, hdate⟩ := dateParse_of_valid hat.2.2
  obtain ⟨hpredates, hreviewedAt, hallowed⟩ := auditReviewGate_passed haudit (by simp [hn])
  obtain ⟨hverdict, hhead, reviewer, hreviewer, hother⟩ := mergeAllowed_passed hallowed
  have hw := hprobed.frame
  refine ⟨text, merged, htext, hdate, ?_, ⟨text, hat, hdate⟩, ?_, ?_, ?_, ?_, ?_⟩
  · rw [← hprobed.prNumber, hn]
  · rw [hw] at hverdict
    exact hverdict
  · obtain ⟨reviewedAt, hreviewed⟩ := Option.isSome_iff_exists.1 hreviewedAt
    have hr : r.reviewedAt = some reviewedAt := by
      rw [hw] at hreviewed
      exact hreviewed
    obtain ⟨reviewed, hreviewedDate⟩ := dateParse_of_valid (hchecked.reviewedAt reviewedAt hr)
    refine ⟨reviewedAt, reviewed, hr, hreviewedDate, ?_⟩
    simpa [predates, htext, hreviewed, reviewPredatesMerge, hdate, hreviewedDate] using hpredates
  · obtain ⟨reviewed, current, hreviewed, hcurrent, hne, hlower⟩ := headMatches_eq_true hhead
    have hget : probe.currentHeadByPr.get n = some current := by
      simpa [phaseReviewInput, headOf, hn] using hcurrent
    refine ⟨reviewed, current, ?_, (hheads n current hget).2, hne, hlower⟩
    rw [hw] at hreviewed
    exact hreviewed
  · intro heq
    refine hother ?_
    rw [hw] at hreviewer ⊢
    have hreviewer := (truthy_eq_some hreviewer).1
    simp only [phaseReviewInput] at hreviewer ⊢
    rw [← heq, hreviewer]
    simp
  · rw [hw] at hindependent
    exact hindependent

theorem map_id_of_probed {rs ws : List PhaseLedgerPhase} (h : List.Forall₂ (ProbedPhase log) rs ws) : ws.map (·.id) = rs.map (·.id) := by
  induction h with
  | nil => rfl
  | cons hprobed _ ih => rw [List.map_cons, List.map_cons, hprobed.id, ih]

theorem forall₂_getLast? {α β : Type} {R : α → β → Prop} {l : List α} {u : List β} (h : List.Forall₂ R l u) {a : α}
    (ha : a ∈ l.getLast?) : ∃ b ∈ u.getLast?, R a b := by
  induction h with
  | nil => cases ha
  | @cons a' b l u hab hlu ih =>
    cases hlu with
    | nil =>
      cases ha
      exact ⟨b, rfl, hab⟩
    | cons hab' hlu' =>
      exact ih ha

/-- A phase before the one that is next, as the ledger has it and as the probe left it. -/
def Passed (c : ChainScan) (log : List ChainEvent) (r w : PhaseLedgerPhase) : Prop :=
  ProbedPhase log r w ∧ ∃ n text merged, w.mergedAt = some text ∧ IsoTimestamp.dateParse text.toList = some merged ∧
    Reviewed c.config.caseMap log r n merged

theorem gate_passed (h : c.gate.run [] = (.ok (.eligible s phase), log)) :
    ∃ original reconciled r pre post, c.issue.ledger = .ok original ∧
      PhaseLedger.reconcile c.config.caseMap original c.issue.comments = .ok reconciled ∧
      reconciled.phases = pre ++ r :: post ∧ phase.prNumber = none ∧ ProbedPhase log r phase ∧
      List.Forall₂ (Passed c log) pre (predecessors s.ledger phase) := by
  obtain ⟨original, reconciled, probe, log₁, hprobed, hnext, hreview⟩ := gate_eligible h
  obtain ⟨hchecked, hdistinct, hnodup⟩ := PhaseLedger.validate_checked hprobed.reconcile
  obtain ⟨hphases, hpulls, htold⟩ := probePhases_probed hprobed.probed hdistinct
  obtain ⟨hpr, wpre, wpost, hws, hmerged⟩ := nextEligiblePhase_eligible hnext
  have hlog : ∀ event ∈ log₁, event ∈ log := fun event => (probes_findReviewAuditBlocker _).mem_of_eq hreview
  -- the phases of the ledger fall apart as the probed ones do
  have hids := map_id_of_probed hphases
  rw [hws] at hphases hids
  have hpre := List.forall₂_take_append _ _ _ hphases
  obtain ⟨r, post, hr, hpost, hdrop⟩ := List.forall₂_cons_right_iff.1 (List.forall₂_drop_append _ _ _ hphases)
  have hid : ∀ w ∈ wpre, w.id ≠ phase.id := by
    rw [← hids, List.map_append, List.nodup_append] at hnodup
    exact fun w hw => hnodup.2.2 _ (List.mem_map_of_mem hw) _ List.mem_cons_self
  have hpredecessors : predecessors s.ledger phase = wpre := predecessors_eq hws hid
  rw [hpredecessors] at hreview ⊢
  have haudit := findReviewAuditBlocker_none hreview
  refine ⟨original, reconciled, r, reconciled.phases.take wpre.length, post, hprobed.ledger, hprobed.reconcile, ?_, hpr,
    hr.mono hlog, List.forall₂_iff_zip.2 ⟨hpre.length_eq, fun {r' w} hzip => ?_⟩⟩
  · rw [← hdrop, List.take_append_drop]
  · obtain ⟨hr', hw⟩ := List.of_mem_zip hzip
    have hprobed' := (List.forall₂_iff_zip.1 hpre).2 hzip
    obtain ⟨n, hn, hreachable⟩ := hmerged w hw
    obtain ⟨hflagged, hindependent⟩ := haudit w hw (by simp [hn])
    have htold' : Told log probe w :=
      (htold w (by rw [hws]; exact List.mem_append_left _ hw)).mono hlog fun _ _ => rfl
    refine ⟨hprobed'.mono hlog, n, reviewed_of_probed (hprobed'.mono hlog) (hchecked r' (List.mem_of_mem_take hr')) htold'
      (fun n sha hsha => ?_) hn (of_decide_eq_true hreachable) hflagged hindependent⟩
    exact ((hpulls.heads n sha hsha).resolve_left (by simp)).imp_right (hlog _)

theorem phaseClaims_found {ledger : PhaseLedger} {claims : PhaseClaims} (h : (c.phaseClaims ledger phase).run log = (.ok claims, log'))
    (hconflict : claims.conflict = false) (key : String) (claim : UmbrellaChainClaim) (hmem : .getClaim key (.ok (some claim)) ∈ log') :
    .getClaim key (.ok (some claim)) ∈ log ∨ claims.existing = some claim := by
  unfold phaseClaims at h
  simp only [bind_eq_ok, pure_eq_ok, getClaim, ask_eq_ok] at h
  obtain ⟨preferred, _, ⟨-, rfl⟩, legacy, log₂, hlegacy, rfl, rfl⟩ := h
  have hfound : .getClaim key (.ok (some claim)) ∈ log ∨ preferred = some claim ∨ legacy = some claim := by
    unfold getLegacyClaim at hlegacy
    split at hlegacy
    · rw [getClaim, ask_eq_ok] at hlegacy
      rw [hlegacy.2] at hmem
      simp only [List.append_assoc, List.mem_append, List.mem_singleton, ChainEvent.getClaim.injEq, Except.ok.injEq] at hmem
      exact hmem.imp_right (Or.imp (fun h => h.2.symm) fun h => h.2.symm)
    · rw [pure_eq_ok] at hlegacy
      rw [← hlegacy.2] at hmem
      simp only [List.mem_append, List.mem_singleton, ChainEvent.getClaim.injEq, Except.ok.injEq] at hmem
      exact hmem.imp_right fun h => .inl h.2.symm
  rcases hfound with hold | rfl | rfl
  · exact .inl hold
  · exact .inr rfl
  · cases preferred with
    | none => exact .inr rfl
    | some other => simp at hconflict

theorem withinGrace_over {predecessor : Option PhaseLedgerPhase} {text : String} {merged : Timestamp}
    (h : (c.withinGrace predecessor).run log = (.ok false, log')) (htext : predecessor.bind PhaseLedgerPhase.mergedAt = some text)
    (hdate : IsoTimestamp.dateParse text.toList = some merged) :
    ∃ now, .now now ∈ log' ∧ c.config.graceMs ≤ now.ms - merged.ms := by
  simp only [withinGrace, htext, bind_eq_ok, pure_eq_ok, now, query_eq_ok, hdate, Option.any_some] at h
  obtain ⟨now, _, ⟨-, rfl⟩, hlate, rfl⟩ := h
  exact ⟨now, by simp, by simpa using hlate⟩

theorem ownerActive_over {taskId : String} (h : (c.ownerActive phase).run log = (.ok false, log'))
    (htask : truthy phase.taskId = some taskId) : phase.ownerTerminal = some true ∨ .isTaskTerminal taskId (.ok true) ∈ log' := by
  simp only [ownerActive, htask] at h
  split at h
  · next hended => exact .inl hended
  · simp only [bind_eq_ok, pure_eq_ok, Bool.not_eq_false'] at h
    obtain ⟨terminal, _, hterminal, rfl, rfl⟩ := h
    exact .inr (isTaskTerminal_true hterminal)

theorem claimOwnerTerminal_over {existing : Option UmbrellaChainClaim} {taskId : String}
    (h : (c.claimOwnerTerminal existing).run log = (.ok true, log'))
    (htask : truthy (existing.bind UmbrellaChainClaim.taskId) = some taskId) : .isTaskTerminal taskId (.ok true) ∈ log' := by
  simp only [claimOwnerTerminal, htask] at h
  exact isTaskTerminal_true h

/-- What is known of a phase that is safe to advance, and whose owner did not end without a pull request. -/
structure Standing (c : ChainScan) (ledger : PhaseLedger) (phase : PhaseLedgerPhase) (log : List ChainEvent) : Prop where
  predecessor : ∀ w ∈ (predecessors ledger phase).getLast?, w.ownerTerminal = some true ∧ ∀ text merged, w.mergedAt = some text →
    IsoTimestamp.dateParse text.toList = some merged → ∃ now, .now now ∈ log ∧ c.config.graceMs ≤ now.ms - merged.ms
  owner : ∀ taskId, truthy phase.taskId = some taskId → .isTaskTerminal taskId (.ok true) ∈ log
  claims : ∀ key claim taskId, .getClaim key (.ok (some claim)) ∈ log → truthy claim.taskId = some taskId →
    .isTaskTerminal taskId (.ok true) ∈ log

theorem owned_eq {t : PhaseStanding} (hended : t.endedWithoutPr phase = false) (hpr : phase.prNumber = none)
    (hconflict : t.claims.conflict = false) (hactive : t.claimOwnerActive = false) :
    t.owned phase = phase ∧ phase.ownerTerminal ≠ some true := by
  simp only [PhaseStanding.endedWithoutPr, hpr, hconflict, hactive, Option.isNone_none, Bool.not_false, Bool.and_true,
    decide_eq_false_iff_not] at hended
  by_cases hlost : t.ownerLost phase = true
  · simp [PhaseStanding.owned, hlost] at hended
  · have howned : t.owned phase = phase := if_neg hlost
    rw [howned] at hended
    exact ⟨howned, hended⟩

theorem phaseStanding_safe {ledger : PhaseLedger} {t : PhaseStanding} (h : (c.phaseStanding ledger phase).run log = (.ok t, log'))
    (hlog : ∀ event ∈ log, event.isProbe = true) (hsafe : t.safeToAdvance = true) (hended : t.endedWithoutPr phase = false)
    (hpr : phase.prNumber = none) : Standing c ledger phase log' := by
  unfold phaseStanding at h
  simp only [bind_eq_ok, pure_eq_ok] at h
  obtain ⟨claims, log₁, hclaims, grace, log₂, hgrace, active, log₃, hactive, terminal, log₄, hterminal, rfl, rfl⟩ := h
  simp only [PhaseStanding.safeToAdvance, Bool.and_eq_true, Bool.not_eq_true'] at hsafe
  obtain ⟨⟨⟨⟨hconflict, rfl⟩, hpredecessor⟩, rfl⟩, hclaimEnded⟩ := hsafe
  have hnotEnded := (owned_eq hended hpr hconflict hclaimEnded).2
  have hlog₃ : ∀ event ∈ log₂, event ∈ log₃ := fun event => probes_ownerActive.mem_of_eq hactive
  have hlog₄ : ∀ event ∈ log₃, event ∈ log₄ := fun event => (probes_claimOwnerTerminal _).mem_of_eq hterminal
  refine ⟨fun w hw => ⟨of_decide_eq_true ((Option.all_eq_true _ _).1 hpredecessor w hw), fun text merged htext hdate => ?_⟩,
    fun taskId htask => ?_, fun key claim taskId hmem htask => ?_⟩
  · obtain ⟨now, hnow, hlate⟩ := withinGrace_over hgrace (by rw [hw, Option.bind_some, htext]) hdate
    exact ⟨now, hlog₄ _ (hlog₃ _ hnow), hlate⟩
  · exact hlog₄ _ ((ownerActive_over hactive htask).resolve_left hnotEnded)
  · -- only the look at the claims reads a claim
    have hmem₃ := ((probes_claimOwnerTerminal _).mem_cases_of_eq hterminal hmem).resolve_right nofun
    have hmem₂ := (probes_ownerActive.mem_cases_of_eq hactive hmem₃).resolve_right nofun
    have hmem₁ := ((probes_withinGrace _).mem_cases_of_eq hgrace hmem₂).resolve_right nofun
    rcases phaseClaims_found hclaims hconflict key claim hmem₁ with hold | hexisting
    · exact absurd (hlog _ hold) nofun
    · have htaskId : truthy (claims.existing.bind UmbrellaChainClaim.taskId) = some taskId := by
        rw [hexisting, Option.bind_some, htask]
      have hended : terminal = true := by
        simpa [PhaseStanding.claimOwnerActive, PhaseStanding.claimTaskId, htaskId] using hclaimEnded
      exact claimOwnerTerminal_over (hended ▸ hterminal) htaskId

theorem launch_cases (c : ChainScan) (options : ChainLaunch) (log : List ChainEvent) :
    ∃ result, (c.launch options).run log = (.ok result, log) ∨ (c.launch options).run log = (.ok result, log ++ [.launch options result]) := by
  unfold launch
  split
  · exact ⟨_, .inr rfl⟩
  · exact ⟨_, .inl rfl⟩

theorem noPhase_of_noLaunch (h : ∀ event ∈ log, event.isLaunch = false) : ∀ event ∈ log, ¬ event.isPhaseLaunch = true := by
  intro event hmem
  simp [ChainEvent.not_isPhaseLaunch (h event hmem)]

theorem launchPhase_before {p : PhaseClaimed} {event : ChainEvent} (hlog : ∀ event ∈ log, event.isLaunch = false)
    (hevent : event.isPhaseLaunch = true) (htrace : ((c.launchPhase p).run log).2 = before ++ event :: after) :
    before = log ∧ ∃ answer, event = .launch (c.options (.phase p.phase.id p.ledger.chainId) p.key p.ledger.issueNumber) answer := by
  obtain ⟨result, hrun | hrun⟩ := launch_cases c (c.options (.phase p.phase.id p.ledger.chainId) p.key p.ledger.issueNumber) log
  · rw [launchPhase, bind_of_ok hrun] at htrace
    have hmem : event ∈ ((c.phaseLaunched p result).run log).2 := by
      rw [htrace]
      simp
    have hnone := (launchesNothing_phaseLaunched p result).quiet hlog event hmem
    rw [ChainEvent.not_isPhaseLaunch hnone] at hevent
    cases hevent
  · rw [launchPhase, bind_of_ok hrun] at htrace
    obtain ⟨new, hnew, hquiet⟩ := launchesNothing_phaseLaunched p result (log ++ [.launch _ result])
    rw [hnew, List.append_assoc] at htrace
    obtain ⟨hbefore, hlaunch⟩ := only_entry_of_kind (noPhase_of_noLaunch hlog) (noPhase_of_noLaunch hquiet) hevent htrace
    exact ⟨hbefore.symm, result, hlaunch.symm⟩

theorem trace_phaseLaunch {event : ChainEvent} (htrace : c.trace = before ++ event :: after) (hevent : event.isPhaseLaunch = true) :
    ∃ s phase log p, c.gate.run [] = (.ok (.eligible s phase), log) ∧ (c.claimPhase s phase).run log = (.ok (some p), before) ∧
      ∃ answer, event = .launch (c.options (.phase p.phase.id p.ledger.chainId) p.key p.ledger.issueNumber) answer := by
  have hmem : event ∈ c.trace := by
    rw [htrace]
    simp
  have hno {log : List ChainEvent} (hlog : ∀ event ∈ log, event.isLaunch = false) : event ∉ log := fun hmem => by
    rw [ChainEvent.not_isPhaseLaunch (hlog event hmem)] at hevent
    cases hevent
  rcases mem_bind hmem with hgate | ⟨outcome, log, hgate, hmem⟩
  · exact absurd hgate (hno (probes_gate.launchesNothing.noLaunch rfl (by simp)))
  · have hlog := probes_gate.launchesNothing.noLaunch hgate (by simp)
    cases outcome with
    | ended => exact absurd hmem (hno hlog)
    | reviewBlocked s blocker complete =>
      rcases (launchesNoPhase_reviewBlocked complete).mem_cases hmem with hold | hnone
      · exact absurd hold (hno hlog)
      · rw [hnone] at hevent
        cases hevent
    | eligible s phase =>
      rcases mem_bind hmem with hclaim | ⟨claimed, log', hclaim, hmem⟩
      · exact absurd hclaim (hno (launchesNothing_claimPhase.noLaunch rfl hlog))
      · have hlog' := launchesNothing_claimPhase.noLaunch hclaim hlog
        cases claimed with
        | none => exact absurd hmem (hno hlog')
        | some p =>
          have hrest : c.trace = ((c.launchPhase p).run log').2 := by
            rw [trace, scanIssue, bind_of_ok hgate]
            change ((c.advance s phase).run log).2 = _
            rw [advance, bind_of_ok hclaim]
          obtain ⟨rfl, hlaunch⟩ := launchPhase_before hlog' hevent (hrest.symm.trans htrace)
          exact ⟨s, phase, log, p, hgate, hclaim, hlaunch⟩

/-- A scan launches a phase only behind the gate. -/
theorem phase_launch_gated (c : ChainScan) (before after : List ChainEvent) (options : ChainLaunch) (answer : Except String String)
    (phaseId chainId : String) (htrace : c.trace = before ++ .launch options answer :: after)
    (hprompt : options.prompt = .phase phaseId chainId) : ∃ original ledger, c.issue.ledger = .ok original ∧
      PhaseLedger.reconcile c.config.caseMap original c.issue.comments = .ok ledger ∧ LaunchGate c ledger before phaseId := by
  obtain ⟨s, phase, log, p, hgate, hclaim, answer', hevent⟩ :=
    trace_phaseLaunch htrace (by simp [ChainEvent.isPhaseLaunch, hprompt])
  obtain ⟨original, ledger, r, pre, post, horiginal, hreconcile, hledger, hpr, hprobed, hpassed⟩ := gate_passed hgate
  obtain ⟨t, log₁, hstanding, hended, hsafe, -, -, hphase, -, token, hclaimed⟩ := claimPhase_some hclaim
  have hprobes : ∀ event ∈ log, event.isProbe = true := fun event hmem =>
    (probes_gate.mem_cases_of_eq hgate hmem).resolve_left (by simp)
  have hstanding' := phaseStanding_safe hstanding hprobes hsafe hended hpr
  have hlog₁ : ∀ event ∈ log₁, event ∈ before := fun event => (probes_claim _).mem_of_eq hclaimed
  have hlog : ∀ event ∈ log, event ∈ before := fun event => launchesNothing_claimPhase.mem_of_eq hclaim
  have hid : phase.id = phaseId := by
    simp only [PhaseStanding.safeToAdvance, Bool.and_eq_true, Bool.not_eq_true'] at hsafe
    rw [(owned_eq hended hpr hsafe.1.1.1.1 hsafe.2).1] at hphase
    rw [(ChainEvent.launch.inj hevent).1, hphase] at hprompt
    exact (ChainPrompt.phase.inj hprompt).1
  have htask : phase.taskId = r.taskId := by rw [hprobed.frame]
  refine ⟨original, ledger, horiginal, hreconcile, pre, r, post, hledger, by rw [← hid, hprobed.id], ?_, ?_, ?_, ?_⟩
  · have hall : List.Forall₂ (fun q w => (∃ n merged, Reviewed c.config.caseMap before q n merged) ∧ Passed c log q w) pre
        (predecessors s.ledger phase) := by
      refine hpassed.imp fun q w h => ⟨?_, h⟩
      obtain ⟨-, n, text, merged, -, -, hreviewed⟩ := h
      exact ⟨n, merged, hreviewed.mono hlog⟩
    exact ((List.forall₂_and_left _ _).1 hall).1
  · intro q hq
    obtain ⟨w, hw, hprobedq, n, text, merged, htext, hdate, hreviewed⟩ := forall₂_getLast? hpassed hq
    obtain ⟨hterminal, hgrace⟩ := hstanding'.predecessor w hw
    obtain ⟨now, hnow, hlate⟩ := hgrace text merged htext hdate
    exact ⟨(hprobedq.ownerEnded hterminal).mono hlog, n, merged, now, hreviewed.mono hlog, hlog₁ _ hnow, hlate⟩
  · intro taskId htaskId
    rw [← htask] at htaskId
    exact hlog₁ _ (hstanding'.owner taskId htaskId)
  · intro key claim taskId hmem htaskId
    have hmem₁ := ((probes_claim _).mem_cases_of_eq hclaimed hmem).resolve_right nofun
    exact hlog₁ _ (hstanding'.claims key claim taskId hmem₁ htaskId)

def passedPhase (id : String) (n : ℕ) (dependsOn : List String) (taskId : String) : PhaseLedgerPhase :=
  ⟨⟨id, some n, some .merged⟩, dependsOn, some taskId, none, some "2026-01-01T00:00:00Z", some .pass,
    some "2026-01-02T00:00:00Z", some "reviewer", some 1, some "ab", none⟩

def thirdPhase : PhaseLedgerPhase := ⟨⟨"three", none, none⟩, ["two"], none, none, none, none, none, none, none, none, none⟩

def chainedPhases : List PhaseLedgerPhase := [passedPhase "one" 5 [] "first", passedPhase "two" 6 ["one"] "second", thirdPhase]

def chainedLedger : PhaseLedger := ⟨"chain", "owner/repo", 7, chainedPhases, none, none⟩

theorem thirdOfJanuary_inRange : (-8640000000000000 : ℤ) ≤ 1767398400000 ∧ (1767398400000 : ℤ) ≤ 8640000000000000 := by decide

def chained : ChainScan where
  deps :=
    { isTaskTerminal := some fun _ taskId => .ok (decide (taskId ≠ "first"))
      isReviewTaskIndependent := some fun _ _ _ => .ok true
      launch := some fun _ _ => .ok "third"
      isPullRequestReachable := fun _ _ => .ok true
      getPullRequestHeadSha := fun _ _ => .ok (some "ab")
      getPullRequestMergedAt := fun _ _ => .ok (some "2026-01-01T00:00:00Z")
      getClaim := fun _ _ => .ok none
      claim := fun _ key => .claimed ⟨key, "token", "2026-01-03T00:00:00Z", none⟩
      finalize := fun _ _ _ _ => .ok ()
      release := fun _ _ _ => .ok ()
      now := fun _ => ⟨1767398400000, thirdOfJanuary_inRange⟩ }
  config := ⟨.ascii, .spawn, 0, "owner/repo", none, none⟩
  project := ⟨"github.com/owner/repo", "owner/repo", "/repo"⟩
  issue := ⟨7, .ok chainedLedger, []⟩

/-- The third phase is launched, or the first owner is reported to have ended. -/
def launchesThird : ChainEvent → Bool
  | .launch options _ => options.prompt = .phase "three" "chain"
  | _ => false

def endsFirst : ChainEvent → Bool
  | .isTaskTerminal taskId (.ok true) => taskId = "first"
  | _ => false

theorem launch_chained : chained.trace.any launchesThird = true ∧ chained.trace.any endsFirst = false := by decide +kernel

theorem exists_launch_chained : ∃ before after options answer, chained.trace = before ++ .launch options answer :: after ∧
    options.prompt = .phase "three" "chain" := by
  obtain ⟨event, hmem, hevent⟩ := List.any_eq_true.1 launch_chained.1
  obtain ⟨before, after, htrace⟩ := List.append_of_mem hmem
  cases event with
  | launch options answer => exact ⟨before, after, options, answer, htrace, of_decide_eq_true hevent⟩
  | _ => cases hevent

theorem phase_launch_gated_chained : ∃ before original ledger, chained.issue.ledger = .ok original ∧
    PhaseLedger.reconcile .ascii original [] = .ok ledger ∧ LaunchGate chained ledger before "three" := by
  obtain ⟨before, after, options, answer, htrace, hprompt⟩ := exists_launch_chained
  exact ⟨before, phase_launch_gated chained before after options answer "three" "chain" htrace hprompt⟩

theorem reconcile_chained : PhaseLedger.reconcile .ascii chainedLedger [] = .ok chainedLedger := by decide +kernel

/-- Not every owner before the launched phase has ended. -/
theorem first_owner_at_work : ¬ ∀ (c : ChainScan) before after options answer phaseId chainId,
    c.trace = before ++ .launch options answer :: after → options.prompt = .phase phaseId chainId →
    ∀ original ledger, c.issue.ledger = .ok original →
      PhaseLedger.reconcile c.config.caseMap original c.issue.comments = .ok ledger →
      ∀ pre phase post, ledger.phases = pre ++ phase :: post → phase.id = phaseId → ∀ r ∈ pre, OwnerEnded before r := by
  intro h
  obtain ⟨before, after, options, answer, htrace, hprompt⟩ := exists_launch_chained
  have hended := h chained before after options answer "three" "chain" htrace hprompt chainedLedger chainedLedger rfl
    reconcile_chained [passedPhase "one" 5 [] "first", passedPhase "two" 6 ["one"] "second"] thirdPhase [] rfl rfl
    (passedPhase "one" 5 [] "first") List.mem_cons_self
  rcases hended with hrecorded | ⟨taskId, htask, hmem⟩
  · cases hrecorded
  · have hfirst : taskId = "first" := (Option.some.inj (truthy_eq_some htask).1).symm
    have hnone := List.any_eq_false.1 launch_chained.2 _ (by rw [htrace]; exact List.mem_append_left _ hmem)
    exact hnone (decide_eq_true hfirst)

end Kookr.Server.ChainScan
