import Kookr.Spec.Server.UmbrellaChainAdvancer
import Kookr.Sanity.Core.LedgerCheck

/-! What the programs of a scan add to its log. Up to the review of the merged phases nothing is
claimed and nothing launched; until a claim is held nothing is launched; and a correction is never
the launch of a phase. -/

namespace Kookr.Server

open Kookr.Lib Kookr.Lib.Traced Kookr.Core

namespace ChainEvent

def isLaunch : ChainEvent → Bool
  | launch _ _ => true
  | _ => false

def isPhaseLaunch : ChainEvent → Bool
  | launch options _ =>
    match options.prompt with
    | .phase _ _ => true
    | .reviewCorrection _ _ _ => false
  | _ => false

/-- Neither a launch nor a look at a claim. -/
def isProbe : ChainEvent → Bool
  | launch _ _ => false
  | getClaim _ _ => false
  | _ => true

theorem not_isLaunch_of_isProbe {event : ChainEvent} (h : event.isProbe = true) : event.isLaunch = false := by
  cases event with
  | launch options answer => simp [isProbe] at h
  | _ => rfl

theorem not_isPhaseLaunch {event : ChainEvent} (h : event.isLaunch = false) : event.isPhaseLaunch = false := by
  cases event with
  | launch options answer => simp [isLaunch] at h
  | _ => rfl

end ChainEvent

namespace ChainScan

variable {c : ChainScan} {s : ChainState} {phase : PhaseLedgerPhase} {phases : List PhaseLedgerPhase} {probe : ChainProbe}
  {ledger : PhaseLedger} {changed : Bool}

abbrev Probes {α : Type} (m : ChainProgram α) : Prop := Adds (fun event => event.isProbe = true) m

abbrev LaunchesNothing {α : Type} (m : ChainProgram α) : Prop := Adds (fun event => event.isLaunch = false) m

theorem Probes.launchesNothing {α : Type} {m : ChainProgram α} (h : Probes m) : LaunchesNothing m :=
  h.mono fun _ => ChainEvent.not_isLaunch_of_isProbe

theorem LaunchesNothing.quiet {α : Type} {m : ChainProgram α} (h : LaunchesNothing m) {log : List ChainEvent}
    (hlog : ∀ event ∈ log, event.isLaunch = false) : ∀ event ∈ (m.run log).2, event.isLaunch = false :=
  fun event hmem => (h.mem_cases hmem).elim (hlog event) id

theorem LaunchesNothing.noLaunch {α : Type} {m : ChainProgram α} (h : LaunchesNothing m) {log log' : List ChainEvent}
    {result : Except String α} (hrun : m.run log = (result, log')) (hlog : ∀ event ∈ log, event.isLaunch = false) :
    ∀ event ∈ log', event.isLaunch = false := by
  have hquiet := h.quiet hlog
  rwa [hrun] at hquiet

theorem probes_isTaskTerminal (taskId : String) : Probes (c.isTaskTerminal taskId) := by
  unfold isTaskTerminal
  split
  · exact adds_ask fun _ => rfl
  · exact adds_pure _

theorem probes_isReviewTaskIndependent (taskId reviewerTaskId : String) :
    Probes (c.isReviewTaskIndependent taskId reviewerTaskId) := by
  unfold isReviewTaskIndependent
  split
  · exact adds_ask fun _ => rfl
  · exact adds_pure _

theorem probes_now : Probes c.now := adds_query fun _ => rfl

theorem probes_persistIfChanged : Probes (c.persistIfChanged ledger changed) := by
  unfold persistIfChanged
  split
  · exact adds_note rfl
  · exact adds_pure _

theorem probes_block (reason : PhaseLedgerBlockedReason) : Probes (c.block ledger reason) := by
  unfold block
  split
  · exact adds_pure _
  · exact probes_now.bind fun _ => adds_pure _

theorem probes_probeOwner : Probes (c.probeOwner phase) := by
  unfold probeOwner
  split
  · split
    · exact adds_pure _
    · exact (probes_isTaskTerminal _).bind fun _ => adds_pure _
  · exact adds_pure _

theorem probes_withinGrace (predecessor : Option PhaseLedgerPhase) : Probes (c.withinGrace predecessor) := by
  unfold withinGrace
  split
  · exact adds_pure _
  · exact probes_now.bind fun _ => adds_pure _

theorem probes_ownerActive : Probes (c.ownerActive phase) := by
  unfold ownerActive
  split
  · split
    · exact adds_pure _
    · exact (probes_isTaskTerminal _).bind fun _ => adds_pure _
  · exact adds_pure _

theorem probes_claimOwnerTerminal (existing : Option UmbrellaChainClaim) : Probes (c.claimOwnerTerminal existing) := by
  unfold claimOwnerTerminal
  split
  · exact probes_isTaskTerminal _
  · exact adds_pure _

theorem probes_probePullRequest (prNumber : ℕ) : Probes (c.probePullRequest phase prNumber probe) := by
  refine Adds.bind (adds_ask fun _ => rfl) fun isReachable => ?_
  split
  · refine Adds.bind (adds_ask fun _ => rfl) fun _ => Adds.bind (adds_ask fun _ => rfl) fun _ => ?_
    split
    · exact adds_pure _
    · refine (adds_lift _).bind fun _ => ?_
      split <;> exact adds_pure _
  · exact adds_pure _

theorem probes_probePhase : Probes (c.probePhase phase probe) := by
  refine probes_probeOwner.bind fun _ => ?_
  dsimp only
  split
  · exact adds_pure _
  · exact probes_probePullRequest _

theorem probes_probePhases : Probes (c.probePhases phases probe) := by
  induction phases generalizing probe with
  | nil => exact adds_pure _
  | cons phase phases ih => exact probes_probePhase.bind fun _ => ih.bind fun _ => adds_pure _

theorem probes_findDependentReview : Probes (c.findDependentReview phases) := by
  induction phases with
  | nil => exact adds_pure _
  | cons phase phases ih =>
    unfold findDependentReview
    split
    · exact ih
    · split
      · refine (probes_isReviewTaskIndependent _ _).bind fun _ => ?_
        split
        · exact ih
        · exact adds_pure _
      · exact adds_pure _

theorem probes_findReviewAuditBlocker (heads : OrderedMap ℕ String) : Probes (c.findReviewAuditBlocker phases heads) := by
  unfold findReviewAuditBlocker
  split
  · exact adds_pure _
  · exact probes_findDependentReview

theorem probes_gate : Probes c.gate := by
  unfold gate
  split
  · exact adds_pure _
  · split
    · exact adds_pure _
    · refine (adds_lift _).bind fun _ => probes_probePhases.bind fun _ => ?_
      dsimp only
      split
      · exact probes_persistIfChanged.bind fun _ => adds_pure _
      · split
        · split
          · exact (probes_block _).bind fun _ => probes_persistIfChanged.bind fun _ => adds_pure _
          · exact probes_persistIfChanged.bind fun _ => adds_pure _
        · refine (probes_findReviewAuditBlocker _).bind fun _ => ?_
          split
          · exact adds_pure _
          · exact probes_persistIfChanged.bind fun _ => adds_pure _
        · refine (probes_findReviewAuditBlocker _).bind fun _ => ?_
          split <;> exact adds_pure _

theorem launchesNothing_getClaim (key : String) : LaunchesNothing (c.getClaim key) := adds_ask fun _ => rfl

theorem probes_claim (key : String) : Probes (c.claim key) := adds_query fun _ => rfl

theorem launchesNothing_finalize (key taskId ownerToken : String) : LaunchesNothing (c.finalize key taskId ownerToken) :=
  Adds.attempt (adds_ask fun _ => rfl)

theorem launchesNothing_release (key ownerToken : String) : LaunchesNothing (c.release key ownerToken) :=
  Adds.attempt (adds_ask fun _ => rfl)

theorem launchesNothing_getLegacyClaim (key : String) : LaunchesNothing (c.getLegacyClaim key) := by
  unfold getLegacyClaim
  split
  · exact launchesNothing_getClaim _
  · exact adds_pure _

theorem launchesNothing_claimCorrection : LaunchesNothing (c.claimCorrection s phase) := by
  have hindependent : LaunchesNothing (c.correctionIndependent phase) := by
    unfold correctionIndependent
    split
    · exact (probes_isReviewTaskIndependent _ _).launchesNothing
    · exact adds_pure _
  unfold claimCorrection
  split
  · exact adds_pure _
  · split
    · exact adds_pure _
    · refine hindependent.bind fun _ => ?_
      split
      · exact adds_pure _
      · refine (launchesNothing_getClaim _).bind fun _ => (launchesNothing_getLegacyClaim _).bind fun _ => ?_
        split
        · exact adds_pure _
        · split
          · refine (probes_isTaskTerminal _).launchesNothing.bind fun _ => ?_
            split
            · exact probes_persistIfChanged.launchesNothing.bind fun _ => adds_pure _
            · exact adds_pure _
          · refine (probes_claim _).launchesNothing.bind fun _ => ?_
            split <;> exact adds_pure _

theorem launchesNothing_phaseStanding : LaunchesNothing (c.phaseStanding ledger phase) := by
  have hclaims : LaunchesNothing (c.phaseClaims ledger phase) :=
    (launchesNothing_getClaim _).bind fun _ => (launchesNothing_getLegacyClaim _).bind fun _ => adds_pure _
  exact hclaims.bind fun _ => (probes_withinGrace _).launchesNothing.bind fun _ =>
    probes_ownerActive.launchesNothing.bind fun _ => (probes_claimOwnerTerminal _).launchesNothing.bind fun _ => adds_pure _

theorem launchesNothing_claimPhase : LaunchesNothing (c.claimPhase s phase) := by
  have hpersist {ledger : PhaseLedger} {changed : Bool} : LaunchesNothing (c.persistIfChanged ledger changed) :=
    probes_persistIfChanged.launchesNothing
  have hblock {ledger : PhaseLedger} (reason : PhaseLedgerBlockedReason) : LaunchesNothing (c.block ledger reason) :=
    (probes_block reason).launchesNothing
  refine launchesNothing_phaseStanding.bind fun t => ?_
  split
  · exact hpersist.bind fun _ => adds_pure _
  · split
    · split
      · exact (hblock _).bind fun _ => hpersist.bind fun _ => adds_pure _
      · exact hpersist.bind fun _ => adds_pure _
    · refine (probes_claim _).launchesNothing.bind fun _ => ?_
      split
      · exact adds_pure _
      · exact adds_pure _
      · exact (hblock _).bind fun _ => hpersist.bind fun _ => adds_pure _

theorem launchesNothing_correctionLaunched (attempt : ℕ) (key ownerToken : String) (result : Except String String) :
    LaunchesNothing (c.correctionLaunched s phase attempt key ownerToken result) := by
  cases result with
  | error e => exact (launchesNothing_release _ _).bind fun _ => adds_pure _
  | ok taskId =>
    refine (launchesNothing_finalize _ _ _).bind fun _ => ?_
    split
    · exact adds_pure _
    · exact probes_persistIfChanged.launchesNothing.bind fun _ => adds_pure _

theorem launchesNothing_blockForReview (complete isOver : Bool) (ledger : PhaseLedger) :
    LaunchesNothing (c.blockForReview s complete isOver ledger) := by
  unfold blockForReview
  split
  · exact adds_pure _
  · split
    · exact (probes_block _).launchesNothing.bind fun _ => probes_persistIfChanged.launchesNothing
    · exact probes_persistIfChanged.launchesNothing

theorem launchesNothing_phaseLaunched (claimed : PhaseClaimed) (result : Except String String) :
    LaunchesNothing (c.phaseLaunched claimed result) := by
  cases result with
  | error e => exact (launchesNothing_release _ _).bind fun _ => adds_pure _
  | ok taskId => exact (launchesNothing_finalize _ _ _).bind fun _ => probes_persistIfChanged.launchesNothing

abbrev LaunchesNoPhase {α : Type} (m : ChainProgram α) : Prop := Adds (fun event => event.isPhaseLaunch = false) m

theorem LaunchesNothing.launchesNoPhase {α : Type} {m : ChainProgram α} (h : LaunchesNothing m) : LaunchesNoPhase m :=
  h.mono fun _ => ChainEvent.not_isPhaseLaunch

theorem launchesNoPhase_reviewBlocked (complete : Bool) : LaunchesNoPhase (c.reviewBlocked s phase complete) := by
  have hlaunch (phaseId : String) (attempt cap : ℕ) (key : String) (issueNumber : ℕ) :
      LaunchesNoPhase (c.launch (c.options (.reviewCorrection phaseId attempt cap) key issueNumber)) := by
    unfold launch
    split
    · exact Adds.attempt (adds_ask fun _ => rfl)
    · exact adds_pure _
  refine Adds.bind (launchesNothing_claimCorrection.launchesNoPhase.bind fun outcome => ?_) fun r =>
    (launchesNothing_blockForReview complete r.1 r.2).launchesNoPhase
  split
  · exact adds_pure _
  · exact adds_pure _
  · exact (hlaunch _ _ _ _ _).bind fun _ => (launchesNothing_correctionLaunched _ _ _ _).launchesNoPhase

end ChainScan

end Kookr.Server

/-! What a stage of a scan found out when it goes on to the next: the gate, the claim of a phase, and
the claim of a correction. -/

namespace Kookr.Server.ChainScan

open Kookr.Lib Kookr.Lib.Traced Kookr.Core

variable {c : ChainScan} {s : ChainState} {phase blocker : PhaseLedgerPhase} {phases : List PhaseLedgerPhase}
  {log log' : List ChainEvent}

/-- The ledger was reconciled and probed, nobody blocked it by hand, and the scan goes on with it. -/
structure Probed (c : ChainScan) (original reconciled : PhaseLedger) (probe : ChainProbe) (s : ChainState)
    (log : List ChainEvent) : Prop where
  ledger : c.issue.ledger = .ok original
  reconcile : PhaseLedger.reconcile c.config.caseMap original c.issue.comments = .ok reconciled
  probed : (c.probePhases reconciled.phases ⟨.empty, .empty, reconciled ≠ original⟩).run [] = (.ok (s.ledger.phases, probe), log)
  state : s = ⟨{ reconciled with phases := s.ledger.phases }, probe.currentHeadByPr, probe.changed⟩
  notManual : isManualBlock s.ledger = false

/-- A scan that does not end at the gate was probed. What comes next in its phases says where it goes
on: at a review that stands in the way, or with the eligible phase. -/
theorem gate_cases {outcome : GateOutcome} (h : c.gate.run [] = (.ok outcome, log)) (hends : outcome ≠ .ended) :
    ∃ original reconciled probe s log₁, Probed c original reconciled probe s log₁ ∧
      ((∃ blocker complete, outcome = .reviewBlocked s blocker complete) ∨ ∃ phase, outcome = .eligible s phase ∧
          nextEligiblePhase (fun prNumber => probe.reachable.get prNumber = some true) s.ledger.phases = .eligible phase ∧
          (c.findReviewAuditBlocker (predecessors s.ledger phase) probe.currentHeadByPr).run log₁ = (.ok none, log)) := by
  unfold gate at h
  split at h
  · exact absurd (pure_eq_ok.1 h).1.symm hends
  · next original horiginal =>
    split at h
    · exact absurd (pure_eq_ok.1 h).1.symm hends
    · simp only [bind_eq_ok, lift_eq_ok] at h
      obtain ⟨reconciled, _, ⟨hreconcile, rfl⟩, ⟨ws, probe⟩, log₁, hprobed, h⟩ := h
      split at h
      · simp only [bind_eq_ok, pure_eq_ok] at h
        obtain ⟨-, -, -, hended, -⟩ := h
        exact absurd hended.symm hends
      · next hmanual =>
        refine ⟨original, reconciled, probe, ⟨{ reconciled with phases := ws }, probe.currentHeadByPr, probe.changed⟩, log₁,
          ⟨horiginal, hreconcile, hprobed, rfl, by simpa using hmanual⟩, ?_⟩
        split at h
        -- a dependency is not merged
        · refine absurd ?_ hends
          split at h <;> simp only [bind_eq_ok, pure_eq_ok] at h
          · obtain ⟨-, -, -, -, -, -, hended, -⟩ := h
            exact hended.symm
          · obtain ⟨-, -, -, hended, -⟩ := h
            exact hended.symm
        -- every phase is merged
        · rw [bind_eq_ok] at h
          obtain ⟨blocked, log₂, -, h⟩ := h
          split at h
          · exact .inl ⟨_, _, (pure_eq_ok.1 h).1.symm⟩
          · simp only [bind_eq_ok, pure_eq_ok] at h
            obtain ⟨-, -, -, hended, -⟩ := h
            exact absurd hended.symm hends
        · next phase hnext =>
          rw [bind_eq_ok] at h
          obtain ⟨blocked, log₂, hreview, h⟩ := h
          split at h
          · exact .inl ⟨_, _, (pure_eq_ok.1 h).1.symm⟩
          · obtain ⟨houtcome, rfl⟩ := pure_eq_ok.1 h
            exact .inr ⟨phase, houtcome.symm, hnext, hreview⟩

theorem gate_reviewBlocked {complete : Bool} (h : c.gate.run [] = (.ok (.reviewBlocked s blocker complete), log)) :
    ∃ original reconciled probe log₁, Probed c original reconciled probe s log₁ := by
  obtain ⟨original, reconciled, probe, s', log₁, hprobed, ⟨_, _, houtcome⟩ | ⟨_, houtcome, -⟩⟩ := gate_cases h (by simp)
  · obtain ⟨rfl, -, -⟩ := GateOutcome.reviewBlocked.inj houtcome
    exact ⟨original, reconciled, probe, log₁, hprobed⟩
  · cases houtcome

theorem gate_eligible (h : c.gate.run [] = (.ok (.eligible s phase), log)) :
    ∃ original reconciled probe log₁, Probed c original reconciled probe s log₁ ∧
      nextEligiblePhase (fun prNumber => probe.reachable.get prNumber = some true) s.ledger.phases = .eligible phase ∧
      (c.findReviewAuditBlocker (predecessors s.ledger phase) probe.currentHeadByPr).run log₁ = (.ok none, log) := by
  obtain ⟨original, reconciled, probe, s', log₁, hprobed, ⟨_, _, houtcome⟩ | ⟨_, houtcome, hnext, hreview⟩⟩ := gate_cases h (by simp)
  · cases houtcome
  · obtain ⟨rfl, rfl⟩ := GateOutcome.eligible.inj houtcome
    exact ⟨original, reconciled, probe, log₁, hprobed, hnext, hreview⟩

/-- A block that was set by hand is in the ledger of the issue already. -/
theorem Probed.notManual_original {original reconciled : PhaseLedger} {probe : ChainProbe}
    (h : Probed c original reconciled probe s log) : isManualBlock original = false := by
  have hledger := (PhaseLedger.validate_eq_ok h.reconcile).1
  have hmanual := h.notManual
  rw [h.state, hledger] at hmanual
  exact hmanual

/-- A correction is claimed by a scan that may launch it. -/
theorem claimCorrection_claimed {attempt : ℕ} {key ownerToken : String}
    (h : (c.claimCorrection s blocker).run log = (.ok (.claimed attempt key ownerToken), log')) :
    c.config.mode = .spawn ∧ c.deps.launch.isSome = true := by
  unfold claimCorrection at h
  split at h
  · simp [pure_eq_ok] at h
  · next hmay =>
    simp only [not_or, not_not, Option.isNone_iff_eq_none] at hmay
    exact ⟨hmay.1, Option.isSome_iff_ne_none.2 hmay.2.1⟩

/-- A phase is claimed after everything that is known of it, by a scan that may launch it. -/
theorem claimPhase_some {p : PhaseClaimed} (h : (c.claimPhase s phase).run log = (.ok (some p), log')) :
    ∃ t log₁, (c.phaseStanding s.ledger phase).run log = (.ok t, log₁) ∧ t.endedWithoutPr phase = false ∧ t.safeToAdvance = true ∧
      c.config.mode = .spawn ∧ c.disabled = false ∧ p.phase = t.owned phase ∧ p.ledger = t.ledgerOf phase s.ledger ∧
      ∃ token, (c.claim t.claims.key).run log₁ = (.ok (.claimed token), log') := by
  unfold claimPhase at h
  rw [bind_eq_ok] at h
  obtain ⟨t, log₁, hstanding, h⟩ := h
  split at h
  · simp [bind_eq_ok, pure_eq_ok] at h
  · next hended =>
    split at h
    · split at h <;> simp [bind_eq_ok, pure_eq_ok] at h
    · next hmay =>
      simp only [Bool.or_eq_true, Bool.not_eq_true', decide_eq_true_eq, not_or, not_not, Bool.not_eq_false,
        Bool.not_eq_true] at hmay
      rw [bind_eq_ok] at h
      obtain ⟨attempt, log₂, hclaim, h⟩ := h
      split at h
      · next claim =>
        obtain ⟨rfl, rfl⟩ := h
        exact ⟨t, log₁, hstanding, by simpa using hended, hmay.1.1.1, hmay.1.1.2, hmay.2, rfl, rfl, claim, hclaim⟩
      · simp [pure_eq_ok] at h
      · simp [bind_eq_ok, pure_eq_ok] at h

end Kookr.Server.ChainScan
