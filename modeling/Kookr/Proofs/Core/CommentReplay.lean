import Kookr.Sanity.Core.CommentSweep

/-! Replaying the comments on the ledger that a sweep of them made. The second sweep skips what the
first let through before the review generation had grown, so a field ends with another value exactly
when what would be written last to it now is not what was written last before. -/

namespace Kookr.Core

open Kookr.Lib PhaseResultComment PhaseLedgerPhase PhaseLedger PhaseResultComment List

variable {caseMap : CaseMap} {ledger ledger' : PhaseLedger} {comments : List String} {result : PhaseResultComment}
  {results : List PhaseResultComment} {phase : PhaseLedgerPhase} {phases : List PhaseLedgerPhase} {β : Type}
  {generation : Option ℕ}

/-- What the comments that are current write last to the field is what those let through wrote last. -/
def Settled (f : PhaseResultComment → Option β) (generation : Option ℕ) (results : List PhaseResultComment) : Prop :=
  lastOf f (current generation results) = none ∨
    lastOf f (current generation results) = lastOf f (taken generation results)

/-- A verdict writes the head it was given for, or takes the one that is there away. -/
def headWritten (result : PhaseResultComment) : Option (Option String) :=
  if result.reviewVerdict.isSome then some result.reviewHeadSha else none

/-- Every field is settled. -/
structure ReplaySafe (generation : Option ℕ) (results : List PhaseResultComment) : Prop where
  prNumber : Settled prNumber generation results
  status : Settled status generation results
  taskId : Settled taskId generation results
  ownerTerminal : Settled ownerTerminal generation results
  mergedAt : Settled mergedAt generation results
  reviewVerdict : Settled reviewVerdict generation results
  reviewedAt : Settled reviewedAt generation results
  reviewerTaskId : Settled reviewerTaskId generation results
  reviewHeadSha : Settled headWritten generation results

instance Settled.decidable [DecidableEq β] (f : PhaseResultComment → Option β) (generation : Option ℕ)
    (results : List PhaseResultComment) : Decidable (Settled f generation results) := inferInstanceAs (Decidable (_ ∨ _))

instance ReplaySafe.decidable (generation : Option ℕ) (results : List PhaseResultComment) :
    Decidable (ReplaySafe generation results) :=
  decidable_of_iff (Settled PhaseResultComment.prNumber generation results ∧
      Settled PhaseResultComment.status generation results ∧ Settled PhaseResultComment.taskId generation results ∧
      Settled PhaseResultComment.ownerTerminal generation results ∧ Settled PhaseResultComment.mergedAt generation results ∧
      Settled PhaseResultComment.reviewVerdict generation results ∧ Settled PhaseResultComment.reviewedAt generation results ∧
      Settled PhaseResultComment.reviewerTaskId generation results ∧ Settled headWritten generation results)
    ⟨fun ⟨hpr, hstatus, htask, howner, hmerged, hverdict, hreviewed, hreviewer, hsha⟩ =>
      ⟨hpr, hstatus, htask, howner, hmerged, hverdict, hreviewed, hreviewer, hsha⟩,
    fun ⟨hpr, hstatus, htask, howner, hmerged, hverdict, hreviewed, hreviewer, hsha⟩ =>
      ⟨hpr, hstatus, htask, howner, hmerged, hverdict, hreviewed, hreviewer, hsha⟩⟩

/-- The comments of a ledger that are about a phase. -/
def about (caseMap : CaseMap) (ledger : PhaseLedger) (comments : List String) (id : String) : List PhaseResultComment :=
  (ledger.results caseMap comments).filter fun result => result.phaseId = id

/-- The second sweep leaves a field as it was when it is settled, and only then. -/
theorem field_sweep_sweep (field : PhaseLedgerPhase → Option β) {f : PhaseResultComment → Option β}
    (hfield : ∀ phase result, field (write phase result) = (f result).or (field phase)) (phase : PhaseLedgerPhase)
    (results : List PhaseResultComment) : field ((phase.sweep results).sweep results) = field (phase.sweep results) ↔
      Settled f phase.reviewAttempts results := by
  have hsecond : (phase.sweep results).sweep results = (current phase.reviewAttempts results).foldl write (phase.sweep results) :=
    sweep_eq_current (sweep_reviewAttempts phase results) fun _ => id
  rw [hsecond, foldl_write_field hfield, sweep_eq_taken, foldl_write_field hfield]
  unfold Settled
  cases hlast : lastOf f (current phase.reviewAttempts results) with
  | none => simp
  | some value =>
    -- what is current was let through, so something wrote the field before
    have hwritten : lastOf f (taken phase.reviewAttempts results) ≠ none := by
      intro hnone
      refine absurd (lastOf_eq_none fun r hr => ?_) (by simp [hlast] : lastOf f (current phase.reviewAttempts results) ≠ none)
      by_contra hne
      exact lastOf_ne_none (mem_taken_of_current hr) hne hnone
    cases hfirst : lastOf f (taken phase.reviewAttempts results) with
    | none => exact absurd hfirst hwritten
    | some value' => simp

theorem reviewIterationCap_le {cap : ℕ} (hmem : result ∈ results) (hcap : result.reviewIterationCap = some cap)
    (phase : PhaseLedgerPhase) : ∃ c ∈ (results.foldl write phase).reviewIterationCap, c ≤ cap := by
  induction results using reverseRecOn with
  | nil => simp at hmem
  | append_singleton results last ih =>
    rw [foldl_append, foldl_cons, foldl_nil]
    rcases mem_append.1 hmem with hbefore | hlast
    · obtain ⟨c, hc, hle⟩ := ih hbefore
      rw [Option.mem_def] at hc
      cases hnext : last.reviewIterationCap with
      | none => exact ⟨c, by simp [write, hnext, hc], hle⟩
      | some next => exact ⟨min c next, by simp [write, hnext, hc], (min_le_left _ _).trans hle⟩
    · obtain rfl := mem_singleton.1 hlast
      exact ⟨min ((results.foldl write phase).reviewIterationCap.getD cap) cap, by simp [write, hcap], min_le_right _ _⟩

/-- A cap that has been taken into account once changes nothing the second time. -/
theorem reviewIterationCap_foldl (hcaps : ∀ result ∈ results, ∀ cap ∈ result.reviewIterationCap,
    ∃ c ∈ phase.reviewIterationCap, c ≤ cap) : (results.foldl write phase).reviewIterationCap = phase.reviewIterationCap := by
  induction results using reverseRecOn with
  | nil => rfl
  | append_singleton results last ih =>
    rw [foldl_append, foldl_cons, foldl_nil]
    have hbefore := ih fun result hresult => hcaps result (mem_append_left _ hresult)
    cases hnext : last.reviewIterationCap with
    | none => simpa [write, hnext] using hbefore
    | some cap =>
      obtain ⟨c, hc, hle⟩ := hcaps last (by simp) cap hnext
      rw [Option.mem_def] at hc
      simp [write, hnext, hbefore, hc, hle]

theorem foldl_write_frame (results : List PhaseResultComment) (phase : PhaseLedgerPhase) :
    (results.foldl write phase).id = phase.id ∧ (results.foldl write phase).dependsOn = phase.dependsOn := by
  induction results generalizing phase with
  | nil => exact ⟨rfl, rfl⟩
  | cons result results ih => exact ih (phase.write result)

theorem sweep_frame (phase : PhaseLedgerPhase) (results : List PhaseResultComment) :
    (phase.sweep results).id = phase.id ∧ (phase.sweep results).dependsOn = phase.dependsOn := by
  rw [sweep_eq_taken]
  exact foldl_write_frame _ phase

theorem sweep_sweep_reviewIterationCap (phase : PhaseLedgerPhase) (results : List PhaseResultComment) :
    ((phase.sweep results).sweep results).reviewIterationCap = (phase.sweep results).reviewIterationCap := by
  rw [sweep_eq_current (sweep_reviewAttempts phase results) fun _ => id]
  refine reviewIterationCap_foldl fun result hresult cap hcap => ?_
  rw [sweep_eq_taken]
  exact reviewIterationCap_le (mem_taken_of_current hresult) hcap phase

theorem sweep_sweep_reviewAttempts (phase : PhaseLedgerPhase) (results : List PhaseResultComment) :
    ((phase.sweep results).sweep results).reviewAttempts = (phase.sweep results).reviewAttempts := by
  rw [sweep_reviewAttempts, sweep_reviewAttempts]
  exact generationAfter_fixed fun _ => id

/-- A second sweep of the same comments leaves the phase as it is when they are settled, and only then. -/
theorem sweep_sweep (phase : PhaseLedgerPhase) (results : List PhaseResultComment) :
    (phase.sweep results).sweep results = phase.sweep results ↔ ReplaySafe phase.reviewAttempts results := by
  have hhead := field_sweep_sweep (fun phase => some phase.reviewHeadSha) (f := headWritten) ?_ phase results
  · rw [Option.some_inj] at hhead
    rw [PhaseLedgerPhase.ext_iff, field_sweep_sweep (fun phase => phase.prNumber) (fun _ _ => rfl),
      field_sweep_sweep (fun phase => phase.status) (fun _ _ => rfl), field_sweep_sweep taskId (fun _ _ => rfl),
      field_sweep_sweep ownerTerminal (fun _ _ => rfl), field_sweep_sweep mergedAt (fun _ _ => rfl),
      field_sweep_sweep reviewVerdict (fun _ _ => rfl), field_sweep_sweep reviewedAt (fun _ _ => rfl),
      field_sweep_sweep reviewerTaskId (fun _ _ => rfl), hhead]
    constructor
    · rintro ⟨-, hpr, hstatus, -, htask, howner, hmerged, hverdict, hreviewed, hreviewer, -, hsha, -⟩
      exact ⟨hpr, hstatus, htask, howner, hmerged, hverdict, hreviewed, hreviewer, hsha⟩
    · rintro ⟨hpr, hstatus, htask, howner, hmerged, hverdict, hreviewed, hreviewer, hsha⟩
      exact ⟨(sweep_frame _ results).1, hpr, hstatus, (sweep_frame _ results).2, htask, howner, hmerged, hverdict, hreviewed,
        hreviewer, sweep_sweep_reviewAttempts phase results, hsha, sweep_sweep_reviewIterationCap phase results⟩
  · intro phase result
    unfold write headWritten
    cases result.reviewVerdict <;> rfl

theorem changeById_eq_map {id : String} {f : PhaseLedgerPhase → PhaseLedgerPhase} (h : (phases.map (·.id)).Nodup) :
    changeById id f phases = phases.map fun phase => if phase.id = id then f phase else phase := by
  induction phases with
  | nil => rfl
  | cons phase phases ih =>
    rw [map_cons, nodup_cons] at h
    unfold changeById
    by_cases hid : phase.id = id
    · -- no other phase has the id
      have hothers : ∀ other ∈ phases, other.id ≠ id := by
        rintro other hother rfl
        exact h.1 (hid ▸ mem_map_of_mem hother)
      have hrest : phases.map (fun phase => if phase.id = id then f phase else phase) = phases := by
        refine (map_congr_left fun other hother => ?_).trans (map_id phases)
        exact if_neg (hothers other hother)
      rw [if_pos ⟨hid, hothers⟩, map_cons, if_pos hid, hrest]
    · rw [if_neg fun hboth => hid hboth.1, map_cons, if_neg hid, ih h.2]

theorem foldl_changeById (h : (phases.map (·.id)).Nodup) (results : List PhaseResultComment) :
    results.foldl (fun phases result => changeById result.phaseId (fun phase => phase.apply result) phases) phases =
      phases.map fun phase => phase.sweep (results.filter fun result => result.phaseId = phase.id) := by
  induction results generalizing phases with
  | nil => exact (map_id phases).symm
  | cons result results ih =>
    rw [foldl_cons, changeById_eq_map h, ih, map_map]
    · refine map_congr_left fun phase _ => ?_
      by_cases hid : phase.id = result.phaseId
      · simp [hid, sweep]
      · simp [hid, Ne.symm hid]
    · rw [map_map]
      convert h using 2
      funext phase
      simp only [Function.comp_apply]
      split <;> simp

theorem reconcile_eq (h : (ledger.phases.map (·.id)).Nodup) (comments : List String) :
    reconcile caseMap ledger comments = validate caseMap { ledger with
      phases := ledger.phases.map fun phase => phase.sweep (about caseMap ledger comments phase.id) } := by
  unfold reconcile
  rw [foldl_changeById h]
  rfl

theorem reviewHeadSha_ofJson {value : Json} (h : ofJson caseMap value = some result) :
    result.reviewHeadSha.map caseMap.lower = result.reviewHeadSha := by
  obtain ⟨raw, -, rfl⟩ := Option.map_eq_some_iff.1 h
  simp only [Option.map_map, Function.comp_def, caseMap.lower_lower]

theorem reviewHeadSha_results (h : result ∈ ledger.results caseMap comments) :
    result.reviewHeadSha.map caseMap.lower = result.reviewHeadSha := by
  obtain ⟨hparsed, -⟩ := mem_filter.1 h
  obtain ⟨body, -, hparse⟩ := mem_filterMap.1 hparsed
  unfold parse at hparse
  obtain ⟨text, -, hjson⟩ := Option.bind_eq_some_iff.1 hparse
  obtain ⟨value, -, hvalue⟩ := Option.bind_eq_some_iff.1 hjson
  exact reviewHeadSha_ofJson hvalue

theorem apply_normal (hsha : result.reviewHeadSha.map caseMap.lower = result.reviewHeadSha) (phase : PhaseLedgerPhase) :
    (normal caseMap phase).apply result = normal caseMap (phase.apply result) := by
  unfold apply
  have hstale : (normal caseMap phase).isStale result = phase.isStale result := rfl
  rw [hstale]
  split
  · rfl
  · unfold normal write
    dsimp only
    split
    · rw [hsha]
    · rfl

theorem sweep_normal (hsha : ∀ result ∈ results, result.reviewHeadSha.map caseMap.lower = result.reviewHeadSha)
    (phase : PhaseLedgerPhase) : (normal caseMap phase).sweep results = normal caseMap (phase.sweep results) := by
  induction results generalizing phase with
  | nil => rfl
  | cons result results ih =>
    change ((normal caseMap phase).apply result).sweep results = _
    rw [apply_normal (hsha result mem_cons_self), ih fun r hr => hsha r (mem_cons_of_mem _ hr)]
    rfl

theorem changeById_ids {id : String} {f : PhaseLedgerPhase → PhaseLedgerPhase} (hf : ∀ phase, (f phase).id = phase.id)
    (phases : List PhaseLedgerPhase) : (changeById id f phases).map (·.id) = phases.map (·.id) := by
  induction phases with
  | nil => rfl
  | cons phase phases ih =>
    unfold changeById
    split
    · simp [hf]
    · simp [ih]

theorem nodup_of_reconcile (h : reconcile caseMap ledger comments = .ok ledger') : (ledger.phases.map (·.id)).Nodup := by
  have hids : ∀ (results : List PhaseResultComment) (phases : List PhaseLedgerPhase),
      (results.foldl (fun phases result => changeById result.phaseId (fun phase => phase.apply result) phases) phases).map
        (·.id) = phases.map (·.id) := by
    intro results
    induction results with
    | nil => exact fun _ => rfl
    | cons result results ih =>
      intro phases
      rw [foldl_cons, ih, changeById_ids fun phase => apply_id phase result]
  unfold reconcile at h
  exact hids _ _ ▸ (validate_eq_ok h).2

/-- A sweep of the comments on the ledger that a sweep of them made gives it again exactly when every
field that is still written was settled by the comments of its phase. -/
theorem reconcile_reconcile (caseMap : CaseMap) (ledger : PhaseLedger) (comments : List String) (ledger' : PhaseLedger)
    (h : reconcile caseMap ledger comments = .ok ledger') : reconcile caseMap ledger' comments = .ok ledger' ↔
      ∀ phase ∈ ledger.phases, ReplaySafe phase.reviewAttempts (about caseMap ledger comments phase.id) := by
  have hnodup := nodup_of_reconcile h
  rw [reconcile_eq hnodup] at h
  obtain ⟨rfl, -⟩ := validate_eq_ok h
  -- a phase after one sweep, and after two
  let once (phase : PhaseLedgerPhase) := (normal caseMap phase).sweep (about caseMap ledger comments phase.id)
  let twice (phase : PhaseLedgerPhase) := (once phase).sweep (about caseMap ledger comments phase.id)
  have hsha : ∀ id, ∀ result ∈ about caseMap ledger comments id,
      result.reviewHeadSha.map caseMap.lower = result.reviewHeadSha := fun id result hresult =>
    reviewHeadSha_results (mem_of_mem_filter hresult)
  have honce : ∀ phase, once phase = normal caseMap (phase.sweep (about caseMap ledger comments phase.id)) :=
    fun phase => sweep_normal (hsha phase.id) phase
  have hid : ∀ phase, (once phase).id = phase.id := fun phase => (sweep_frame _ _).1
  have htwice : ∀ phase, normal caseMap (twice phase) = twice phase := by
    intro phase
    simp only [twice, honce]
    rw [sweep_normal (hsha phase.id), normal_normal]
  have hphases : (ledger.phases.map fun phase => phase.sweep (about caseMap ledger comments phase.id)).map (normal caseMap) =
      ledger.phases.map once := by
    rw [map_map]
    exact map_congr_left fun phase _ => (honce phase).symm
  rw [hphases] at h ⊢
  have hsecond : reconcile caseMap { ledger with phases := ledger.phases.map once } comments =
      validate caseMap { ledger with phases := ledger.phases.map twice } := by
    rw [reconcile_eq]
    · simp only [map_map]
      congr 2
      refine map_congr_left fun phase _ => ?_
      simp only [Function.comp_apply, hid]
      rfl
    · simpa [map_map, Function.comp_def, hid] using hnodup
  rw [hsecond]
  constructor
  · intro hok phase hphase
    have heq := congrArg PhaseLedger.phases (validate_eq_ok hok).1
    simp only [map_map] at heq
    have hsame : once phase = twice phase := (map_inj_left.1 heq phase hphase).trans (htwice phase)
    exact (sweep_sweep (normal caseMap phase) _).1 hsame.symm
  · intro hsafe
    have hsame : ledger.phases.map twice = ledger.phases.map once :=
      map_congr_left fun phase hphase => (sweep_sweep (normal caseMap phase) _).2 (hsafe phase hphase)
    rw [hsame, ← hphases]
    refine (validate_normal caseMap ledger _).trans ?_
    rw [hphases]
    exact h

def phaseOne (prNumber : Option ℕ) (reviewVerdict : Option ReviewVerdict)
    (reviewAttempts : Option ℕ) (reviewHeadSha : Option String) : PhaseLedgerPhase :=
  ⟨⟨"P1", prNumber, none⟩, [], none, none, none, reviewVerdict, none, none, reviewAttempts, reviewHeadSha, none⟩

/-- A ledger of one phase. -/
def ledgerOf (phase : PhaseLedgerPhase) : PhaseLedger := ⟨"chain", "owner/repo", 7, [phase], none, none⟩

def unstarted : PhaseLedger := ledgerOf (phaseOne none none none none)

/-- The text of a phase result with these further members. -/
def comment (members : String) : String :=
  "<!-- kookr-phase-result \x7b\"version\":1,\"chainId\":\"chain\",\"issueNumber\":7,\"phaseId\":\"P1\"," ++ members ++
    "\x7d -->"

def written (prNumber : Option ℕ) (reviewVerdict : Option ReviewVerdict) (reviewAttempts : Option ℕ)
    (reviewHeadSha : Option String) : PhaseResultComment :=
  ⟨"chain", 7, "P1", prNumber, none, none, none, none, reviewVerdict, none, none, reviewAttempts, reviewHeadSha, none⟩

def opened : String := comment "\"prNumber\":5,\"reviewAttempts\":2"

/-- An owner comment without an attempt. -/
def legacy : String := comment "\"prNumber\":6"

def verdict : String := comment "\"reviewVerdict\":\"pass\",\"reviewHeadSha\":\"AB\",\"reviewAttempts\":2"

theorem parse_opened : parse .ascii opened = some (written (some 5) none (some 2) none) := by
  decide +kernel

theorem parse_legacy : parse .ascii legacy = some (written (some 6) none none none) := by decide +kernel

theorem parse_verdict : parse .ascii verdict = some (written none (some .pass) (some 2) (some "ab")) := by
  decide +kernel

theorem results_reviewed (phase : PhaseLedgerPhase) : (ledgerOf phase).results .ascii [opened, verdict] =
    [written (some 5) none (some 2) none, written none (some .pass) (some 2) (some "ab")] := by
  simp [results, parse_opened, parse_verdict, ledgerOf, written]

theorem results_crossed (phase : PhaseLedgerPhase) : (ledgerOf phase).results .ascii [opened, legacy, verdict] =
    [written (some 5) none (some 2) none, written (some 6) none none none, written none (some .pass) (some 2) (some "ab")] := by
  simp [results, parse_opened, parse_legacy, parse_verdict, ledgerOf, written]

def passed (prNumber : ℕ) : PhaseLedger := ledgerOf (phaseOne (some prNumber) (some .pass) (some 2) (some "ab"))

theorem reconcile_passed : reconcile .ascii (passed 5) [opened, verdict] = .ok (passed 5) := by
  refine (reconcile_reconcile .ascii unstarted [opened, verdict] (passed 5) ?_).2 ?_
  · unfold reconcile unstarted
    rw [results_reviewed]
    decide +kernel
  · unfold about unstarted
    rw [results_reviewed]
    decide +kernel

theorem replay_changes : ¬ ∀ caseMap ledger comments ledger', validate caseMap ledger = .ok ledger →
    reconcile caseMap ledger comments = .ok ledger' → reconcile caseMap ledger' comments = .ok ledger' := by
  intro h
  have hfirst : reconcile .ascii unstarted [opened, legacy, verdict] = .ok (passed 6) := by
    unfold reconcile unstarted
    rw [results_crossed]
    decide +kernel
  have hsecond : reconcile .ascii (passed 6) [opened, legacy, verdict] = .ok (passed 5) := by
    unfold reconcile passed
    rw [results_crossed]
    decide +kernel
  have hsame := h .ascii unstarted [opened, legacy, verdict] (passed 6) (by decide +kernel) hfirst
  rw [hsecond] at hsame
  exact absurd hsame (by decide)

/-- A comment without the generation, or with an earlier one than a second attempt, is skipped. -/
theorem staleAt_superseded {n : ℕ} (hn : 2 ≤ n) (hearlier : ∀ attempts, result.reviewAttempts = some attempts → attempts < n) :
    staleAt (some n) result = true := by
  unfold staleAt
  cases hattempts : result.reviewAttempts with
  | some attempts => simp [hearlier attempts hattempts]
  | none =>
    have hfirst : 1 < n := by omega
    cases result.reviewVerdict <;> simp [hfirst]

theorem sweep_superseded {n : ℕ} (hn : 2 ≤ n) (hphase : phase.reviewAttempts = some n)
    (hearlier : ∀ result ∈ results, ∀ attempts, result.reviewAttempts = some attempts → attempts < n) : phase.sweep results = phase := by
  induction results with
  | nil => rfl
  | cons result results ih =>
    change (phase.apply result).sweep results = phase
    rw [apply_eq, hphase, if_pos (staleAt_superseded hn (hearlier result mem_cons_self))]
    exact ih fun r hr => hearlier r (mem_cons_of_mem _ hr)

theorem sweep_reviewIterationCap_le {cap : ℕ} (hcap : phase.reviewIterationCap = some cap) (results : List PhaseResultComment) :
    ∃ cap', (phase.sweep results).reviewIterationCap = some cap' ∧ cap' ≤ cap := by
  induction results generalizing phase cap with
  | nil => exact ⟨cap, hcap, le_rfl⟩
  | cons result results ih =>
    obtain ⟨next, hnext, hle⟩ : ∃ next, (phase.apply result).reviewIterationCap = some next ∧ next ≤ cap := by
      unfold apply
      split
      · exact ⟨cap, hcap, le_rfl⟩
      · cases hresult : result.reviewIterationCap with
        | none => exact ⟨cap, by simp [write, hresult, hcap], le_rfl⟩
        | some other => exact ⟨min cap other, by simp [write, hresult, hcap], min_le_left _ _⟩
    obtain ⟨cap', hcap', hle'⟩ := ih hnext
    exact ⟨cap', hcap', hle'.trans hle⟩

/-- Of a phase of a ledger that is valid, the comments of earlier generations change nothing, and no comment lowers the
generation or raises the cap. -/
theorem superseded_stays_away (caseMap : CaseMap) (ledger valid ledger' : PhaseLedger) (comments : List String)
    (hvalid : validate caseMap ledger = .ok valid) (phase : PhaseLedgerPhase) (hmem : phase ∈ valid.phases) (n : ℕ) (hn : 2 ≤ n)
    (hattempts : phase.reviewAttempts = some n) (h : reconcile caseMap ledger comments = .ok ledger') :
    ∃ phase' ∈ ledger'.phases, phase'.id = phase.id ∧ (∀ other ∈ ledger'.phases, other.id = phase.id → other = phase') ∧
      ((∀ result ∈ ledger.results caseMap comments, result.phaseId = phase.id →
        ∀ attempts, result.reviewAttempts = some attempts → attempts < n) → phase' = phase) ∧ n ≤ phase'.reviewAttempts.getD 0 ∧
      ∀ cap, phase.reviewIterationCap = some cap → ∃ cap', phase'.reviewIterationCap = some cap' ∧ cap' ≤ cap := by
  rw [reconcile_eq (nodup_of_reconcile h)] at h
  obtain ⟨heq, -⟩ := validate_eq_ok h
  have hnodup := (validate_checked h).2.2
  obtain ⟨rfl, -⟩ := validate_eq_ok hvalid
  obtain ⟨raw, hraw, rfl⟩ := mem_map.1 hmem
  have hafter : normal caseMap (raw.sweep (about caseMap ledger comments raw.id)) =
      (normal caseMap raw).sweep (about caseMap ledger comments raw.id) :=
    (sweep_normal (fun result hresult => reviewHeadSha_results (mem_of_mem_filter hresult)) raw).symm
  have hmem' : (normal caseMap raw).sweep (about caseMap ledger comments raw.id) ∈ ledger'.phases := by
    rw [heq, ← hafter]
    exact mem_map_of_mem (mem_map_of_mem hraw)
  refine ⟨_, hmem', (sweep_frame _ _).1, fun other hother hid => ?_, fun hearlier => ?_, ?_, fun cap hcap => ?_⟩
  · exact inj_on_of_nodup_map hnodup hother hmem' (hid.trans (sweep_frame _ _).1.symm)
  · refine sweep_superseded hn hattempts fun result hresult => ?_
    obtain ⟨hresult, hid⟩ := mem_filter.1 hresult
    exact hearlier result hresult (of_decide_eq_true hid)
  · have hupto := (upto_generationAfter (normal caseMap raw).reviewAttempts (about caseMap ledger comments raw.id)).1
    rw [← sweep_reviewAttempts, hattempts] at hupto
    exact hupto
  · exact sweep_reviewIterationCap_le hcap _

theorem superseded_stays_away_legacy : ∃ phase' ∈ (passed 5).phases, phase'.id = "P1" ∧ phase'.prNumber = some 5 := by
  have hreconcile : reconcile .ascii (passed 5) [legacy] = .ok (passed 5) := by
    unfold reconcile passed
    simp only [results, filterMap_cons, parse_legacy, filterMap_nil]
    decide +kernel
  obtain ⟨phase', hmem, hid, -, hsame, -⟩ := superseded_stays_away .ascii (passed 5) (passed 5) (passed 5) [legacy] (by decide +kernel)
    (phaseOne (some 5) (some .pass) (some 2) (some "ab")) mem_cons_self 2 le_rfl rfl hreconcile
  refine ⟨phase', hmem, hid, ?_⟩
  rw [hsame]
  · rfl
  · intro result hresult _ attempts hattempts
    simp only [results, filterMap_cons, parse_legacy, filterMap_nil] at hresult
    obtain rfl := mem_singleton.1 (mem_of_mem_filter hresult)
    cases hattempts

/-- A phase goes forward: its place in the chain stays, its generation only rises, its cap only falls, and what is on record
of its pull request, owner, merge and review is at most replaced. -/
structure Advances (phase phase' : PhaseLedgerPhase) : Prop where
  frame : phase'.id = phase.id ∧ phase'.dependsOn = phase.dependsOn
  generation : Upto phase.reviewAttempts phase'.reviewAttempts
  cap : ∀ cap, phase.reviewIterationCap = some cap → ∃ cap', phase'.reviewIterationCap = some cap' ∧ cap' ≤ cap
  recorded : (phase.prNumber.isSome → phase'.prNumber.isSome) ∧ (phase.taskId.isSome → phase'.taskId.isSome) ∧
    (phase.mergedAt.isSome → phase'.mergedAt.isSome) ∧ (phase.reviewVerdict.isSome → phase'.reviewVerdict.isSome)

theorem Advances.refl (phase : PhaseLedgerPhase) : Advances phase phase :=
  ⟨⟨rfl, rfl⟩, .refl _, fun cap hcap => ⟨cap, hcap, le_rfl⟩, id, id, id, id⟩

theorem Advances.trans {a b c : PhaseLedgerPhase} (h : Advances a b) (h' : Advances b c) : Advances a c := by
  refine ⟨⟨h'.frame.1.trans h.frame.1, h'.frame.2.trans h.frame.2⟩, h.generation.trans h'.generation, fun cap hcap => ?_, ?_⟩
  · obtain ⟨cap', hcap', hle⟩ := h.cap cap hcap
    obtain ⟨cap'', hcap'', hle'⟩ := h'.cap cap' hcap'
    exact ⟨cap'', hcap'', hle'.trans hle⟩
  · obtain ⟨hpr, htask, hmerged, hverdict⟩ := h.recorded
    obtain ⟨hpr', htask', hmerged', hverdict'⟩ := h'.recorded
    exact ⟨hpr' ∘ hpr, htask' ∘ htask, hmerged' ∘ hmerged, hverdict' ∘ hverdict⟩

theorem advances_sweep (phase : PhaseLedgerPhase) (results : List PhaseResultComment) : Advances phase (phase.sweep results) := by
  refine ⟨sweep_frame phase results, ?_, fun cap hcap => sweep_reviewIterationCap_le hcap results, ?_⟩
  · rw [sweep_reviewAttempts]
    exact upto_generationAfter _ results
  · rw [sweep_eq_taken]
    generalize taken phase.reviewAttempts results = written
    induction written generalizing phase with
    | nil => exact ⟨id, id, id, id⟩
    | cons result written ih =>
      obtain ⟨hpr, htask, hmerged, hverdict⟩ := ih (phase.write result)
      refine ⟨hpr ∘ ?_, htask ∘ ?_, hmerged ∘ ?_, hverdict ∘ ?_⟩ <;> intro hsome <;> simp [write, hsome]

theorem validate_validate {raw : PhaseLedger} (h : validate caseMap raw = .ok ledger) : validate caseMap ledger = .ok ledger := by
  have heq := (validate_eq_ok h).1
  rw [heq, validate_normal, h, heq]

/-- However often comments are swept into a ledger that is valid, what comes out is valid, has the phases of the ledger in
their order and nothing else changed, and every phase has only gone forward. -/
theorem sweeps_advance (caseMap : CaseMap) (raw ledger ledger' : PhaseLedger) (sweeps : List (List String))
    (hvalid : validate caseMap raw = .ok ledger) (h : sweeps.foldlM (reconcile caseMap) ledger = .ok ledger') :
    validate caseMap ledger' = .ok ledger' ∧
      ∃ f, ledger' = { ledger with phases := ledger.phases.map f } ∧ ∀ phase, Advances phase (f phase) := by
  have hstart := validate_validate hvalid
  clear hvalid
  induction sweeps generalizing ledger with
  | nil =>
    obtain rfl := Except.ok.inj h
    exact ⟨hstart, id, by rw [map_id], .refl⟩
  | cons comments sweeps ih =>
    obtain ⟨next, hnext, hrest⟩ := bind_eq_ok.1 h
    have hnormal := hnext
    rw [reconcile_eq (nodup_of_reconcile hnext)] at hnormal
    obtain ⟨hvalid', f, rfl, hf⟩ := ih next hrest (validate_validate hnormal)
    let once (phase : PhaseLedgerPhase) := normal caseMap (phase.sweep (about caseMap ledger comments phase.id))
    have honce : ∀ phase, Advances phase (once phase) := fun phase =>
      let h := advances_sweep phase (about caseMap ledger comments phase.id)
      ⟨h.frame, h.generation, h.cap, h.recorded⟩
    refine ⟨hvalid', f ∘ once, ?_, fun phase => (honce phase).trans (hf _)⟩
    rw [(validate_eq_ok hnormal).1, map_map, map_map]
    rfl

theorem sweeps_advance_twice : validate .ascii (passed 5) = .ok (passed 5) := by
  have hreconcile : reconcile .ascii (passed 5) [legacy] = .ok (passed 5) := by
    unfold reconcile passed
    simp only [results, filterMap_cons, parse_legacy, filterMap_nil]
    decide +kernel
  refine (sweeps_advance .ascii (passed 5) (passed 5) (passed 5) [[legacy], [legacy]] (by decide +kernel) ?_).1
  exact bind_eq_ok.2 ⟨_, hreconcile, bind_eq_ok.2 ⟨_, hreconcile, rfl⟩⟩

end Kookr.Core
