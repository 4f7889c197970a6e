import Kookr.Lib.History
import Kookr.Sanity.Core.LedgerCheck

/-! A sweep of the comments about one phase. Which comments are let through depends on the review
generation alone, which only grows; what is left in a field is what the last comment that was let
through and has the field wrote. -/

namespace Kookr.Core

open Kookr.Lib List

variable {generation generation' : Option ℕ} {result : PhaseResultComment} {results : List PhaseResultComment}
  {phase : PhaseLedgerPhase} {β : Type}

namespace PhaseResultComment

/-- The comment is skipped at this generation. -/
def staleAt (generation : Option ℕ) (result : PhaseResultComment) : Bool :=
  (result.reviewAttempts.any fun attempts => attempts < generation.getD 0) ||
    (result.reviewVerdict.isSome && result.reviewAttempts.getD 1 < generation.getD 0) ||
    (result.reviewVerdict.isNone && generation.isSome && result.reviewAttempts.isNone)

/-- A verdict raises the generation to its own. -/
def raise (generation : Option ℕ) (result : PhaseResultComment) : Option ℕ :=
  if result.reviewVerdict.isSome then some (max (generation.getD 0) (result.reviewAttempts.getD 1)) else generation

/-- The generation after all of the comments: the highest of a verdict. -/
def generationAfter (generation : Option ℕ) (results : List PhaseResultComment) : Option ℕ := results.foldl raise generation

/-- The comments a sweep lets through. -/
def taken (generation : Option ℕ) : List PhaseResultComment → List PhaseResultComment
  | [] => []
  | result :: results =>
    if staleAt generation result then taken (raise generation result) results
    else result :: taken (raise generation result) results

/-- The comments that are let through at the generation the sweep ends with. -/
def current (generation : Option ℕ) (results : List PhaseResultComment) : List PhaseResultComment :=
  results.filter fun result => !staleAt (generationAfter generation results) result

/-- No generation comes before the first one. -/
def Upto (generation generation' : Option ℕ) : Prop :=
  generation.getD 0 ≤ generation'.getD 0 ∧ (generation.isSome → generation'.isSome)

theorem Upto.refl (generation : Option ℕ) : Upto generation generation := ⟨le_rfl, id⟩

theorem Upto.trans {generation'' : Option ℕ} (h : Upto generation generation') (h' : Upto generation' generation'') :
    Upto generation generation'' := ⟨h.1.trans h'.1, fun hsome => h'.2 (h.2 hsome)⟩

theorem upto_raise (generation : Option ℕ) (result : PhaseResultComment) : Upto generation (raise generation result) := by
  unfold raise
  split
  · exact ⟨le_max_left _ _, fun _ => rfl⟩
  · exact .refl generation

theorem upto_generationAfter (generation : Option ℕ) (results : List PhaseResultComment) :
    Upto generation (generationAfter generation results) := by
  induction results generalizing generation with
  | nil => exact .refl generation
  | cons result results ih => exact (upto_raise generation result).trans (ih _)

theorem staleAt_mono (h : Upto generation generation') (hstale : staleAt generation result = true) :
    staleAt generation' result = true := by
  obtain ⟨hle, hsome⟩ := h
  simp only [staleAt, Bool.or_eq_true, Bool.and_eq_true, decide_eq_true_eq, Option.any_eq_true] at hstale ⊢
  rcases hstale with (⟨attempts, hattempts, hlt⟩ | ⟨hverdict, hlt⟩) | ⟨⟨hverdict, hgeneration⟩, hnone⟩
  · exact .inl (.inl ⟨attempts, hattempts, hlt.trans_le hle⟩)
  · exact .inl (.inr ⟨hverdict, hlt.trans_le hle⟩)
  · exact .inr ⟨⟨hverdict, hsome hgeneration⟩, hnone⟩

theorem raise_of_stale (h : staleAt generation result = true) : raise generation result = generation := by
  unfold raise
  split
  · rename_i hverdict
    have hlt : result.reviewAttempts.getD 1 < generation.getD 0 := by
      simp only [staleAt, Bool.or_eq_true, Bool.and_eq_true, decide_eq_true_eq, Option.any_eq_true] at h
      rcases h with (⟨attempts, hattempts, hlt⟩ | ⟨-, hlt⟩) | ⟨⟨hnone, -⟩, -⟩
      · simpa [hattempts] using hlt
      · exact hlt
      · simp [Option.isNone_iff_eq_none.1 hnone] at hverdict
    cases generation with
    | none => simp at hlt
    | some n =>
      simp only [Option.getD_some] at hlt ⊢
      rw [max_eq_left hlt.le]
  · rfl

theorem raise_generationAfter (generation : Option ℕ) (hmem : result ∈ results) :
    raise (generationAfter generation results) result = generationAfter generation results := by
  induction results generalizing generation with
  | nil => simp at hmem
  | cons first results ih =>
    rcases mem_cons.1 hmem with rfl | hrest
    · have hupto := upto_generationAfter (raise generation result) results
      change raise (generationAfter (raise generation result) results) result = generationAfter (raise generation result) results
      by_cases hverdict : result.reviewVerdict.isSome = true
      · have hraise : raise generation result = some (max (generation.getD 0) (result.reviewAttempts.getD 1)) := if_pos hverdict
        rw [hraise] at hupto ⊢
        obtain ⟨n, hn⟩ := Option.isSome_iff_exists.1 (hupto.2 rfl)
        rw [hn] at hupto ⊢
        have hle : result.reviewAttempts.getD 1 ≤ n := (le_max_right _ _).trans hupto.1
        simp [raise, hverdict, hle]
      · simp [raise, hverdict]
    · exact ih (raise generation first) hrest

theorem generationAfter_fixed {results' : List PhaseResultComment} (hsub : ∀ result ∈ results', result ∈ results) :
    generationAfter (generationAfter generation results) results' = generationAfter generation results := by
  induction results' with
  | nil => rfl
  | cons result results' ih =>
    change generationAfter (raise (generationAfter generation results) result) results' = _
    rw [raise_generationAfter generation (hsub result mem_cons_self)]
    exact ih fun r hr => hsub r (mem_cons_of_mem _ hr)

theorem mem_taken_of_current (h : result ∈ current generation results) : result ∈ taken generation results := by
  obtain ⟨hmem, hcurrent⟩ := mem_filter.1 h
  clear h
  induction results generalizing generation with
  | nil => exact hmem
  | cons first results ih =>
    have hnot : ∀ g, Upto g (generationAfter generation (first :: results)) → staleAt g result = false := by
      intro g hg
      rw [Bool.eq_false_iff]
      intro hstale
      simp [staleAt_mono hg hstale] at hcurrent
    unfold taken
    rcases mem_cons.1 hmem with rfl | hrest
    · rw [if_neg (by simp [hnot generation (upto_generationAfter _ _)])]
      exact mem_cons_self
    · have htail : result ∈ taken (raise generation first) results := ih hrest hcurrent
      split
      · exact htail
      · exact mem_cons_of_mem _ htail

end PhaseResultComment

open PhaseResultComment

namespace PhaseLedgerPhase

/-- All comments about the phase, in their order. -/
def sweep (phase : PhaseLedgerPhase) (results : List PhaseResultComment) : PhaseLedgerPhase := results.foldl apply phase

theorem apply_eq (phase : PhaseLedgerPhase) (result : PhaseResultComment) :
    phase.apply result = if staleAt phase.reviewAttempts result then phase else phase.write result := rfl

@[simp] theorem apply_id (phase : PhaseLedgerPhase) (result : PhaseResultComment) : (phase.apply result).id = phase.id := by
  unfold apply
  split <;> rfl

theorem apply_reviewAttempts (phase : PhaseLedgerPhase) (result : PhaseResultComment) :
    (phase.apply result).reviewAttempts = raise phase.reviewAttempts result := by
  rw [apply_eq]
  split
  · rename_i hstale
    exact (raise_of_stale hstale).symm
  · rfl

theorem sweep_reviewAttempts (phase : PhaseLedgerPhase) (results : List PhaseResultComment) :
    (phase.sweep results).reviewAttempts = generationAfter phase.reviewAttempts results := by
  induction results generalizing phase with
  | nil => rfl
  | cons result results ih =>
    change ((phase.apply result).sweep results).reviewAttempts = _
    rw [ih, apply_reviewAttempts]
    rfl

theorem sweep_eq_taken (phase : PhaseLedgerPhase) (results : List PhaseResultComment) :
    phase.sweep results = (taken phase.reviewAttempts results).foldl write phase := by
  induction results generalizing phase with
  | nil => rfl
  | cons result results ih =>
    change (phase.apply result).sweep results = _
    rw [ih, apply_reviewAttempts, apply_eq, taken]
    split <;> rfl

/-- With the generation at its end, a sweep writes what is current. -/
theorem sweep_eq_current {results' : List PhaseResultComment} (hattempts : phase.reviewAttempts = generationAfter generation results)
    (hsub : ∀ result ∈ results', result ∈ results) : phase.sweep results' =
      (results'.filter fun result => !staleAt (generationAfter generation results) result).foldl write phase := by
  induction results' generalizing phase with
  | nil => rfl
  | cons result results' ih =>
    have hraise : (phase.apply result).reviewAttempts = generationAfter generation results := by
      rw [apply_reviewAttempts, hattempts]
      exact raise_generationAfter generation (hsub result mem_cons_self)
    change (phase.apply result).sweep results' = _
    rw [ih hraise fun r hr => hsub r (mem_cons_of_mem _ hr), apply_eq, hattempts, filter_cons]
    cases staleAt (generationAfter generation results) result <;> rfl

/-- A field that a comment writes when it has it is left as the last such comment wrote it. -/
theorem foldl_write_field {field : PhaseLedgerPhase → Option β} {f : PhaseResultComment → Option β}
    (hfield : ∀ phase result, field (write phase result) = (f result).or (field phase)) (phase : PhaseLedgerPhase)
    (results : List PhaseResultComment) : field (results.foldl write phase) = (lastOf f results).or (field phase) := by
  induction results using reverseRecOn with
  | nil => rfl
  | append_singleton results result ih => rw [foldl_append, foldl_cons, foldl_nil, hfield, ih, lastOf_concat,
      Option.or_assoc]

theorem lastOf_ne_none {f : PhaseResultComment → Option β} (hmem : result ∈ results) (hf : f result ≠ none) :
    lastOf f results ≠ none := by
  induction results using reverseRecOn with
  | nil => simp at hmem
  | append_singleton results last ih =>
    rw [lastOf_concat]
    rcases mem_append.1 hmem with hbefore | hlast
    · have := ih hbefore
      cases f last <;> simp [this]
    · obtain rfl := mem_singleton.1 hlast
      cases hr : f result with
      | none => exact absurd hr hf
      | some _ => simp

end PhaseLedgerPhase

end Kookr.Core
