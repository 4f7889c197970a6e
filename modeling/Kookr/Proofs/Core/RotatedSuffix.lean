import Kookr.Spec.Core.JsonlRotation
import Mathlib.Algebra.Order.BigOperators.Group.List

/-! The generations of a log hold the end of what was appended to it, wherever a rotation has stopped. -/

namespace Kookr.Core

open Function List

/-- A log, and what was appended to it. -/
structure LogRun where
  files : LogFiles
  appended : List String

/-- What is read from a generation down to the live file. -/
def LogFiles.survivors (files : LogFiles) : ℕ → List String
  | 0 => (files 0).getD []
  | generation + 1 => (files (generation + 1)).getD [] ++ files.survivors generation

namespace LogRun

def new : LogRun := ⟨fun _ => none, []⟩

/-- A call of which only so many operations are done: the process ends, or an operation fails. -/
def call (options : JsonlRotationOptions) (log : LogRun) (c : String × ℕ) : LogRun where
  files := ((appendJsonlWithRotation options log.files c.1).take c.2).foldl .apply log.files
  appended := if (appendJsonlWithRotation options log.files c.1).length ≤ c.2 then log.appended ++ [c.1] else log.appended

/-- The surviving files are the end of the log, a live file that is too large holds one text that is not empty, and a whole rotation
drops the oldest generation and nothing else. -/
structure KeepsSuffix (options : JsonlRotationOptions) (log : LogRun) : Prop where
  suffix : log.files.survivors options.generations <:+ log.appended
  none_above : ∀ generation > options.generations, log.files generation = none
  live : ∀ file ∈ log.files 0, options.maxSize < LogFiles.byteLength file → (file.filter (· ≠ "")).length ≤ 1
  drops : log.files.survivors options.generations = (log.files options.generations).getD [] ++
    ((rotateJsonl options.generations).foldl .apply log.files).survivors options.generations

end LogRun

namespace LogFiles

variable {files files' : LogFiles} {k n : ℕ}

theorem survivors_congr (h : ∀ i ≤ k, files i = files' i) : files.survivors k = files'.survivors k := by
  induction k with
  | zero => rw [survivors, survivors, h 0 (Nat.le_refl 0)]
  | succ k ih => rw [survivors, survivors, h (k + 1) (Nat.le_refl _), ih fun i hi => h i (Nat.le_succ_of_le hi)]

theorem apply_rename (hfree : files (n + 1) = none) (i : ℕ) :
    files.apply (.rename n) i = if i = n then none else if i = n + 1 then files n else files i := by
  unfold apply
  cases hfile : files n with
  | none | some file => split_ifs <;> simp_all

theorem survivors_rename (hfree : files (n + 1) = none) (hn : n < k) : (files.apply (.rename n)).survivors k = files.survivors k := by
  induction k with
  | zero => cases hn
  | succ k ih =>
    rw [survivors, survivors]
    rcases Nat.lt_succ_iff_lt_or_eq.1 hn with hlt | rfl
    · rw [ih hlt, apply_rename hfree, if_neg (by omega), if_neg (by omega)]
    · rw [apply_rename hfree, if_neg (by omega), if_pos rfl, hfree, Option.getD_none, nil_append]
      cases n with
      | zero => rw [survivors, survivors, apply_rename hfree, if_pos rfl, Option.getD_none, append_nil]
      | succ n =>
        rw [survivors, apply_rename hfree, if_pos rfl, Option.getD_none]
        refine congrArg _ (survivors_congr fun i hi => ?_)
        rw [apply_rename hfree, if_neg (by omega), if_neg (by omega)]

theorem renames (files : LogFiles) (hfree : files n = none) (hn : n ≤ k) (stop : ℕ) :
    let moved := ((((range n).reverse.map .rename).take stop).foldl .apply files : LogFiles)
    moved.survivors k = files.survivors k ∧ (∀ i > n, moved i = files i) ∧ (moved 0 = none ∨ moved 0 = files 0) ∧ (n ≤ stop → moved 0 = none) := by
  induction n generalizing files stop with
  | zero => exact ⟨by simp, by simp, .inr (by simp), fun _ => by simpa using hfree⟩
  | succ n ih =>
    rw [range_succ, reverse_append, reverse_singleton, singleton_append, map_cons]
    cases stop with
    | zero => exact ⟨rfl, fun _ _ => rfl, .inr rfl, nofun⟩
    | succ stop =>
      rw [take_succ_cons, foldl_cons]
      obtain ⟨hsurvivors, hsame, hlive, hall⟩ := ih (files.apply (.rename n)) (by rw [apply_rename hfree, if_pos rfl]) (Nat.le_of_succ_le hn) stop
      refine ⟨hsurvivors.trans (survivors_rename hfree hn), fun i hi => ?_, ?_, fun hstop => hall (Nat.le_of_succ_le_succ hstop)⟩
      · rw [hsame i (by omega), apply_rename hfree, if_neg (by omega), if_neg (by omega)]
      · rcases hlive with hnone | hkept
        · exact .inl hnone
        · rw [hkept, apply_rename hfree]
          split
          · exact .inl rfl
          · rw [if_neg (by omega)]
            exact .inr rfl

theorem survivors_unlink (hk : 0 < k) : files.survivors k = (files k).getD [] ++ (files.apply (.unlink k)).survivors k := by
  cases k with
  | zero => cases hk
  | succ k =>
    rw [survivors, survivors]
    have hbelow : (files.apply (.unlink (k + 1))).survivors k = files.survivors k := survivors_congr fun i hi => update_of_ne (by omega) _ _
    rw [hbelow]
    simp [apply]

theorem rotation (files : LogFiles) (hk : 0 < k) (stop : ℕ) :
    let moved := (((rotateJsonl k).take stop).foldl .apply files : LogFiles)
    moved.survivors k <:+ files.survivors k ∧ (∀ i > k, moved i = files i) ∧ (moved 0 = none ∨ moved 0 = files 0) ∧
      (k < stop → moved 0 = none ∧ files.survivors k = (files k).getD [] ++ moved.survivors k) := by
  cases stop with
  | zero => exact ⟨suffix_refl _, fun _ _ => rfl, .inr rfl, nofun⟩
  | succ stop =>
    unfold rotateJsonl
    rw [take_succ_cons, foldl_cons]
    obtain ⟨hsurvivors, hsame, hlive, hall⟩ := renames (files.apply (.unlink k)) (update_self ..) (Nat.le_refl k) stop
    refine ⟨?_, fun i hi => (hsame i hi).trans (update_of_ne (by omega) _ _), hlive.imp_right fun hkept => hkept.trans (update_of_ne (by omega) _ _),
      fun hstop => ⟨hall (by omega), ?_⟩⟩
    · rw [hsurvivors]
      exact ⟨_, (survivors_unlink hk).symm⟩
    · rw [hsurvivors]
      exact survivors_unlink hk

theorem survivors_appendFile (lines : String) : (files.apply (.appendFile lines)).survivors k = files.survivors k ++ [lines] := by
  induction k with
  | zero => simp [survivors, apply]
  | succ k ih => rw [survivors, survivors, ih, append_assoc, apply, update_of_ne (by omega)]

theorem byteLength_append (file : List String) (lines : String) : byteLength (file ++ [lines]) = byteLength file + lines.utf8ByteSize := by
  simp [byteLength]

theorem filter_eq_nil_of_byteLength {file : List String} (h : byteLength file = 0) : file.filter (· ≠ "") = [] := by
  unfold byteLength at h
  simpa [List.sum_eq_zero_iff] using h

end LogFiles

namespace LogRun

variable {options : JsonlRotationOptions} {log : LogRun}

theorem generations_pos : 0 < options.generations := by
  unfold JsonlRotationOptions.generations
  omega

theorem drops_oldest (files : LogFiles) : files.survivors options.generations = (files options.generations).getD [] ++
    ((rotateJsonl options.generations).foldl .apply files : LogFiles).survivors options.generations := by
  have hwhole := (LogFiles.rotation files generations_pos (options.generations + 1)).2.2.2 (Nat.lt_succ_self _)
  rw [take_of_length_le (by simp [rotateJsonl])] at hwhole
  exact hwhole.2

theorem keepsSuffix_call (h : log.KeepsSuffix options) (lines : String) (stop : ℕ) : (log.call options (lines, stop)).KeepsSuffix options := by
  obtain ⟨hsuffix, habove, hlive, -⟩ := h
  -- what the appended text does to files that end a log
  have happend {files : LogFiles} (hsuffix : files.survivors options.generations <:+ log.appended)
      (habove : ∀ generation > options.generations, files generation = none)
      (hlive : options.maxSize < LogFiles.byteLength ((files 0).getD []) + lines.utf8ByteSize → LogFiles.byteLength ((files 0).getD []) = 0) :
      KeepsSuffix options ⟨files.apply (.appendFile lines), log.appended ++ [lines]⟩ := by
    refine ⟨?_, fun generation hgeneration => ?_, ?_, drops_oldest _⟩
    · rw [LogFiles.survivors_appendFile]
      obtain ⟨before, hbefore⟩ := hsuffix
      exact ⟨before, by rw [← append_assoc, hbefore]⟩
    · exact (update_of_ne (by omega) _ _).trans (habove generation hgeneration)
    · intro file hfile hlarge
      obtain rfl := Option.some.inj ((update_self 0 _ files).symm.trans hfile)
      rw [LogFiles.byteLength_append] at hlarge
      rw [filter_append, LogFiles.filter_eq_nil_of_byteLength (hlive (by exact_mod_cast hlarge))]
      exact length_filter_le _ _
  unfold call appendJsonlWithRotation
  dsimp only
  split_ifs with hrotates hdone hdone
  · -- the rotation runs to its end
    have hlength : (rotateJsonl options.generations).length < stop := by simpa [Nat.succ_le_iff] using hdone
    rw [take_of_length_le (by simpa using hdone), foldl_append, foldl_cons]
    obtain ⟨hmoved, hsame, -, hwhole⟩ := LogFiles.rotation log.files generations_pos stop
    rw [take_of_length_le hlength.le] at hmoved hsame hwhole
    have hempty := (hwhole (by simpa [rotateJsonl] using Nat.lt_of_succ_lt hlength)).1
    refine happend (hmoved.trans hsuffix) (fun generation hgeneration => (hsame generation hgeneration).trans (habove generation hgeneration)) fun _ => ?_
    rw [hempty]
    rfl
  · rw [take_append_of_le_length (by simpa [Nat.lt_succ_iff] using hdone)]
    obtain ⟨hmoved, hsame, hkept, -⟩ := LogFiles.rotation log.files generations_pos stop
    refine ⟨hmoved.trans hsuffix, fun generation hgeneration => (hsame generation hgeneration).trans (habove generation hgeneration), fun file hfile => ?_, drops_oldest _⟩
    rcases hkept with hnone | hkept
    · cases hnone.symm.trans hfile
    · exact hlive file (hkept.symm.trans hfile)
  · rw [take_of_length_le hdone]
    refine happend hsuffix habove fun hlarge => ?_
    have hsize : ((log.files 0).map LogFiles.byteLength).getD 0 = LogFiles.byteLength ((log.files 0).getD []) := by
      cases log.files 0 <;> rfl
    rw [hsize] at hrotates
    by_contra hfull
    exact hrotates ⟨by omega, hlarge⟩
  · have hstop : stop = 0 := by
      simpa using hdone
    subst hstop
    exact ⟨hsuffix, habove, hlive, drops_oldest _⟩

/-- However often the process ends within a rotation, or an operation fails. -/
theorem rotation_keeps_suffix (options : JsonlRotationOptions) (calls : List (String × ℕ)) :
    (calls.foldl (call options) new).KeepsSuffix options := by
  have hfolds (log : LogRun) (h : log.KeepsSuffix options) : (calls.foldl (call options) log).KeepsSuffix options := by
    induction calls generalizing log with
    | nil => exact h
    | cons c calls ih => exact ih _ (keepsSuffix_call h c.1 c.2)
  have hempty (k : ℕ) : LogFiles.survivors (fun _ => none) k = [] := by
    induction k with
    | zero => rfl
    | succ k ih => exact ih
  exact hfolds new ⟨(hempty _).symm ▸ suffix_refl [], fun _ _ => rfl, nofun, drops_oldest _⟩

/-- An empty text in a live file, and one that is too large. -/
theorem empty_text_beside_large : ¬∀ (options : JsonlRotationOptions) (calls : List (String × ℕ)) (file : List String),
    (calls.foldl (call options) new).files 0 = some file → options.maxSize < LogFiles.byteLength file → file.length ≤ 1 := by
  intro h
  have hlarge := h ⟨1, 1⟩ [("", 9), ("ab", 9)] ["", "ab"] (by decide +kernel) (by decide +kernel)
  exact absurd hlarge (by decide)

end LogRun

end Kookr.Core
