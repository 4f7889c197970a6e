import Kookr.Sanity.Core.LessonSteps

/-! The spool loses no lesson in a run in which every append that writes finds the pending file closed by
a newline. Where an append that crashed has left its line open, the next one is written behind it, and a
reader passes over both. -/

namespace Kookr.Core

open Kookr.Lib

namespace LessonSpool

variable {localeCompare : String → String → Ordering} {s s' : LessonSpool}

theorem Kept.step (hk : s.Kept) {e : LessonSpoolEvent} (haligned : s.AppendsAligned e)
    (hstep : s.step localeCompare e = some s') : s'.Kept := by
  unfold LessonSpool.step at hstep
  split at hstep
  · -- append
    split_ifs at hstep with hfree
    cases hstep
    exact hk.appendLessonWrite hfree haligned
  · -- appendWrite
    obtain ⟨⟨entry, rest⟩, happending, rfl⟩ := Option.map_eq_some_iff.1 hstep
    exact hk.appendWrite happending _
  · -- appendReturn
    split at hstep
    · next entry happending =>
      cases hstep
      have hinv : ∀ h, invocations (s.effects ++ [.appended entry]) h = invocations s.effects h := fun h => invocations_concat ..
      have hgrows : s.Grows { s with appending := none, effects := s.effects ++ [.appended entry] } :=
        grows_of_effects rfl rfl (List.subset_append_left ..)
      refine ⟨?_, ?_, nofun, nofun, ?_⟩
      · intro e he
        rcases List.mem_append.1 he with he | he
        · exact (hk.safe e he).mono hgrows
        · cases List.mem_singleton.1 he
          exact .inl (hk.append entry [] happending).readable
      · intro h
        unfold charged
        rw [hinv]
        exact hk.attempts h
      · exact fun stage hstage => (hk.stage stage hstage).mono hgrows fun h => (hinv h).le
    · cases hstep
  · -- appendStop
    obtain ⟨append, happending, rfl⟩ := Option.map_eq_some_iff.1 hstep
    exact ⟨hk.safe, hk.attempts, nofun, nofun, fun stage hstage =>
      (hk.stage stage hstage).mono (grows_of_effects rfl rfl fun _ h => h) fun _ => le_rfl⟩
  · -- drain
    split_ifs at hstep
    cases hstep
    refine hk.goto (fun _ => rfl) (fun _ _ => ⟨nofun, nofun⟩) ?_
    rintro stage ⟨⟩
    trivial
  · obtain ⟨stage, hdrain, hstep⟩ := Option.bind_eq_some_iff.1 hstep
    exact hk.drainStep hdrain hstep

theorem kept_start : start.Kept :=
  ⟨nofun, fun _ => ⟨Nat.zero_le _, Nat.zero_le _⟩, nofun, nofun, nofun⟩

/-- Where every append that writes starts on a line of its own, no lesson is lost, and the provider is
called for none of them more often than the limit says while it is in the pending file. -/
theorem lessons_kept {events : List LessonSpoolEvent}
    (hmeet : StepsMeet (step localeCompare) AppendsAligned start events) (hrun : exec (step localeCompare) start events = some s) :
    (∀ entry, .appended entry ∈ s.effects →
      entry.contentHash ∈ (readPendingLessons localeCompare s.pending).map LessonWriteEntry.contentHash ∨
        entry.contentHash ∈ readDeadLetterHashes s.deadLetter ∨
        ∃ written, .answered written true ∈ s.effects ∧ written.contentHash = entry.contentHash) ∧
      ∀ h, invocations s.effects h ≤ MAX_LESSON_DRAIN_ATTEMPTS := by
  have hstep : ∀ s e s', s.Kept → s.AppendsAligned e → LessonSpool.step localeCompare s e = some s' → s'.Kept :=
    fun _ _ _ hk haligned hstep => hk.step haligned hstep
  have hk : s.Kept := exec_invariant hstep kept_start hmeet hrun
  refine ⟨fun entry hentry => ?_, fun h => (Nat.le_add_right ..).trans (hk.attempts h).1⟩
  rw [mem_hashes_readPendingLessons]
  exact hk.safe entry hentry

def lesson (h : String) : LessonWriteEntry where
  members := [("schemaVersion", .str LESSON_WRITE_SPOOL_SCHEMA), ("contentHash", .str h), ("kb", .str "k"), ("title", .str "t"),
    ("body", .str "b\n"), ("createdAt", .str ""), ("source", .str "kb-remember")]
  isEntry := by simp [isLessonWriteEntry, stringMember, LESSON_WRITE_SPOOL_SCHEMA]

/-- A drain closes the line that a crashed append has left open. -/
def crashedThenDrained : List LessonSpoolEvent :=
  [.append (lesson "a"), .appendWrite 500, .appendReturn, .append (lesson "b"), .appendWrite 3, .appendStop,
    .drain, .drainRead, .drainHashes, .reserve, .invoke, .answer true none, .lockMutation, .buryAll, .rewrite,
    .append (lesson "b"), .appendWrite 500, .appendReturn]

set_option maxRecDepth 20000 in
theorem lessons_kept_crashedThenDrained : ∃ s, exec (step compare) start crashedThenDrained = some s ∧
    (∀ entry, .appended entry ∈ s.effects →
      entry.contentHash ∈ (readPendingLessons compare s.pending).map LessonWriteEntry.contentHash ∨
        entry.contentHash ∈ readDeadLetterHashes s.deadLetter ∨
        ∃ written, .answered written true ∈ s.effects ∧ written.contentHash = entry.contentHash) ∧
      ∀ h, invocations s.effects h ≤ MAX_LESSON_DRAIN_ATTEMPTS := by
  obtain ⟨s, hrun⟩ : ∃ s, exec (step compare) start crashedThenDrained = some s :=
    Option.isSome_iff_exists.1 (by decide +kernel)
  exact ⟨s, hrun, lessons_kept (by decide +kernel) hrun⟩

def crashedThenAppended : List LessonSpoolEvent :=
  [.append (lesson "a"), .appendWrite 3, .appendStop, .append (lesson "b"), .appendWrite 500, .appendReturn]

set_option maxRecDepth 20000 in
/-- An append crashes after three bytes. The next one returns `appended`, and its lesson is in neither file. -/
theorem appended_line_swallowed : ∃ s, exec (step compare) start crashedThenAppended = some s ∧
    ∃ entry, .appended entry ∈ s.effects ∧
      ¬ (entry.contentHash ∈ (readPendingLessons compare s.pending).map LessonWriteEntry.contentHash ∨
        entry.contentHash ∈ readDeadLetterHashes s.deadLetter ∨
        ∃ written, .answered written true ∈ s.effects ∧ written.contentHash = entry.contentHash) := by
  have heffect : (exec (step compare) start crashedThenAppended).map effects = some [.appended (lesson "b")] := rfl
  have hlost : (exec (step compare) start crashedThenAppended).any (fun s =>
      (lesson "b").contentHash ∉ (readPendingLessons compare s.pending).map LessonWriteEntry.contentHash ∧
        (lesson "b").contentHash ∉ readDeadLetterHashes s.deadLetter) = true := by decide +kernel
  obtain ⟨s, hrun, hlost⟩ := (Option.any_eq_true _ _).1 hlost
  obtain ⟨hpending, hdead⟩ := of_decide_eq_true hlost
  have heffects : s.effects = [.appended (lesson "b")] := by
    rw [hrun] at heffect
    exact Option.some.inj heffect
  refine ⟨s, hrun, lesson "b", ?_, ?_⟩
  · rw [heffects]
    exact List.mem_singleton_self _
  · rw [heffects]
    rintro (h | h | ⟨written, h, -⟩)
    · exact hpending h
    · exact hdead h
    · simp at h

end LessonSpool

end Kookr.Core
