import Mathlib.Tactic.IntervalCases
import Kookr.Lib.JsonPrefix
import Kookr.Spec.Core.LessonWriteSpool

/-! What is read of the two files: entries that were written, entries that were cut off, and the dead
letters behind a line that was left open. -/

namespace Kookr.Core

open Kookr.Lib LessonSpool LessonWriteEntry LineFile List

theorem trimLine_cons {c : Char} (hc : Remote.isTrimmed c = false) (cs : List Char) :
    trimLine (c :: cs) = (c :: cs).rdropWhile Remote.isTrimmed := by
  rw [trimLine, dropWhile_cons_of_neg (by simp [hc])]

theorem readLine_nil : readLine [] = none := rfl

theorem readLine_eq_none {line : List Char}
    (h : ∀ members, Json.parse (trimLine line) ≠ some (.obj members)) : readLine line = none := by
  unfold readLine
  split
  · next members hparse => exact absurd hparse (h members)
  · rfl

namespace LessonWriteEntry

variable (entry : LessonWriteEntry)

theorem text_eq_cons : ∃ cs, entry.text = '\x7b' :: cs ++ ['\x7d'] := ⟨_, by rw [text, Json.stringify]⟩

theorem newline_not_mem_text : '\n' ∉ entry.text := Json.newline_not_mem_stringify _

theorem readLine_text : readLine entry.text = some entry := by
  have htrim : trimLine entry.text = entry.text := by
    obtain ⟨cs, htext⟩ := entry.text_eq_cons
    rw [htext, cons_append, trimLine_cons (by decide), ← cons_append, rdropWhile_concat_neg _ _ _ (by decide)]
  unfold readLine
  rw [htrim, text, Json.parse_stringify]
  simp [entry.isEntry]

theorem readLine_cut {kept gone : List Char} {c : Char} (h : entry.text = kept ++ c :: gone) :
    readLine kept = none ∧ readLine (kept ++ [Utf8.replacement]) = none := by
  rcases kept with _ | ⟨b, kept⟩
  · exact ⟨readLine_nil, by decide⟩
  obtain rfl : b = '\x7b' := by
    exact (cons.inj h).1.symm
  refine ⟨readLine_eq_none fun members => ?_, readLine_eq_none fun members => ?_⟩
  · rw [trimLine_cons (by decide)]
    obtain ⟨blanks, hblanks⟩ := rdropWhile_prefix Remote.isTrimmed ('\x7b' :: kept)
    have hcut : ('\x7b' :: kept).rdropWhile Remote.isTrimmed ++ (blanks ++ c :: gone) = Json.stringify (.obj entry.members) := by
      rw [← append_assoc, hblanks]
      exact h.symm
    exact Json.parse_cut_ne_obj hcut (by simp)
  · rw [cons_append, trimLine_cons (by decide), ← cons_append, rdropWhile_concat_neg _ _ _ (by decide)]
    exact Json.parse_concat_ne_obj (by decide) (by decide) _

theorem set_contentHash (k : String) (v : Json) (hk) : (entry.set k v hk).contentHash = entry.contentHash := by
  have hne : "contentHash" ≠ k := by
    rintro rfl
    exact hk (by decide)
  simp only [contentHash, set, stringMember, lookup_setMember, if_neg hne]

@[simp] theorem withAttempts_contentHash (n : ℕ) : (entry.withAttempts n).contentHash = entry.contentHash :=
  entry.set_contentHash _ _ (by decide)

@[simp] theorem withLastError_contentHash (error : Option String) :
    (entry.withLastError error).contentHash = entry.contentHash := by
  cases error with
  | none => rfl
  | some error => exact entry.set_contentHash _ _ (by decide)

theorem withAttempts_attempts {n : ℕ} (hpos : 0 < n) (hmax : n ≤ MAX_LESSON_DRAIN_ATTEMPTS) :
    (entry.withAttempts n).attempts = n := by
  have hread : NumLit.positiveInteger (NumLit.ofInt n) = some n := by
    unfold MAX_LESSON_DRAIN_ATTEMPTS at hmax
    interval_cases n <;> decide
  simp [attempts, withAttempts, set, lookup_setMember, hread]

@[simp] theorem withLastError_attempts (error : Option String) : (entry.withLastError error).attempts = entry.attempts := by
  cases error with
  | none => rfl
  | some error => simp only [attempts, withLastError, set, lookup_setMember, if_neg (show "attempts" ≠ "lastError" by decide)]

theorem deadLetterHash_text : deadLetterHash entry.text = some entry.contentHash := by
  have hstring : (stringMember "contentHash" entry.members).isSome = true := by
    have hentry := entry.isEntry
    simp only [isLessonWriteEntry, all_cons, Bool.and_eq_true] at hentry
    exact hentry.2.1
  obtain ⟨hash, hhash⟩ := Option.isSome_iff_exists.1 hstring
  unfold deadLetterHash contentHash
  rw [text, Json.parse_stringify, hhash]
  exact hhash

end LessonWriteEntry

section Pending

variable {localeCompare : String → String → Ordering} {pending cut lost : Bytes} {entries : List LessonWriteEntry}
  {entry : LessonWriteEntry} {h : String}

/-- The readable line of a hash. -/
def pendingEntry (pending : Bytes) (h : String) : Option LessonWriteEntry :=
  rowAt contentHash (read readLine pending) h

theorem pendingEntry_hash (he : pendingEntry pending h = some entry) : entry.contentHash = h := (rowAt_mem he).2

theorem mem_pendingHashes : h ∈ pendingHashes pending ↔ ∃ entry, pendingEntry pending h = some entry := by
  constructor
  · exact rowAt_isSome_of_mem
  · rintro ⟨entry, hentry⟩
    obtain ⟨hmem, rfl⟩ := rowAt_mem hentry
    exact mem_map_of_mem hmem

theorem mem_readPendingLessons :
    entry ∈ readPendingLessons localeCompare pending ↔ pendingEntry pending entry.contentHash = some entry := by
  unfold readPendingLessons
  rw [mem_insertionSort]
  exact mem_values_mapBy

theorem nodup_readPendingLessons (pending : Bytes) : ((readPendingLessons localeCompare pending).map contentHash).Nodup :=
  ((perm_insertionSort _ _).map _).nodup_iff.2 (nodup_values_mapBy _)

theorem mem_hashes_readPendingLessons :
    h ∈ (readPendingLessons localeCompare pending).map contentHash ↔ h ∈ pendingHashes pending := by
  rw [mem_pendingHashes, mem_map]
  constructor
  · rintro ⟨entry, hmem, rfl⟩
    exact ⟨entry, mem_readPendingLessons.1 hmem⟩
  · rintro ⟨entry, hentry⟩
    have hhash := pendingEntry_hash hentry
    refine ⟨entry, mem_readPendingLessons.2 ?_, hhash⟩
    rwa [hhash]

theorem find_readPendingLessons (pending : Bytes) (h : String) :
    (readPendingLessons localeCompare pending).find? (fun entry => entry.contentHash = h) = pendingEntry pending h := by
  cases hfind : (readPendingLessons localeCompare pending).find? fun entry => entry.contentHash = h with
  | none =>
    cases hentry : pendingEntry pending h with
    | none => rfl
    | some entry =>
      have hhash := pendingEntry_hash hentry
      have hmem : entry ∈ readPendingLessons localeCompare pending := mem_readPendingLessons.2 (by rwa [hhash])
      exact absurd (find?_eq_none.1 hfind entry hmem) (by simp [hhash])
  | some entry =>
    have hhash : entry.contentHash = h := by simpa using find?_some hfind
    have hmem := mem_readPendingLessons.1 (mem_of_find?_eq_some hfind)
    rw [hhash] at hmem
    exact hmem.symm

theorem read_entryLines (entries : List LessonWriteEntry) : read readLine (entryLines entries) = entries := by
  unfold entryLines
  rw [read_lines readLine readLine_nil _ fun entry _ => entry.newline_not_mem_text]
  simp [readLine_text]

theorem pendingEntry_entryLines (hn : (entries.map contentHash).Nodup) :
    pendingEntry (entryLines entries) h = some entry ↔ entry ∈ entries ∧ entry.contentHash = h := by
  unfold pendingEntry
  rw [read_entryLines]
  exact rowAt_eq_some_iff hn

variable (localeCompare) in
/-- The file is written anew with another count at one hash. -/
theorem pendingEntry_reserved (hentry : pendingEntry pending h = some entry) (n : ℕ) (h' : String) :
    pendingEntry (entryLines ((readPendingLessons localeCompare pending).map fun e =>
        if e.contentHash = h then entry.withAttempts n else e)) h' =
      if h = h' then some (entry.withAttempts n) else pendingEntry pending h' := by
  have hhash := pendingEntry_hash hentry
  have hhashes : ((readPendingLessons localeCompare pending).map fun e => if e.contentHash = h then entry.withAttempts n else e).map
      contentHash = (readPendingLessons localeCompare pending).map contentHash := by
    rw [map_map]
    refine map_congr_left fun e _ => ?_
    rw [Function.comp_apply]
    split_ifs with heq
    · rw [entry.withAttempts_contentHash, hhash, heq]
    · rfl
  have hnodup : ((((readPendingLessons localeCompare pending).map fun e => if e.contentHash = h then entry.withAttempts n else e)).map
      contentHash).Nodup := by
    rw [hhashes]
    exact nodup_readPendingLessons _
  apply Option.ext
  intro e
  rw [pendingEntry_entryLines hnodup, mem_map]
  constructor
  · rintro ⟨⟨e', he', rfl⟩, hh'⟩
    have hold := mem_readPendingLessons.1 he'
    by_cases heq : e'.contentHash = h
    · rw [if_pos heq] at hh' ⊢
      rw [entry.withAttempts_contentHash, hhash] at hh'
      rw [if_pos hh']
    · rw [if_neg heq] at hh' ⊢
      rw [if_neg (by rintro rfl; exact heq hh'), ← hh', hold]
  · intro he
    by_cases heq : h = h'
    · rw [if_pos heq] at he
      cases he
      refine ⟨⟨entry, mem_readPendingLessons.2 (by rwa [hhash]), if_pos hhash⟩, ?_⟩
      rw [entry.withAttempts_contentHash, hhash, heq]
    · rw [if_neg heq] at he
      have hehash := pendingEntry_hash he
      refine ⟨⟨e, mem_readPendingLessons.2 (by rwa [hehash]), if_neg ?_⟩, hehash⟩
      rw [hehash]
      exact Ne.symm heq

variable (localeCompare pending) in
theorem pendingEntry_merged (run : DrainRun) (h : String) :
    pendingEntry (entryLines (run.merged (readPendingLessons localeCompare pending))) h =
      if h ∈ pendingHashes pending then
        if h ∈ run.pending.map contentHash then rowAt contentHash run.remaining h
        else pendingEntry pending h
      else none := by
  have hkey : ∀ e, ∀ e' ∈ (if e.contentHash ∉ run.pending.map contentHash then some e
      else rowAt contentHash run.remaining e.contentHash), e'.contentHash = e.contentHash := by
    intro e e' he'
    split_ifs at he' with hsnapshot
    · exact (rowAt_mem he').2
    · cases he'
      rfl
  have hnodup : ((run.merged (readPendingLessons localeCompare pending)).map contentHash).Nodup :=
    (nodup_readPendingLessons pending).sublist (map_filterMap_sublist hkey _)
  apply Option.ext
  intro e
  rw [pendingEntry_entryLines hnodup, DrainRun.merged, mem_filterMap]
  constructor
  · rintro ⟨⟨e', he', hsome⟩, rfl⟩
    have hhash := hkey e' e hsome
    have hold := mem_readPendingLessons.1 he'
    rw [if_pos (mem_pendingHashes.2 ⟨e', by rwa [hhash]⟩), hhash]
    split_ifs at hsome ⊢ with hsnapshot
    · exact hsome
    · rw [hold, hsome]
  · intro he
    split_ifs at he with hpending hsnapshot
    · obtain ⟨e', he'⟩ := mem_pendingHashes.1 hpending
      have hhash := pendingEntry_hash he'
      refine ⟨⟨e', mem_readPendingLessons.2 (by rwa [hhash]), ?_⟩, (rowAt_mem he).2⟩
      rw [hhash, if_neg (not_not_intro hsnapshot), he]
    · have hhash := pendingEntry_hash he
      refine ⟨⟨e, mem_readPendingLessons.2 (by rwa [hhash]), ?_⟩, hhash⟩
      rw [hhash, if_pos hsnapshot]

/-- A line at the end of an aligned file, as far as it was written. -/
theorem read_append_cut (haligned : LineFile.Aligned pending) (hcut : cut ++ lost = line entry.text) :
    lost.length ≤ 1 ∧ read readLine (pending ++ cut) = read readLine pending ++ [entry] ∨
      1 < lost.length ∧ read readLine (pending ++ cut) = read readLine pending := by
  rw [read_append readLine readLine_nil haligned]
  rcases read_cut readLine readLine_nil entry.newline_not_mem_text hcut fun _ _ _ => entry.readLine_cut with ⟨hlost, hread⟩ | ⟨hlost, hread⟩
  · refine .inl ⟨hlost, ?_⟩
    rw [hread, entry.readLine_text]
    rfl
  · refine .inr ⟨hlost, ?_⟩
    rw [hread, append_nil]

end Pending

section DeadLetters

variable {deadLetter : Bytes} {entries : List LessonWriteEntry} {entry : LessonWriteEntry} {existing : List String} {h : String}

theorem deadLetterHash_nil : deadLetterHash [] = none := by decide

theorem readDeadLetterHashes_append (haligned : LineFile.Aligned deadLetter) (more : Bytes) :
    readDeadLetterHashes (deadLetter ++ more) = readDeadLetterHashes deadLetter ++ readDeadLetterHashes more :=
  read_append _ deadLetterHash_nil haligned more

theorem readDeadLetterHashes_entryLines (entries : List LessonWriteEntry) :
    readDeadLetterHashes (entryLines entries) = entries.map contentHash := by
  unfold readDeadLetterHashes entryLines
  rw [read_lines deadLetterHash deadLetterHash_nil _ fun entry _ => entry.newline_not_mem_text]
  simp [deadLetterHash_text]

theorem mem_readDeadLetterHashes_take (hmem : h ∈ readDeadLetterHashes deadLetter) (entries : List LessonWriteEntry)
    (existing : List String) (n : ℕ) :
    h ∈ readDeadLetterHashes (deadLetter ++ (deadLetterText deadLetter entries existing).take n) := by
  by_cases haligned : LineFile.Aligned deadLetter
  · rw [readDeadLetterHashes_append haligned]
    exact mem_append_left _ hmem
  · unfold deadLetterText
    split
    · simpa using hmem
    · rw [if_neg haligned]
      cases n with
      | zero => simpa using hmem
      | succ n =>
        rw [take_succ_cons, readDeadLetterHashes, read_newline]
        exact mem_append_left _ hmem

theorem mem_readDeadLetterHashes_text (hmem : entry ∈ entries) (hexisting : ∀ h ∈ existing, h ∈ readDeadLetterHashes deadLetter) :
    entry.contentHash ∈ readDeadLetterHashes (deadLetter ++ deadLetterText deadLetter entries existing) := by
  by_cases hnew : entry.contentHash ∈ existing
  · have hold := mem_readDeadLetterHashes_take (hexisting _ hnew) entries existing (deadLetterText deadLetter entries existing).length
    rwa [take_length] at hold
  · have hfilter : entry ∈ entries.filter fun entry => entry.contentHash ∉ existing := mem_filter.2 ⟨hmem, by simpa using hnew⟩
    unfold deadLetterText
    generalize entries.filter (fun entry => entry.contentHash ∉ existing) = newEntries at hfilter
    have hlines : entry.contentHash ∈ readDeadLetterHashes (entryLines newEntries) := by
      rw [readDeadLetterHashes_entryLines]
      exact mem_map_of_mem hfilter
    cases newEntries with
    | nil => cases hfilter
    | cons e es =>
      dsimp only
      split
      · next haligned =>
        rw [readDeadLetterHashes_append haligned]
        exact mem_append_right _ hlines
      · rw [readDeadLetterHashes, read_newline]
        exact mem_append_right _ hlines

end DeadLetters

end Kookr.Core
