import Kookr.Sanity.Core.LessonLines

/-! What each step of the spool keeps, where an append that writes finds the pending file closed by a newline.
A drain keeps every line of its snapshot until it replaces the file, and by then each of them is retained, a
dead letter, or written; every call of the provider was reserved in the file before. -/

namespace Kookr.Core

open Kookr.Lib LessonWriteEntry List

namespace LessonSpool

/-- The hash is no longer in the pending file. -/
def isLeft (h : String) : LessonSpoolEffect → Bool
  | .left h' => h' = h
  | _ => false

def isInvocation (h : String) : LessonSpoolEffect → Bool
  | .invoked entry => entry.contentHash = h
  | _ => false

/-- How often the provider was called for a hash since the hash last left the pending file. -/
def invocations (effects : List LessonSpoolEffect) (h : String) : ℕ :=
  (sinceLast (isLeft h) effects).countP (isInvocation h)

/-- An append that writes starts on a line of its own. -/
def AppendsAligned (s : LessonSpool) : LessonSpoolEvent → Prop
  | .append entry => entry.contentHash ∉ pendingHashes s.pending → LineFile.Aligned s.pending
  | _ => True

instance AppendsAligned.decidable (s : LessonSpool) (e : LessonSpoolEvent) : Decidable (s.AppendsAligned e) := by
  unfold AppendsAligned
  split <;> infer_instance

def WrittenOk (s : LessonSpool) (h : String) : Prop := ∃ entry, .answered entry true ∈ s.effects ∧ entry.contentHash = h

/-- A lesson that is not lost. -/
def Safe (s : LessonSpool) (h : String) : Prop :=
  h ∈ pendingHashes s.pending ∨ h ∈ readDeadLetterHashes s.deadLetter ∨ s.WrittenOk h

section Invocations

variable {effects : List LessonSpoolEffect} {h : String} {x : LessonSpoolEffect}

theorem invocations_concat (effects : List LessonSpoolEffect) (x : LessonSpoolEffect) (h : String) :
    invocations (effects ++ [x]) h =
      if isLeft h x then 0 else invocations effects h + if isInvocation h x then 1 else 0 := by
  unfold invocations
  rw [sinceLast_concat]
  split
  · rfl
  · rw [countP_append, countP_singleton]

theorem invocations_left (effects : List LessonSpoolEffect) (hashes : List String) (h : String) :
    invocations (effects ++ hashes.map .left) h = if h ∈ hashes then 0 else invocations effects h := by
  induction hashes using reverseRecOn with
  | nil => simp
  | append_singleton hashes h' ih =>
    rw [map_append, ← append_assoc, map_singleton, invocations_concat, ih]
    by_cases hh : h' = h
    · simp [isLeft, hh]
    · simp [isLeft, isInvocation, hh, Ne.symm hh]

end Invocations

/-- What has become of a hash that a drain has dealt with. -/
def Settled (s : LessonSpool) (run : DrainRun) (h : String) : Prop :=
  h ∈ run.deadLetterHashes ∨ s.WrittenOk h ∨ h ∈ run.remaining.map contentHash ∨
    h ∈ run.deadLetterEntries.map contentHash

/-- A drain that has still to deal with the hashes `todo`. -/
structure RunKept (s : LessonSpool) (run : DrainRun) (todo : List String) : Prop where
  nodup : (run.pending.map contentHash).Nodup
  there : ∀ h ∈ run.pending.map contentHash, h ∈ pendingHashes s.pending
  suffix : todo <:+ run.pending.map contentHash
  settled : ∀ h ∈ run.pending.map contentHash, h ∈ todo ∨ s.Settled run h
  dead : ∀ h ∈ run.deadLetterHashes, h ∈ readDeadLetterHashes s.deadLetter
  remaining : ∀ entry ∈ run.remaining, entry.contentHash ∉ todo ∧ invocations s.effects entry.contentHash ≤ entry.attempts

def StageKept (s : LessonSpool) : DrainStage → Prop
  | .locked => True
  | .readHashes pending =>
    (pending.map contentHash).Nodup ∧
      ∀ h ∈ pending.map contentHash, h ∈ pendingHashes s.pending
  | .next run => s.RunKept run (run.rest.map contentHash)
  | .reserved run entry =>
    s.RunKept run (entry.contentHash :: run.rest.map contentHash) ∧
      invocations s.effects entry.contentHash + 1 ≤ entry.attempts
  | .writing run entry =>
    s.RunKept run (entry.contentHash :: run.rest.map contentHash) ∧
      invocations s.effects entry.contentHash ≤ entry.attempts
  | .merging run => s.RunKept run []
  | .rewriting run =>
    s.RunKept run [] ∧ ∀ h ∈ run.deadLetterEntries.map contentHash, h ∈ readDeadLetterHashes s.deadLetter

/-- The attempt that a drain has reserved and not yet made. -/
def reserves (h : String) : DrainStage → ℕ
  | .reserved _ entry => if entry.contentHash = h then 1 else 0
  | _ => 0

/-- The attempts at a hash, with the one that is reserved. -/
def charged (s : LessonSpool) (h : String) : ℕ := invocations s.effects h + s.drain.elim 0 (reserves h)

def pendingAttempts (pending : Bytes) (h : String) : ℕ := (pendingEntry pending h).elim 0 attempts

/-- An append that has written some of its line. -/
def AppendKept (pending : Bytes) (entry : LessonWriteEntry) (rest : Bytes) : Prop :=
  ∃ base cut, pending = base ++ cut ∧ LineFile.Aligned base ∧ cut ++ rest = LineFile.line entry.text ∧
    entry.contentHash ∉ pendingHashes base

structure Kept (s : LessonSpool) : Prop where
  safe : ∀ entry, .appended entry ∈ s.effects → s.Safe entry.contentHash
  attempts : ∀ h, s.charged h ≤ MAX_LESSON_DRAIN_ATTEMPTS ∧ s.charged h ≤ pendingAttempts s.pending h
  append : ∀ entry rest, s.appending = some (entry, rest) → AppendKept s.pending entry rest
  exclusive : s.appending.isSome → ∀ run, s.drain ≠ some (.merging run) ∧ s.drain ≠ some (.rewriting run)
  stage : ∀ stage, s.drain = some stage → s.StageKept stage

variable {localeCompare : String → String → Ordering} {s s' : LessonSpool} {run : DrainRun} {todo : List String}
  {stage : DrainStage} {entry : LessonWriteEntry} {pending rest : Bytes} {h : String}

theorem mem_pendingHashes_of_attempts (hpos : 0 < pendingAttempts pending h) : h ∈ pendingHashes pending := by
  rw [mem_pendingHashes]
  cases hentry : pendingEntry pending h with
  | none =>
    rw [pendingAttempts, hentry] at hpos
    cases hpos
  | some entry => exact ⟨entry, rfl⟩

/-- Nothing that a drain relies on is gone. -/
structure Grows (s s' : LessonSpool) : Prop where
  pending : ∀ h ∈ pendingHashes s.pending, h ∈ pendingHashes s'.pending
  dead : ∀ h ∈ readDeadLetterHashes s.deadLetter, h ∈ readDeadLetterHashes s'.deadLetter
  written : ∀ h, s.WrittenOk h → s'.WrittenOk h

theorem Safe.mono (hsafe : s.Safe h) (hgrows : s.Grows s') : s'.Safe h := by
  rcases hsafe with hpending | hdead | hwritten
  · exact .inl (hgrows.pending h hpending)
  · exact .inr (.inl (hgrows.dead h hdead))
  · exact .inr (.inr (hgrows.written h hwritten))

theorem RunKept.mono (hk : s.RunKept run todo) (hgrows : s.Grows s')
    (hinv : ∀ h, h ∉ todo → invocations s'.effects h ≤ invocations s.effects h) : s'.RunKept run todo where
  nodup := hk.nodup
  there h hh := hgrows.pending h (hk.there h hh)
  suffix := hk.suffix
  settled h hh := (hk.settled h hh).imp_right fun hsettled => hsettled.imp_right fun hsettled =>
    hsettled.imp_left (hgrows.written h)
  dead h hh := hgrows.dead h (hk.dead h hh)
  remaining entry hentry := by
    obtain ⟨htodo, hattempts⟩ := hk.remaining entry hentry
    exact ⟨htodo, (hinv _ htodo).trans hattempts⟩

theorem StageKept.mono (hk : s.StageKept stage) (hgrows : s.Grows s')
    (hinv : ∀ h, invocations s'.effects h ≤ invocations s.effects h) : s'.StageKept stage := by
  cases stage with
  | locked => trivial
  | readHashes pending => exact ⟨hk.1, fun h hh => hgrows.pending h (hk.2 h hh)⟩
  | next run => exact RunKept.mono hk hgrows fun h _ => hinv h
  | reserved run entry => exact ⟨hk.1.mono hgrows fun h _ => hinv h, (Nat.add_le_add_right (hinv _) 1).trans hk.2⟩
  | writing run entry => exact ⟨hk.1.mono hgrows fun h _ => hinv h, (hinv _).trans hk.2⟩
  | merging run => exact RunKept.mono hk hgrows fun h _ => hinv h
  | rewriting run => exact ⟨hk.1.mono hgrows fun h _ => hinv h, fun h hh => hgrows.dead h (hk.2 h hh)⟩

theorem Kept.move (hk : s.Kept) (happending : s'.appending = s.appending) (hpending : s'.pending = s.pending)
    (hgrows : s.Grows s') (happended : ∀ entry, .appended entry ∈ s'.effects → .appended entry ∈ s.effects)
    (hcharged : ∀ h, s'.charged h ≤ s.charged h)
    (hexclusive : s.appending.isSome → ∀ run, s'.drain ≠ some (.merging run) ∧ s'.drain ≠ some (.rewriting run))
    (hstage : ∀ stage, s'.drain = some stage → s'.StageKept stage) : s'.Kept where
  safe entry hentry := (hk.safe entry (happended entry hentry)).mono hgrows
  attempts h := by
    obtain ⟨hmax, hattempts⟩ := hk.attempts h
    exact ⟨(hcharged h).trans hmax, by rw [hpending]; exact (hcharged h).trans hattempts⟩
  append entry rest heq := by
    rw [hpending]
    exact hk.append entry rest (by rwa [← happending])
  exclusive hsome := hexclusive (by rwa [happending] at hsome)
  stage := hstage

theorem effects_setPending (hkeep : ∀ h ∈ pendingHashes s.pending, h ∈ pendingHashes pending) :
    (s.setPending pending).effects = s.effects := by
  have hnone : (pendingHashes s.pending).filter (fun h => h ∉ pendingHashes pending) = [] :=
    filter_eq_nil_iff.2 fun h hh => by simpa using hkeep h hh
  simp only [setPending, hnone, map_nil, append_nil]

theorem AppendKept.write (hk : AppendKept pending entry rest) (n : ℕ) : AppendKept (pending ++ rest.take n) entry (rest.drop n) ∧
      (LineFile.read readLine (pending ++ rest.take n) = LineFile.read readLine pending ∨
        entry.contentHash ∉ pendingHashes pending ∧
          LineFile.read readLine (pending ++ rest.take n) = LineFile.read readLine pending ++ [entry]) := by
  obtain ⟨base, cut, rfl, haligned, hcut, hfresh⟩ := hk
  have hcut' : cut ++ rest.take n ++ rest.drop n = LineFile.line entry.text := by
    rw [append_assoc, take_append_drop, hcut]
  refine ⟨⟨base, cut ++ rest.take n, by rw [append_assoc], haligned, hcut', hfresh⟩, ?_⟩
  rw [append_assoc]
  rcases read_append_cut haligned hcut with ⟨hlost, hread⟩ | ⟨hlost, hread⟩ <;>
    rcases read_append_cut haligned hcut' with ⟨hlost', hread'⟩ | ⟨hlost', hread'⟩
  · exact .inl (hread'.trans hread.symm)
  · rw [length_drop] at hlost'
    omega
  · refine .inr ⟨?_, by rw [hread', hread]⟩
    rwa [pendingHashes, hread]
  · exact .inl (hread'.trans hread.symm)

theorem AppendKept.readable (hk : AppendKept pending entry []) : entry.contentHash ∈ pendingHashes pending := by
  obtain ⟨base, cut, rfl, haligned, hcut, -⟩ := hk
  rcases read_append_cut haligned hcut with ⟨-, hread⟩ | ⟨hlost, -⟩
  · rw [pendingHashes, hread]
    simp
  · cases hlost

theorem holders_of_free (hfree : s.mutationLockFree = true) :
    s.appending = none ∧ ∀ run, s.drain ≠ some (.merging run) ∧ s.drain ≠ some (.rewriting run) := by
  simp only [mutationLockFree, Bool.and_eq_true, Option.isNone_iff_eq_none] at hfree
  obtain ⟨happending, hdrain⟩ := hfree
  refine ⟨happending, fun run => ⟨fun hmerging => ?_, fun hrewriting => ?_⟩⟩
  · rw [hmerging] at hdrain
    cases hdrain
  · rw [hrewriting] at hdrain
    cases hdrain

theorem Kept.appendLessonWrite (hk : s.Kept) (hfree : s.mutationLockFree = true)
    (haligned : s.AppendsAligned (.append entry)) : (s.appendLessonWrite localeCompare entry).Kept := by
  unfold LessonSpool.appendLessonWrite
  split
  · exact hk
  next hnew =>
  rw [mem_hashes_readPendingLessons] at hnew
  refine ⟨hk.safe, hk.attempts, ?_, ?_, fun stage hstage => (hk.stage stage hstage).mono ⟨fun _ h => h, fun _ h => h, fun _ h => h⟩ fun _ => le_rfl⟩
  · rintro entry rest ⟨⟩
    exact ⟨s.pending, [], (append_nil _).symm, haligned hnew, rfl, hnew⟩
  · exact fun _ => (holders_of_free hfree).2

theorem Kept.appendWrite (hk : s.Kept) (happending : s.appending = some (entry, rest)) (n : ℕ) :
    ({ s.setPending (s.pending ++ rest.take n) with appending := some (entry, rest.drop n) } : LessonSpool).Kept := by
  obtain ⟨hwrite, hread⟩ := (hk.append entry rest happending).write n
  have hkeep : ∀ h ∈ pendingHashes s.pending, h ∈ pendingHashes (s.pending ++ rest.take n) := by
    intro h hh
    unfold pendingHashes at hh ⊢
    rcases hread with hread | ⟨-, hread⟩
    · rwa [hread]
    · rw [hread, map_append]
      exact mem_append_left _ hh
  have heffects := effects_setPending hkeep
  have hgrows : s.Grows { s.setPending (s.pending ++ rest.take n) with appending := some (entry, rest.drop n) } := by
    refine ⟨hkeep, fun _ h => h, fun h hok => ?_⟩
    unfold WrittenOk
    rwa [heffects]
  refine ⟨?_, ?_, ?_, ?_, ?_⟩
  · intro e he
    rw [heffects] at he
    exact (hk.safe e he).mono hgrows
  · intro h
    have hcharged : ({ s.setPending (s.pending ++ rest.take n) with appending := some (entry, rest.drop n) } : LessonSpool).charged h =
        s.charged h := by
      unfold charged
      rw [heffects]
      rfl
    obtain ⟨hmax, hattempts⟩ := hk.attempts h
    rw [hcharged]
    refine ⟨hmax, hattempts.trans ?_⟩
    show pendingAttempts s.pending h ≤ pendingAttempts (s.pending ++ rest.take n) h
    unfold pendingAttempts pendingEntry
    rcases hread with hread | ⟨hfresh, hread⟩
    · rw [hread]
    · rw [hread, rowAt_concat]
      split
      · next heq =>
        have hnone : pendingEntry s.pending h = none := rowAt_eq_none_iff.2 (by rwa [← heq])
        rw [← pendingEntry, hnone]
        exact Nat.zero_le _
      · exact le_rfl
  · rintro e r ⟨⟩
    exact hwrite
  · intro _
    exact hk.exclusive (by simp [happending])
  · intro stage hstage
    exact (hk.stage stage hstage).mono hgrows fun h => by rw [heffects]

theorem grows_of_effects (hpending : s'.pending = s.pending) (hdead : s'.deadLetter = s.deadLetter)
    (heffects : s.effects ⊆ s'.effects) : s.Grows s' := by
  refine ⟨fun h hh => by rwa [hpending], fun h hh => by rwa [hdead], ?_⟩
  rintro h ⟨entry, hentry, hhash⟩
  exact ⟨entry, heffects hentry, hhash⟩

theorem RunKept.settle (hk : s.RunKept run (h :: todo)) (hsettled : s.Settled run h) : s.RunKept run todo where
  nodup := hk.nodup
  there := hk.there
  suffix := (suffix_cons h todo).trans hk.suffix
  settled h' hh' := by
    rcases hk.settled h' hh' with htodo | hsettled'
    · rcases mem_cons.1 htodo with rfl | htodo
      · exact .inr hsettled
      · exact .inl htodo
    · exact .inr hsettled'
  dead := hk.dead
  remaining entry hentry := by
    obtain ⟨htodo, hattempts⟩ := hk.remaining entry hentry
    exact ⟨fun hmem => htodo (mem_cons_of_mem _ hmem), hattempts⟩

theorem RunKept.mem (hk : s.RunKept run (h :: todo)) : h ∈ pendingHashes s.pending :=
  hk.there h (hk.suffix.subset mem_cons_self)

theorem RunKept.not_mem (hk : s.RunKept run (h :: todo)) : h ∉ todo :=
  (nodup_cons.1 (hk.nodup.sublist hk.suffix.sublist)).1

section

variable (hk : s.RunKept run (entry.contentHash :: todo))
include hk

theorem RunKept.bury {dead : LessonWriteEntry} (hdead : dead.contentHash = entry.contentHash) :
    s.RunKept { run with deadLetterEntries := run.deadLetterEntries ++ [dead] } todo := by
  have hk' : s.RunKept { run with deadLetterEntries := run.deadLetterEntries ++ [dead] } (entry.contentHash :: todo) :=
    { hk with
      settled := fun h hh => (hk.settled h hh).imp_right fun hsettled =>
        hsettled.imp_right fun hsettled => hsettled.imp_right fun hsettled => hsettled.imp_right fun hmem => by
          rw [map_append]
          exact mem_append_left _ hmem }
  refine hk'.settle (.inr (.inr (.inr ?_)))
  simp [hdead]

theorem RunKept.retain {retained : LessonWriteEntry} (hretained : retained.contentHash = entry.contentHash)
    (hattempts : invocations s.effects entry.contentHash ≤ retained.attempts) :
    s.RunKept { run with remaining := run.remaining ++ [retained] } todo where
  nodup := hk.nodup
  there := hk.there
  suffix := (suffix_cons _ todo).trans hk.suffix
  settled h hh := by
    rcases hk.settled h hh with htodo | hsettled
    · rcases mem_cons.1 htodo with rfl | htodo
      · refine .inr (.inr (.inr (.inl ?_)))
        simp [hretained]
      · exact .inl htodo
    · refine .inr (hsettled.imp_right fun hsettled => hsettled.imp_right fun hsettled => hsettled.imp_left fun hmem => ?_)
      rw [map_append]
      exact mem_append_left _ hmem
  dead := hk.dead
  remaining e he := by
    rcases mem_append.1 he with he | he
    · obtain ⟨htodo, hattempts⟩ := hk.remaining e he
      exact ⟨fun hmem => htodo (mem_cons_of_mem _ hmem), hattempts⟩
    · obtain rfl := mem_singleton.1 he
      rw [hretained]
      exact ⟨hk.not_mem, hattempts⟩

theorem RunKept.answered {ok : Bool}
    (hok : ok = true → s.WrittenOk entry.contentHash) (hattempts : invocations s.effects entry.contentHash ≤ entry.attempts)
    (error : Option String) : s.RunKept (run.answered entry ok error) todo := by
  unfold DrainRun.answered
  split_ifs with hanswer
  · exact hk.settle (.inr (.inl (hok hanswer)))
  · exact hk.bury (entry.withLastError_contentHash error)
  · exact hk.retain (entry.withLastError_contentHash error) (by rwa [entry.withLastError_attempts])

end

theorem RunKept.of_rest (hk : s.RunKept run todo) (rest : List LessonWriteEntry) : s.RunKept { run with rest } todo :=
  { hk with }

section

variable (hk : s.Kept)
include hk

theorem Kept.reserve (hdrain : s.drain = some (.next run)) (hfree : s.mutationLockFree = true)
    {rest : List LessonWriteEntry} (hrun : s.RunKept run (h :: rest.map contentHash)) :
    (s.reserveLessonAttempt localeCompare { run with rest } h).Kept := by
  obtain ⟨happending, -⟩ := holders_of_free hfree
  obtain ⟨entry, hentry⟩ := mem_pendingHashes.1 hrun.mem
  have hhash := pendingEntry_hash hentry
  have hrun := hrun.of_rest rest
  have hcount : ∀ h, s.charged h = invocations s.effects h := fun h => by
    unfold charged
    rw [hdrain]
    rfl
  unfold reserveLessonAttempt
  dsimp only
  rw [find_readPendingLessons, hentry]
  dsimp only
  split_ifs with hmax
  · refine hk.move rfl rfl (grows_of_effects rfl rfl fun _ h => h) (fun _ h => h) ?_ ?_ ?_
    · intro h
      exact Nat.add_le_add_left (Nat.zero_le _) _
    · rw [happending]
      rintro ⟨⟩
    · rintro stage ⟨⟩
      rw [← hhash] at hrun
      exact RunKept.mono (hrun.bury rfl) (grows_of_effects rfl rfl fun _ h => h) fun _ _ => le_rfl
  have hattempts := entry.withAttempts_attempts (Nat.succ_pos entry.attempts) (by omega)
  have hrows := pendingEntry_reserved localeCompare hentry (entry.attempts + 1)
  set reserved := entry.withAttempts (entry.attempts + 1) with hreserved
  set rewritten := (readPendingLessons localeCompare s.pending).map fun e => if e.contentHash = h then reserved else e
  have hreservedHash : reserved.contentHash = h := by rw [entry.withAttempts_contentHash, hhash]
  have hkeep : ∀ h ∈ pendingHashes s.pending, h ∈ pendingHashes (entryLines rewritten) := by
    intro h' hh'
    obtain ⟨e, he⟩ := mem_pendingHashes.1 hh'
    rw [mem_pendingHashes, hrows]
    split_ifs
    · exact ⟨_, rfl⟩
    · exact ⟨e, he⟩
  have heffects := effects_setPending hkeep
  have hgrows : s.Grows { s.setPending (entryLines rewritten) with drain := some (.reserved { run with rest } reserved) } := by
    refine ⟨hkeep, fun _ h => h, fun h hok => ?_⟩
    unfold WrittenOk
    rwa [heffects]
  have hle : invocations s.effects h ≤ entry.attempts := by
    have hentryAttempts := (hk.attempts h).2
    rwa [hcount, pendingAttempts, hentry] at hentryAttempts
  refine ⟨?_, ?_, ?_, ?_, ?_⟩
  · intro e he
    rw [heffects] at he
    exact (hk.safe e he).mono hgrows
  · intro h'
    have hcharged : ({ s.setPending (entryLines rewritten) with drain := some (.reserved { run with rest } reserved) } : LessonSpool).charged h' =
        invocations s.effects h' + if h = h' then 1 else 0 := by
      unfold charged
      rw [heffects]
      show _ + (if reserved.contentHash = h' then 1 else 0) = _
      rw [hreservedHash]
    obtain ⟨hmax', hattempts'⟩ := hk.attempts h'
    rw [hcount] at hmax' hattempts'
    show _ ≤ _ ∧ _ ≤ pendingAttempts (entryLines rewritten) h'
    rw [hcharged, pendingAttempts, hrows]
    by_cases heq : h = h'
    · subst heq
      rw [if_pos rfl, if_pos rfl, Option.elim_some]
      omega
    · rw [if_neg heq, if_neg heq]
      exact ⟨hmax', hattempts'⟩
  · intro e r heq
    rw [show s.appending = some (e, r) from heq] at happending
    cases happending
  · intro hsome
    change s.appending.isSome = true at hsome
    rw [happending] at hsome
    cases hsome
  · rintro stage ⟨⟩
    refine ⟨?_, ?_⟩
    · rw [hreservedHash]
      exact hrun.mono hgrows fun h _ => by rw [heffects]
    · rw [hreservedHash, hattempts, heffects]
      exact Nat.add_le_add_right hle 1

/-- The file is replaced by what is retained of the snapshot and what has come since. -/
theorem Kept.rewrite (hdrain : s.drain = some (.rewriting run)) :
    ({ s.setPending (entryLines (run.merged (readPendingLessons localeCompare s.pending))) with drain := none } : LessonSpool).Kept := by
  obtain ⟨hrun, hburied⟩ : s.StageKept (.rewriting run) := hk.stage _ hdrain
  have happending : s.appending = none := by
    cases happending : s.appending with
    | none => rfl
    | some append => exact absurd hdrain (hk.exclusive (by simp [happending]) run).2
  have hrows := pendingEntry_merged localeCompare s.pending run
  set merged := entryLines (run.merged (readPendingLessons localeCompare s.pending))
  have hsafe : ∀ h, s.Safe h → ({ s.setPending merged with drain := none } : LessonSpool).Safe h := by
    rintro h (hpending | hdead | ⟨entry, hentry, hhash⟩)
    · have hsettled : h ∈ run.pending.map contentHash → s.Settled run h := fun hsnapshot =>
        (hrun.settled h hsnapshot).resolve_left (by simp)
      by_cases hsnapshot : h ∈ run.pending.map contentHash
      · rcases hsettled hsnapshot with hdead | ⟨entry, hentry, hhash⟩ | hremaining | hbury
        · exact .inr (.inl (hrun.dead h hdead))
        · exact .inr (.inr ⟨entry, mem_append_left _ hentry, hhash⟩)
        · refine .inl (mem_pendingHashes.2 ?_)
          show ∃ entry, pendingEntry merged h = some entry
          rw [hrows, if_pos hpending, if_pos hsnapshot]
          exact rowAt_isSome_of_mem hremaining
        · exact .inr (.inl (hburied h hbury))
      · refine .inl (mem_pendingHashes.2 ?_)
        show ∃ entry, pendingEntry merged h = some entry
        rw [hrows, if_pos hpending, if_neg hsnapshot]
        exact mem_pendingHashes.1 hpending
    · exact .inr (.inl hdead)
    · exact .inr (.inr ⟨entry, mem_append_left _ hentry, hhash⟩)
  refine ⟨?_, ?_, ?_, ?_, ?_⟩
  · intro e he
    refine hsafe _ (hk.safe e ?_)
    rcases mem_append.1 he with he | he
    · exact he
    · simp at he
  · intro h
    obtain ⟨hmax, hattempts⟩ := hk.attempts h
    have hcount : s.charged h = invocations s.effects h := by
      unfold charged
      rw [hdrain]
      rfl
    rw [hcount] at hmax hattempts
    show invocations (s.effects ++ _) h + 0 ≤ _ ∧ invocations (s.effects ++ _) h + 0 ≤ pendingAttempts merged h
    rw [invocations_left]
    by_cases hgone : h ∈ pendingHashes s.pending ∧ h ∉ pendingHashes merged
    · rw [if_pos (mem_filter.2 ⟨hgone.1, by simpa using hgone.2⟩)]
      exact ⟨Nat.zero_le _, Nat.zero_le _⟩
    rw [if_neg fun hmem => hgone ⟨(mem_filter.1 hmem).1, by simpa using (mem_filter.1 hmem).2⟩]
    refine ⟨hmax, ?_⟩
    by_cases hpending : h ∈ pendingHashes s.pending
    · by_cases hsnapshot : h ∈ run.pending.map contentHash
      · -- the line that a drain retains counts its own attempts
        have hmerged : h ∈ pendingHashes merged := by_contra fun hnot => hgone ⟨hpending, hnot⟩
        obtain ⟨entry, hentry⟩ := mem_pendingHashes.1 hmerged
        rw [pendingAttempts, hentry]
        rw [hrows, if_pos hpending, if_pos hsnapshot] at hentry
        obtain ⟨hmem, rfl⟩ := rowAt_mem hentry
        exact (hrun.remaining entry hmem).2
      · rwa [pendingAttempts, hrows, if_pos hpending, if_neg hsnapshot]
    · have hzero : pendingAttempts s.pending h = 0 := Nat.eq_zero_of_not_pos fun hpos => hpending (mem_pendingHashes_of_attempts hpos)
      rw [hzero] at hattempts
      exact hattempts.trans (Nat.zero_le _)
  · intro e r heq
    rw [show s.appending = some (e, r) from heq] at happending
    cases happending
  · intro hsome
    change s.appending.isSome = true at hsome
    rw [happending] at hsome
    cases hsome
  · rintro stage ⟨⟩

theorem Kept.goto {drain : Option DrainStage} (hreserves : ∀ h, drain.elim 0 (reserves h) = 0)
    (hexclusive : s.appending.isSome → ∀ run, drain ≠ some (.merging run) ∧ drain ≠ some (.rewriting run))
    (hstage : ∀ stage, drain = some stage → s.StageKept stage) : ({ s with drain } : LessonSpool).Kept := by
  have hgrows : s.Grows { s with drain } := grows_of_effects rfl rfl fun _ h => h
  refine hk.move rfl rfl hgrows (fun _ h => h) ?_ hexclusive fun stage heq => (hstage stage heq).mono hgrows fun _ => le_rfl
  intro h
  unfold charged
  rw [hreserves]
  exact Nat.add_le_add_left (Nat.zero_le _) _

theorem Kept.bury (hdrain : s.drain = some (.merging run)) {deadLetter : Bytes}
    (hdead : ∀ h ∈ readDeadLetterHashes s.deadLetter, h ∈ readDeadLetterHashes deadLetter) {drain : Option DrainStage}
    (hreserves : ∀ h, drain.elim 0 (reserves h) = 0)
    (hstage : ∀ stage, drain = some stage → ({ s with deadLetter } : LessonSpool).StageKept stage) :
    ({ s with deadLetter, drain } : LessonSpool).Kept := by
  have hgrows : s.Grows { s with deadLetter, drain } := ⟨fun _ h => h, hdead, fun _ h => h⟩
  have hgrows' : ({ s with deadLetter } : LessonSpool).Grows { s with deadLetter, drain } := grows_of_effects rfl rfl fun _ h => h
  refine hk.move rfl rfl hgrows (fun _ h => h) ?_ ?_ fun stage heq => (hstage stage heq).mono hgrows' fun _ => le_rfl
  · intro h
    unfold charged
    rw [hreserves]
    exact Nat.add_le_add_left (Nat.zero_le _) _
  · intro hsome
    exact absurd hdrain (hk.exclusive hsome run).1

theorem Kept.invoke (hdrain : s.drain = some (.reserved run entry)) :
    ({ s with drain := some (.writing run entry), effects := s.effects ++ [.invoked entry] } : LessonSpool).Kept := by
  obtain ⟨hrun, hattempts⟩ : s.StageKept (.reserved run entry) := hk.stage _ hdrain
  have hgrows : s.Grows { s with drain := some (.writing run entry), effects := s.effects ++ [.invoked entry] } :=
    grows_of_effects rfl rfl (subset_append_left ..)
  have hinv : ∀ h, invocations (s.effects ++ [.invoked entry]) h = invocations s.effects h + if entry.contentHash = h then 1 else 0 := by
    intro h
    rw [invocations_concat]
    simp [isLeft, isInvocation]
  refine hk.move rfl rfl hgrows ?_ ?_ (fun _ _ => ⟨nofun, nofun⟩) ?_
  · intro e he
    simpa using he
  · intro h
    unfold charged
    rw [hdrain]
    show invocations (s.effects ++ [.invoked entry]) h + 0 ≤ invocations s.effects h + if entry.contentHash = h then 1 else 0
    rw [hinv, Nat.add_zero]
  · rintro stage ⟨⟩
    refine ⟨hrun.mono hgrows fun h hh => ?_, ?_⟩
    · rw [hinv, if_neg (by rintro rfl; exact hh mem_cons_self), Nat.add_zero]
    · rw [hinv, if_pos rfl]
      exact hattempts

theorem Kept.answer (hdrain : s.drain = some (.writing run entry)) (ok : Bool) (error : Option String) :
    ({ s with drain := some (.next (run.answered entry ok error)), effects := s.effects ++ [.answered entry ok] } : LessonSpool).Kept := by
  obtain ⟨hrun, hattempts⟩ : s.StageKept (.writing run entry) := hk.stage _ hdrain
  set s' : LessonSpool := { s with drain := some (.next (run.answered entry ok error)), effects := s.effects ++ [.answered entry ok] }
  have hgrows : s.Grows s' := grows_of_effects rfl rfl (subset_append_left ..)
  have hinv : ∀ h, invocations s'.effects h = invocations s.effects h := fun h => invocations_concat ..
  refine hk.move rfl rfl hgrows ?_ ?_ (fun _ _ => ⟨nofun, nofun⟩) ?_
  · intro e he
    simpa [s'] using he
  · intro h
    unfold charged
    rw [hinv]
    exact Nat.add_le_add_left (Nat.zero_le _) _
  · rintro stage ⟨⟩
    have hrun' := hrun.mono hgrows fun h _ => (hinv h).le
    have hwritten : ok = true → s'.WrittenOk entry.contentHash := fun hok => ⟨entry, by simp [s', hok], rfl⟩
    have hanswered := hrun'.answered hwritten (by rwa [hinv]) error
    have hrest : (run.answered entry ok error).rest = run.rest := by
      unfold DrainRun.answered
      split_ifs <;> rfl
    show RunKept s' _ ((run.answered entry ok error).rest.map contentHash)
    rwa [hrest]

theorem Kept.drainStep (hdrain : s.drain = some stage) {e : LessonSpoolEvent}
    (hstep : s.drainStep localeCompare stage e = some s') : s'.Kept := by
  have hstage := hk.stage stage hdrain
  have hstop : ({ s with drain := none } : LessonSpool).Kept := hk.goto (fun _ => rfl) (fun _ _ => ⟨nofun, nofun⟩) nofun
  unfold LessonSpool.drainStep at hstep
  split at hstep
  · -- drainRead
    split at hstep
    · cases hstep
      exact hstop
    · cases hstep
      refine hk.goto (fun _ => rfl) (fun _ _ => ⟨nofun, nofun⟩) ?_
      rintro stage ⟨⟩
      exact ⟨nodup_readPendingLessons _, fun h hh => mem_hashes_readPendingLessons.1 hh⟩
  · -- drainHashes
    next pending =>
    cases hstep
    refine hk.goto (fun _ => rfl) (fun _ _ => ⟨nofun, nofun⟩) ?_
    rintro stage ⟨⟩
    obtain ⟨hnodup, hthere⟩ : s.StageKept (.readHashes pending) := hstage
    exact ⟨hnodup, hthere, suffix_rfl, fun h hh => .inl hh, fun h hh => hh, nofun⟩
  · -- skipDeadLetter
    next run =>
    split at hstep
    · next entry rest hrest =>
      split_ifs at hstep with hdead
      cases hstep
      refine hk.goto (fun _ => rfl) (fun _ _ => ⟨nofun, nofun⟩) ?_
      rintro stage ⟨⟩
      have hrun : s.RunKept run (run.rest.map contentHash) := hstage
      rw [hrest] at hrun
      exact (hrun.settle (.inl hdead)).of_rest rest
    · cases hstep
  · -- reserve
    next run =>
    split at hstep
    · next entry rest hrest =>
      split_ifs at hstep with hfree
      cases hstep
      have hrun : s.RunKept run (run.rest.map contentHash) := hstage
      rw [hrest] at hrun
      exact hk.reserve hdrain hfree.2 hrun
    · cases hstep
  · -- invoke
    cases hstep
    exact hk.invoke hdrain
  · -- answer
    cases hstep
    exact hk.answer hdrain _ _
  · -- lockMutation
    next run =>
    split_ifs at hstep with hfree
    cases hstep
    obtain ⟨hrest, hfree⟩ := hfree
    obtain ⟨happending, -⟩ := holders_of_free hfree
    refine hk.goto (fun _ => rfl) ?_ ?_
    · rw [happending]
      rintro ⟨⟩
    · rintro stage ⟨⟩
      have hrun : s.RunKept run (run.rest.map contentHash) := hstage
      rw [hrest] at hrun
      exact hrun
  · -- buryAll
    next run =>
    cases hstep
    have hrun : s.RunKept run [] := hstage
    set text := deadLetterText s.deadLetter run.deadLetterEntries run.deadLetterHashes with htext
    have hdead : ∀ h ∈ readDeadLetterHashes s.deadLetter, h ∈ readDeadLetterHashes (s.deadLetter ++ text) := by
      intro h hh
      have htake := mem_readDeadLetterHashes_take hh run.deadLetterEntries run.deadLetterHashes text.length
      rwa [take_length] at htake
    refine hk.bury hdrain hdead (fun _ => rfl) ?_
    rintro stage ⟨⟩
    refine ⟨hrun.mono ⟨fun _ h => h, hdead, fun _ h => h⟩ fun _ _ => le_rfl, ?_⟩
    intro h hh
    obtain ⟨entry, hentry, rfl⟩ := mem_map.1 hh
    exact mem_readDeadLetterHashes_text hentry hrun.dead
  · -- buryStop
    cases hstep
    exact hk.bury hdrain (fun h hh => mem_readDeadLetterHashes_take hh _ _ _) (fun _ => rfl) nofun
  · -- rewrite
    cases hstep
    exact hk.rewrite hdrain
  · -- drainStop
    cases hstep
    exact hstop
  · cases hstep

end

end LessonSpool

end Kookr.Core
