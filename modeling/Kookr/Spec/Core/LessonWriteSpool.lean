import Mathlib.Data.List.DropRight
import Mathlib.Data.List.Sort
import Kookr.Lib.Exec
import Kookr.Lib.History
import Kookr.Lib.JsonFields
import Kookr.Lib.JsonNumber
import Kookr.Lib.KeyedRows
import Kookr.Lib.LineFile
import Kookr.Spec.Remote.TerminalPublicationGate

/-! The spool of lesson writes (`src/core/lesson-write-spool.ts`): the lines of its two files, and the
appends and the drain that work on them. A call that waits for a lock has done nothing yet. Under the
mutation lock a read and the rename that replaces the pending file are one step; an append to a file may
stop at any byte of it, and the drain reads the pending file between two bytes of an append. -/

namespace Kookr.Core

open Kookr.Lib

def LESSON_WRITE_SPOOL_SCHEMA : String := "lesson-write-spool.v1"

def MAX_LESSON_DRAIN_ATTEMPTS : ℕ := 5

/-- A member of an object, if it is a string. -/
def stringMember (k : String) (members : List (String × Json)) : Option String :=
  (Json.lookup k members).bind Json.asStr

/-- What `readPendingLessons` asks of a line. -/
def isLessonWriteEntry (members : List (String × Json)) : Bool :=
  stringMember "schemaVersion" members = some LESSON_WRITE_SPOOL_SCHEMA &&
    ["contentHash", "kb", "title", "body", "createdAt"].all fun k => (stringMember k members).isSome

/-- `{ ...object, [k]: v }`. -/
def setMember (k : String) (v : Json) (members : List (String × Json)) : List (String × Json) :=
  if k ∈ members.map Prod.fst then members.map fun m => if m.1 = k then (k, v) else m else members ++ [(k, v)]

theorem lookup_map_replace (k k' : String) (v : Json) (members : List (String × Json)) :
    Json.lookup k' (members.map fun m => if m.1 = k then (k, v) else m) =
      if k' = k then if k ∈ members.map Prod.fst then some v else none else Json.lookup k' members := by
  induction members with
  | nil => simp
  | cons m members ih =>
    obtain ⟨k₁, v₁⟩ := m
    rw [List.map_cons]
    by_cases h₁ : k₁ = k
    · subst h₁
      rw [Json.lookup_cons, ih]
      by_cases hk : k' = k₁
      · subst hk
        by_cases hmem : k' ∈ members.map Prod.fst <;> simp [hmem]
      · simp [hk, Ne.symm hk]
    · rw [if_neg h₁, Json.lookup_cons, ih]
      by_cases hk : k' = k
      · subst hk
        simp only [if_true, List.map_cons, List.mem_cons, Ne.symm h₁, false_or, if_neg h₁, Option.or_none]
      · simp [hk]

theorem lookup_setMember (k k' : String) (v : Json) (members : List (String × Json)) :
    Json.lookup k' (setMember k v members) = if k' = k then some v else Json.lookup k' members := by
  unfold setMember
  by_cases hmem : k ∈ members.map Prod.fst
  · rw [if_pos hmem, lookup_map_replace, if_pos hmem]
  · rw [if_neg hmem, Json.lookup_append, Json.lookup_cons]
    by_cases hk : k' = k
    · simp [hk]
    · simp [hk, Ne.symm hk]

/-- `text.slice(0, n)`, in code units; half of a pair is read back as U+FFFD. -/
def sliceUnits : ℕ → List Char → List Char
  | _, [] => []
  | 0, _ => []
  | 1, c :: _ => if c.toNat < 0x10000 then [c] else [Utf8.replacement]
  | n + 2, c :: cs => c :: sliceUnits (if c.toNat < 0x10000 then n + 1 else n) cs

structure LessonWriteEntry where
  members : List (String × Json)
  isEntry : isLessonWriteEntry members = true

namespace LessonWriteEntry

variable (entry : LessonWriteEntry)

def contentHash : String := (stringMember "contentHash" entry.members).getD ""

def createdAt : String := (stringMember "createdAt" entry.members).getD ""

/-- The reserved replay attempts, 0 where there is no such count. -/
def attempts : ℕ := (((Json.lookup "attempts" entry.members).bind Json.asNum).bind NumLit.positiveInteger).getD 0

/-- The line of an entry, without its newline. -/
def text : List Char := Json.stringify (.obj entry.members)

/-- A member that the reader does not ask for is set. -/
def set (k : String) (v : Json) (hk : k ∉ ["schemaVersion", "contentHash", "kb", "title", "body", "createdAt"]) :
    LessonWriteEntry where
  members := setMember k v entry.members
  isEntry := by
    have hne : ∀ k' ∈ ["schemaVersion", "contentHash", "kb", "title", "body", "createdAt"],
        stringMember k' (setMember k v entry.members) = stringMember k' entry.members := by
      intro k' hk'
      rw [stringMember, stringMember, lookup_setMember, if_neg (by rintro rfl; exact hk hk')]
    have hentry := entry.isEntry
    simp only [List.mem_cons, List.not_mem_nil, or_false, forall_eq_or_imp, forall_eq] at hne
    obtain ⟨h₁, h₂, h₃, h₄, h₅, h₆⟩ := hne
    simpa only [isLessonWriteEntry, List.all_cons, List.all_nil, h₁, h₂, h₃, h₄, h₅, h₆] using hentry

/-- `{ ...entry, attempts: n }`. -/
def withAttempts (n : ℕ) : LessonWriteEntry := entry.set "attempts" (.num (NumLit.ofInt n)) (by decide)

/-- `{ ...entry, lastError: error?.slice(0, 500) ?? entry.lastError }`. -/
def withLastError : Option String → LessonWriteEntry
  | some error => entry.set "lastError" (.str (String.ofList (sliceUnits 500 error.toList))) (by decide)
  | none => entry

end LessonWriteEntry

/-- `line.trim()`. -/
def trimLine (line : List Char) : List Char := (line.dropWhile Remote.isTrimmed).rdropWhile Remote.isTrimmed

/-- What `readPendingLessons` makes of a line. -/
def readLine (line : List Char) : Option LessonWriteEntry :=
  match Json.parse (trimLine line) with
  | some (.obj members) => if h : isLessonWriteEntry members = true then some ⟨members, h⟩ else none
  | _ => none

/-- What `readDeadLetterHashes` makes of a line. -/
def deadLetterHash (line : List Char) : Option String :=
  (Json.parse line).bind fun parsed => (parsed.get "contentHash").bind Json.asStr

def readDeadLetterHashes (deadLetter : Bytes) : List String := LineFile.read deadLetterHash deadLetter

/-- The lines of entries, each closed by its newline. -/
def entryLines (entries : List LessonWriteEntry) : Bytes := entries.flatMap fun entry => LineFile.line entry.text

variable (localeCompare : String → String → Ordering)

/-- The last line of a hash, in the order of the dates. -/
def readPendingLessons (pending : Bytes) : List LessonWriteEntry :=
  (mapBy LessonWriteEntry.contentHash (LineFile.read readLine pending)).values.insertionSort
    fun a b => localeCompare a.createdAt b.createdAt ≠ .gt

/-- What `appendDeadLetters` writes: a line that a crash has left open is closed first. -/
def deadLetterText (deadLetter : Bytes) (entries : List LessonWriteEntry) (existingHashes : List String) : Bytes :=
  match entries.filter fun entry => entry.contentHash ∉ existingHashes with
  | [] => []
  | newEntries => if LineFile.Aligned deadLetter then entryLines newEntries else 0x0A :: entryLines newEntries

/-- A drain that works on a snapshot of the pending file. -/
structure DrainRun where
  pending : List LessonWriteEntry
  /-- Of these, the ones it has still to come to. -/
  rest : List LessonWriteEntry
  deadLetterHashes : List String
  remaining : List LessonWriteEntry
  deadLetterEntries : List LessonWriteEntry

inductive DrainStage where
  /-- It has the drain lock. -/
  | locked
  | readHashes (pending : List LessonWriteEntry)
  | next (run : DrainRun)
  /-- An attempt is reserved and the provider not yet called. -/
  | reserved (run : DrainRun) (entry : LessonWriteEntry)
  | writing (run : DrainRun) (entry : LessonWriteEntry)
  /-- It has the mutation lock, and no dead letters yet. -/
  | merging (run : DrainRun)
  | rewriting (run : DrainRun)

inductive LessonSpoolEffect where
  /-- `appendLessonWrite` returned `appended`. -/
  | appended (entry : LessonWriteEntry)
  | invoked (entry : LessonWriteEntry)
  | answered (entry : LessonWriteEntry) (ok : Bool)
  /-- The pending file has no readable line of the hash any more. -/
  | left (contentHash : String)

structure LessonSpool where
  pending : Bytes
  deadLetter : Bytes
  /-- The append that has the mutation lock, and what it has still to write. -/
  appending : Option (LessonWriteEntry × Bytes)
  drain : Option DrainStage
  /-- What nothing of the code reads. -/
  effects : List LessonSpoolEffect

inductive LessonSpoolEvent where
  | append (entry : LessonWriteEntry)
  | appendWrite (bytes : ℕ)
  | appendReturn
  /-- The process of the append crashes, or the write throws. -/
  | appendStop
  | drain
  | drainRead
  | drainHashes
  | skipDeadLetter
  | reserve
  | invoke
  | answer (ok : Bool) (error : Option String)
  | lockMutation
  | buryAll
  /-- The process crashes after that many bytes of the dead letters, or the write throws. -/
  | buryStop (bytes : ℕ)
  | rewrite
  /-- The process of the drain crashes, or something throws. -/
  | drainStop

def DrainRun.answered (run : DrainRun) (entry : LessonWriteEntry) (ok : Bool) (error : Option String) : DrainRun :=
  let failedEntry := entry.withLastError error
  if ok then run
  else if MAX_LESSON_DRAIN_ATTEMPTS ≤ entry.attempts then
    { run with deadLetterEntries := run.deadLetterEntries ++ [failedEntry] }
  else { run with remaining := run.remaining ++ [failedEntry] }

/-- What is left of the pending file after a drain. -/
def DrainRun.merged (run : DrainRun) (current : List LessonWriteEntry) : List LessonWriteEntry :=
  current.filterMap fun entry =>
    if entry.contentHash ∉ run.pending.map LessonWriteEntry.contentHash then some entry
    else rowAt LessonWriteEntry.contentHash run.remaining entry.contentHash

namespace LessonSpool

def start : LessonSpool := ⟨[], [], none, none, []⟩

variable (s : LessonSpool)

def mutationLockFree : Bool :=
  s.appending.isNone && match s.drain with
    | some (.merging _) | some (.rewriting _) => false
    | _ => true

def pendingHashes (pending : Bytes) : List String := (LineFile.read readLine pending).map LessonWriteEntry.contentHash

def setPending (pending : Bytes) : LessonSpool :=
  { s with
    pending
    effects := s.effects ++
      ((pendingHashes s.pending).filter fun h => h ∉ pendingHashes pending).map .left }

def appendLessonWrite (entry : LessonWriteEntry) : LessonSpool :=
  if entry.contentHash ∈ (readPendingLessons localeCompare s.pending).map LessonWriteEntry.contentHash then s
  else { s with appending := some (entry, LineFile.line entry.text) }

/-- `reserveLessonAttempt` for the first of the entries that are left, and what the drain does with the answer. -/
def reserveLessonAttempt (run : DrainRun) (contentHash : String) : LessonSpool :=
  let current := readPendingLessons localeCompare s.pending
  match current.find? fun entry => entry.contentHash = contentHash with
  | none => { s with drain := some (.next run) }
  | some entry =>
    if MAX_LESSON_DRAIN_ATTEMPTS ≤ entry.attempts then
      { s with drain := some (.next { run with deadLetterEntries := run.deadLetterEntries ++ [entry] }) }
    else
      let reserved := entry.withAttempts (entry.attempts + 1)
      let rewritten := current.map fun e => if e.contentHash = contentHash then reserved else e
      { s.setPending (entryLines rewritten) with drain := some (.reserved run reserved) }

def drainStep : DrainStage → LessonSpoolEvent → Option LessonSpool
  | .locked, .drainRead =>
    match readPendingLessons localeCompare s.pending with
    | [] => some { s with drain := none }
    | pending => some { s with drain := some (.readHashes pending) }
  | .readHashes pending, .drainHashes =>
    some { s with drain := some (.next ⟨pending, pending, readDeadLetterHashes s.deadLetter, [], []⟩) }
  | .next run, .skipDeadLetter =>
    match run.rest with
    | entry :: rest =>
      if entry.contentHash ∈ run.deadLetterHashes then some { s with drain := some (.next { run with rest }) } else none
    | [] => none
  | .next run, .reserve =>
    match run.rest with
    | entry :: rest =>
      if entry.contentHash ∉ run.deadLetterHashes ∧ s.mutationLockFree then
        some (s.reserveLessonAttempt localeCompare { run with rest } entry.contentHash)
      else none
    | [] => none
  | .reserved run entry, .invoke =>
    some { s with drain := some (.writing run entry), effects := s.effects ++ [.invoked entry] }
  | .writing run entry, .answer ok error =>
    some { s with
      drain := some (.next (run.answered entry ok error))
      effects := s.effects ++ [.answered entry ok] }
  | .next run, .lockMutation =>
    if run.rest = [] ∧ s.mutationLockFree then some { s with drain := some (.merging run) } else none
  | .merging run, .buryAll =>
    some { s with
      deadLetter := s.deadLetter ++ deadLetterText s.deadLetter run.deadLetterEntries run.deadLetterHashes
      drain := some (.rewriting run) }
  | .merging run, .buryStop bytes =>
    some { s with
      deadLetter := s.deadLetter ++ (deadLetterText s.deadLetter run.deadLetterEntries run.deadLetterHashes).take bytes
      drain := none }
  | .rewriting run, .rewrite =>
    some { s.setPending (entryLines (run.merged (readPendingLessons localeCompare s.pending))) with drain := none }
  | _, .drainStop => some { s with drain := none }
  | _, _ => none

def step (s : LessonSpool) : LessonSpoolEvent → Option LessonSpool
  | .append entry => if s.mutationLockFree then some (s.appendLessonWrite localeCompare entry) else none
  | .appendWrite bytes =>
    s.appending.map fun (entry, rest) =>
      { s.setPending (s.pending ++ rest.take bytes) with appending := some (entry, rest.drop bytes) }
  | .appendReturn =>
    match s.appending with
    | some (entry, []) => some { s with appending := none, effects := s.effects ++ [.appended entry] }
    | _ => none
  | .appendStop => s.appending.map fun _ => { s with appending := none }
  | .drain => if s.drain.isNone then some { s with drain := some .locked } else none
  | e => s.drain.bind fun stage => s.drainStep localeCompare stage e

end LessonSpool

end Kookr.Core
