import Kookr.Lib.Json
import Kookr.Lib.Utf8
import Kookr.Spec.Remote.TerminalPublicationGate
import Kookr.Lib.Exec

/-! The framing of hook records (`src/server/hook-record-framing.ts`): the scan of a text
for complete records, and the records that a writer appends. `/\s/` matches what `trim`
removes. A position counts characters. -/

namespace Kookr.Server

open Kookr.Lib Kookr.Remote

/-- The inner loop, in front of a character. -/
structure ObjectScan where
  depth : ℕ
  inString : Bool
  escaped : Bool
  deriving DecidableEq

def ObjectScan.start : ObjectScan := ⟨0, false, false⟩

/-- Nothing when the character closes the object. -/
def ObjectScan.step (s : ObjectScan) (ch : Char) : Option ObjectScan :=
  if s.inString then
    if s.escaped then some { s with escaped := false }
    else if ch = '\\' then some { s with escaped := true }
    else if ch = '"' then some { s with inString := false }
    else some s
  else if ch = '"' then some { s with inString := true }
  else if ch = '\x7b' then some { s with depth := s.depth + 1 }
  else if ch = '\x7d' then if s.depth = 1 then none else some { s with depth := s.depth - 1 }
  else some s

/-- How many characters there are up to the one that closes the object. -/
def objectEnd : ObjectScan → List Char → Option ℕ
  | _, [] => none
  | s, ch :: rest =>
    match s.step ch with
    | none => some 1
    | some s => (objectEnd s rest).map (· + 1)

structure HookRecords where
  records : List (List Char)
  consumedChars : ℕ
  deriving DecidableEq

def HookRecords.cons (record : List Char) (r : HookRecords) : HookRecords := { r with records := record :: r.records }

/-- The outer loop at position `i`, in front of `content`. Every turn takes a character at
least, so that the length of the text is enough fuel. -/
def splitLoop : ℕ → List Char → ℕ → HookRecords
  | 0, _, i => ⟨[], i⟩
  | fuel + 1, content, i =>
    let rest := content.dropWhile isTrimmed
    let i := i + (content.takeWhile isTrimmed).length
    match rest with
    | [] => ⟨[], i⟩
    | ch :: _ =>
      if ch = '\x7b' then
        match objectEnd .start rest with
        | none => ⟨[], i⟩
        | some n => (splitLoop fuel (rest.drop n) (i + n)).cons (rest.take n)
      else
        match rest.idxOf? '\n' with
        | none => ⟨[], i⟩
        | some n => (splitLoop fuel (rest.drop (n + 1)) (i + (n + 1))).cons (rest.take n)

def splitHookRecords (content : List Char) : HookRecords := splitLoop content.length content 0

/-- A JSON text with no white space around it, on one line unless it is an object. -/
def isJsonRecord (text : List Char) : Bool :=
  (Json.parse text).isSome && !text.head?.any isTrimmed && !text.getLast?.any isTrimmed &&
    (text.head? == some '\x7b' || '\n' ∉ text)

structure JsonRecord where
  text : List Char
  isRecord : isJsonRecord text = true
  deriving DecidableEq

/-- What the writer appends for the records. -/
def recordLines (records : List JsonRecord) : List Char := records.flatMap fun r => r.text ++ ['\n']

end Kookr.Server

/-! A hook file that a writer appends to and rotates (`bin/kookr-hook-writer.js`), and the
watcher that reads its tail (`src/server/hook-watcher.ts`). A file is known by its inode,
the number of its creation, and holds complete records; the watcher sees its bytes. Each
`await` of a pass is a step of its own. -/

namespace Kookr.Server

open Kookr.Lib Kookr.Remote

structure HookDisk where
  files : ℕ → List JsonRecord
  created : ℕ
  /-- The inode under the path of the hook file. -/
  active : Option ℕ
  /-- The inode under the path with `.1`. -/
  rotated : Option ℕ

namespace HookDisk

def bytes (d : HookDisk) (ino : ℕ) : Bytes := Utf8.encode (recordLines (d.files ino))

def size (d : HookDisk) (ino : ℕ) : ℕ := (d.bytes ino).length

def readFileRange (d : HookDisk) (ino start length : ℕ) : Bytes := ((d.bytes ino).drop start).take length

/-- All records, in the order of writing. -/
def written (d : HookDisk) : List JsonRecord := (List.range d.created).flatMap d.files

end HookDisk

/-- What `readNewLines` waits for, with its locals: `ino` and `size` are the active file's
stat. -/
inductive PassPhase where
  | idle
  | activeStat
  | tailStat (prevInode ino size : ℕ)
  | tailOpen (ino size start length : ℕ)
  | tailRead (handle ino size start length : ℕ)
  | activeOpen (start length : ℕ)
  | activeRead (handle start length : ℕ)
  deriving DecidableEq

structure HookTail where
  disk : HookDisk
  /-- `offsets`, `inodes` and `reading` for the session. -/
  offset : ℕ
  inode : Option ℕ
  phase : PassPhase
  injected : List (List Char)
  /-- What had been written when the last pass began. -/
  present : List JsonRecord

namespace HookTail

def initial : HookTail := ⟨⟨fun _ => [], 0, none, none⟩, 0, none, .idle, [], []⟩

/-- The framed records of a buffer, except for blank ones, go to `injectHookEvent`. -/
def inject (s : HookTail) (framed : HookRecords) : HookTail :=
  { s with injected := s.injected ++ framed.records.filter fun line => !line.all isTrimmed }

/-- Record the inode, and read what there is behind the offset. -/
def settle (s : HookTail) (ino size offset : ℕ) : HookTail :=
  { s with
    inode := some ino
    offset := offset
    phase := if size = offset then .idle else .activeOpen offset (size - offset) }

/-- The next `await` of the pass is over. A file that is not there ends the read of it. -/
def advance (s : HookTail) : HookTail :=
  match s.phase with
  | .idle => s
  | .activeStat =>
    match s.disk.active with
    | none => { s with phase := .idle }
    | some ino =>
      let size := s.disk.size ino
      let settled := s.settle ino size (if s.offset > size then 0 else s.offset)
      match s.inode with
      | none => settled
      | some prevInode => if ino ≠ prevInode then { s with phase := .tailStat prevInode ino size } else settled
  | .tailStat prevInode ino size =>
    match s.disk.rotated with
    | none => s.settle ino size 0
    | some rotated =>
      if rotated ≠ prevInode || s.disk.size rotated ≤ s.offset then s.settle ino size 0
      else { s with phase := .tailOpen ino size s.offset (s.disk.size rotated - s.offset) }
  | .tailOpen ino size start length =>
    match s.disk.rotated with
    | none => s.settle ino size 0
    | some rotated => { s with phase := .tailRead rotated ino size start length }
  | .tailRead handle ino size start length =>
    let buffer := s.disk.readFileRange handle start length
    (s.inject (splitHookRecords (Utf8.decode buffer))).settle ino size 0
  | .activeOpen start length =>
    match s.disk.active with
    | none => { s with phase := .idle }
    | some ino => { s with phase := .activeRead ino start length }
  | .activeRead handle start length =>
    let newContent := Utf8.decode (s.disk.readFileRange handle start length)
    let framed := splitHookRecords newContent
    let consumedBytes := (Utf8.encode (newContent.take framed.consumedChars)).length
    { s.inject framed with offset := start + consumedBytes, phase := .idle }

inductive Event where
  /-- The writer opens the hook file, which creates it where it is not there. -/
  | create
  | append (record : JsonRecord)
  /-- The writer renames the hook file, which is not empty. -/
  | rotate
  | begin
  | advance

def step (s : HookTail) : Event → Option HookTail
  | .create =>
    match s.disk.active with
    | none => some { s with disk := { s.disk with active := some s.disk.created, created := s.disk.created + 1 } }
    | some _ => some s
  | .append record =>
    s.disk.active.map fun ino =>
      { s with disk := { s.disk with files := Function.update s.disk.files ino (s.disk.files ino ++ [record]) } }
  | .rotate =>
    match s.disk.active with
    | none => none
    | some ino =>
      if s.disk.files ino = [] then none else some { s with disk := { s.disk with active := none, rotated := some ino } }
  -- a call that finds the session being read returns
  | .begin => some (if s.phase = .idle then { s with phase := .activeStat, present := s.disk.written } else s)
  | .advance => if s.phase = .idle then none else some s.advance

end HookTail

end Kookr.Server
