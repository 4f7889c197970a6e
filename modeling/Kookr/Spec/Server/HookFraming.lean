import Kookr.Spec.Realtime.ViewerBroadcaster
import Kookr.Spec.Server.HookTail

/-! The framing of hook records (`src/server/hook-record-framing.ts`) on code units: any string, also one that was cut inside
a pair. The loops take fuel and have no result without it. -/

namespace Kookr.Server.Units

open Kookr.Lib Kookr.Remote Kookr.Realtime

/-- A code unit as it is compared. Half of a pair is none of the characters that the scan looks for. -/
def charOf (u : UInt16) : Char := Char.ofNat u.toNat

/-- `/\s/`, which is also what `trim` removes. -/
def isSpace (u : UInt16) : Bool := isTrimmed (charOf u)

def lineEnd (content : List UInt16) : Option ℕ := (content.map charOf).idxOf? '\n'

structure HookRecords where
  records : List (List UInt16)
  consumedChars : ℕ
  deriving DecidableEq

def HookRecords.append (r r' : HookRecords) : HookRecords := ⟨r.records ++ r'.records, r.consumedChars + r'.consumedChars⟩

/-- Where the record at the start of a text ends, and where the scan goes on. -/
def recordAt : List UInt16 → Option (ℕ × ℕ)
  | [] => none
  | ch :: rest =>
    if charOf ch = '\x7b' then (objectEnd .start ((ch :: rest).map charOf)).map fun i => (i, i)
    else (lineEnd (ch :: rest)).map fun i => (i, i + 1)

/-- The outer loop of `splitHookRecords`, in front of the content that is left. -/
def splitLoop : ℕ → List UInt16 → Option HookRecords
  | 0, _ => none
  | fuel + 1, content =>
    let spaces := (content.takeWhile isSpace).length
    let rest := content.dropWhile isSpace
    match recordAt rest with
    | none => some ⟨[], spaces⟩
    | some (i, next) =>
      (splitLoop fuel (rest.drop next)).map fun r => ⟨rest.take i :: r.records, spaces + next + r.consumedChars⟩

def splitHookRecords (content : List UInt16) : HookRecords := (splitLoop (content.length + 1) content).getD ⟨[], 0⟩

/-- The loop of `splitHookRequestBody`. What the framer does not take goes by lines. -/
def bodyLoop : ℕ → List UInt16 → Option (List (List UInt16))
  | 0, _ => none
  | fuel + 1, content =>
    match content.dropWhile isSpace with
    | [] => some []
    | ch :: rest =>
      let framed := splitHookRecords (ch :: rest)
      if framed.records ≠ [] then
        (bodyLoop fuel ((ch :: rest).drop framed.consumedChars)).map fun records => framed.records ++ records
      else
        match lineEnd (ch :: rest) with
        | none => some [ch :: rest]
        | some i => (bodyLoop fuel ((ch :: rest).drop (i + 1))).map fun records => (ch :: rest).take i :: records

def splitHookRequestBody (content : List UInt16) : List (List UInt16) := (bodyLoop (content.length + 1) content).getD []

/-- A reader of a growing text: what it has not consumed stands in front of the next piece. -/
def tailPiece (read : List UInt16 × HookRecords) (piece : List UInt16) : List UInt16 × HookRecords :=
  let content := read.1 ++ piece
  let framed := splitHookRecords content
  (content.drop framed.consumedChars, read.2.append framed)

def tailPieces (pieces : List (List UInt16)) : List UInt16 × HookRecords := pieces.foldl tailPiece ([], ⟨[], 0⟩)

def utf16 (text : List Char) : List UInt16 := (codeUnits (String.ofList text)).map UInt16.ofNat

/-- The text of a JSON object. -/
structure JsonObject extends JsonRecord where
  isObject : text.head? = some '\x7b'

structure White where
  text : List Char
  isWhite : text.all isTrimmed = true

end Kookr.Server.Units
