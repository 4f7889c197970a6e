import Mathlib.Data.Rat.Floor
import Mathlib.Logic.Function.Basic

/-! Log files in generations (`src/core/jsonl-rotation.ts`). Generation 0 is the live file. A file is what was appended to it, one text
after the other. The modes of files and of the directory are left out. -/

namespace Kookr.Core

open Function

structure JsonlRotationOptions where
  maxBytes : ℚ
  rotatedGenerations : ℚ

abbrev LogFiles := ℕ → Option (List String)

/-- An operation on the files; what is not there is passed over. -/
inductive LogFileOp where
  | unlink (generation : ℕ)
  /-- To the next generation. -/
  | rename (generation : ℕ)
  | appendFile (lines : String)

namespace JsonlRotationOptions

variable (options : JsonlRotationOptions)

def maxSize : ℤ := max 1 ⌊options.maxBytes⌋

def generations : ℕ := (max 1 ⌊options.rotatedGenerations⌋).toNat

end JsonlRotationOptions

namespace LogFiles

def apply (files : LogFiles) : LogFileOp → LogFiles
  | .unlink generation => update files generation none
  | .rename generation =>
    match files generation with
    | none => files
    | some file => update (update files (generation + 1) (some file)) generation none
  | .appendFile lines => update files 0 (some ((files 0).getD [] ++ [lines]))

def byteLength (file : List String) : ℕ := (file.map String.utf8ByteSize).sum

end LogFiles

/-- The renames go down to the live file. -/
def rotateJsonl (rotatedGenerations : ℕ) : List LogFileOp :=
  .unlink rotatedGenerations :: (List.range rotatedGenerations).reverse.map .rename

/-- The operations of a call, in their order. -/
def appendJsonlWithRotation (options : JsonlRotationOptions) (files : LogFiles) (lines : String) : List LogFileOp :=
  let currentSize := ((files 0).map LogFiles.byteLength).getD 0
  (if 0 < currentSize ∧ options.maxSize < currentSize + lines.utf8ByteSize then rotateJsonl options.generations else []) ++ [.appendFile lines]

end Kookr.Core
