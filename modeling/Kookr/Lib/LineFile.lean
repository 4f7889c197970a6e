import Kookr.Lib.Utf8

/-! Line-oriented text files. A writer appends complete lines; a reader decodes the
file, splits it at newlines and keeps the lines it understands. A file is aligned when
its last byte is a newline, so that the next line starts on its own. -/

namespace Kookr.Lib.LineFile

open List

variable {α : Type*} (f : List Char → Option α)

/-- The bytes of one line, closed by its newline. -/
def line (l : List Char) : Bytes := Utf8.encode (l ++ ['\n'])

/-- What a reader that understands lines through `f` finds in a file. -/
def read (f : List Char → Option α) (bs : Bytes) : List α :=
  ((Utf8.decode bs).splitOn '\n').filterMap f

def Aligned (bs : Bytes) : Prop := bs = [] ∨ bs.getLast? = some 0x0A

instance (bs : Bytes) : Decidable (Aligned bs) := inferInstanceAs (Decidable (_ ∨ _))

theorem aligned_nil : Aligned [] := .inl rfl

theorem aligned_append_line (bs : Bytes) (l : List Char) : Aligned (bs ++ line l) := by
  have hline : line l = Utf8.encode l ++ [0x0A] := by simp [line, Utf8.encode_cons]; rfl
  rw [hline, ← append_assoc]
  exact .inr getLast?_concat

theorem read_nil (hf : f [] = none) : read f [] = [] := by
  simp [read, Utf8.decode, Utf8.decodeFrom, Utf8.Decoder.start, splitOn_nil, hf]

theorem read_newline (bs rest : Bytes) : read f (bs ++ 0x0A :: rest) = read f bs ++ read f rest := by
  simp only [read]
  rw [Utf8.decode_newline, splitOn_append_cons_self, filterMap_append]

theorem read_append (hf : f [] = none) {bs : Bytes} (h : Aligned bs)
    (rest : Bytes) : read f (bs ++ rest) = read f bs ++ read f rest := by
  rcases h with rfl | h
  · simp [read_nil f hf]
  · obtain ⟨bs, rfl⟩ := getLast?_eq_some_iff.1 h
    rw [append_assoc, singleton_append, read_newline, read_newline, read_nil f hf, append_nil]

theorem read_line (hf : f [] = none) {l : List Char} (h : '\n' ∉ l) : read f (line l) = (f l).toList := by
  rw [read, line, Utf8.decode_encode, splitOn_append_cons_self_of_not_mem h]
  cases hl : f l <;> simp [hl, hf]

theorem line_eq (l : List Char) : line l = Utf8.encode l ++ [0x0A] := by
  rw [line, Utf8.encode_append]
  rfl

theorem read_lines (hf : f [] = none) {β : Type*} (text : β → List Char) {xs : List β}
    (h : ∀ x ∈ xs, '\n' ∉ text x) : read f (xs.flatMap fun x => line (text x)) = xs.filterMap fun x => f (text x) := by
  induction xs with
  | nil => exact read_nil f hf
  | cons x xs ih =>
    have haligned : Aligned (line (text x)) := aligned_append_line [] (text x)
    rw [flatMap_cons, read_append f hf haligned, read_line f hf (h x mem_cons_self),
      ih fun y hy => h y (mem_cons_of_mem _ hy)]
    cases hx : f (text x) <;> simp [hx]

/-- A line that was cut off, but for its newline, is read whole; what is read of less is up to the reader. -/
theorem read_cut (hf : f [] = none) {l : List Char} (h : '\n' ∉ l) {cut lost : Bytes}
    (hcut : cut ++ lost = line l) (hshort : ∀ kept c gone, l = kept ++ c :: gone → f kept = none ∧ f (kept ++ [Utf8.replacement]) = none) :
    lost.length ≤ 1 ∧ read f cut = (f l).toList ∨ 1 < lost.length ∧ read f cut = [] := by
  rw [line_eq] at hcut
  rcases eq_nil_or_concat lost with rfl | ⟨lost, b, rfl⟩
  · rw [append_nil] at hcut
    rw [hcut, ← line_eq, read_line f hf h]
    exact .inl ⟨Nat.zero_le _, rfl⟩
  rw [concat_eq_append, ← append_assoc] at hcut
  obtain ⟨htext, -⟩ := append_inj' hcut rfl
  have hsingle : ∀ cs : List Char, '\n' ∉ cs → cs.splitOn '\n' = [cs] := fun cs hcs => splitOn_eq_singleton hcs
  by_cases hlost : lost = []
  · subst hlost
    rw [append_nil] at htext
    rw [htext, read, Utf8.decode_encode, hsingle l h]
    refine .inl ⟨by simp, ?_⟩
    cases hl : f l <;> simp [hl]
  · obtain ⟨kept, c, gone, rfl, hdecode⟩ := Utf8.decode_cut htext hlost
    have hkept : '\n' ∉ kept := fun hmem => h (mem_append_left _ hmem)
    obtain ⟨hnone, hnone'⟩ := hshort kept c gone rfl
    refine .inr ⟨by simpa [length_pos_iff] using hlost, ?_⟩
    rcases hdecode with hdecode | hdecode
    · rw [read, hdecode, hsingle kept hkept]
      simp [hnone]
    · have hbroken : '\n' ∉ kept ++ [Utf8.replacement] := by
        simp only [mem_append, mem_singleton, hkept, false_or]
        decide
      rw [read, hdecode, hsingle _ hbroken]
      simp [hnone']

end Kookr.Lib.LineFile
