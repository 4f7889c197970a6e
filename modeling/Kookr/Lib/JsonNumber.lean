import Kookr.Lib.Json
import Mathlib.Data.List.TakeWhile
import Mathlib.Tactic.IntervalCases
import Mathlib.Tactic.SplitIfs
import Mathlib.Data.Int.Notation
import Mathlib.Algebra.Group.Nat.Defs

/-! Integers as JSON number literals. -/

namespace Kookr.Lib.NumLit

open List Nat

def intText (z : ℤ) : List Char :=
  if z < 0 then '-' :: Nat.toDigits 10 z.natAbs else Nat.toDigits 10 z.natAbs

theorem isDigit_of_mem {n : ℕ} {c : Char} (h : c ∈ toDigits 10 n) : c.isDigit = true :=
  isDigit_of_mem_toDigits (by decide) (by decide) h

theorem digitChar_ne_zero {n : ℕ} (h0 : 0 < n) (h : n < 10) : digitChar n ≠ '0' := by
  interval_cases n <;> decide

/-- No leading zero: a literal of more than one digit does not start with `0`. -/
theorem toDigits_head {n : ℕ} (h : 0 < n) : ∃ c cs, toDigits 10 n = c :: cs ∧ c ≠ '0' := by
  induction n using Nat.strong_induction_on with
  | _ n ih =>
    by_cases hlt : n < 10
    · exact ⟨_, [], toDigits_of_lt_base hlt, digitChar_ne_zero h hlt⟩
    · obtain ⟨c, cs, hc, hne⟩ := ih (n / 10) (by omega) (by omega)
      rw [toDigits_of_base_le (by decide) (by omega), hc]
      exact ⟨c, cs ++ [digitChar (n % 10)], rfl, hne⟩

theorem integer_toDigits (n : ℕ) : NumGrammar.integer (toDigits 10 n) = true := by
  rcases Nat.eq_zero_or_pos n with rfl | hn
  · rw [toDigits_zero]; rfl
  · obtain ⟨c, cs, hcs, hne⟩ := toDigits_head hn
    have hall : ∀ d ∈ c :: cs, d.isDigit = true := fun d hd => isDigit_of_mem (hcs ▸ hd)
    have hdrop : cs.dropWhile Char.isDigit = [] :=
      dropWhile_eq_nil_iff.2 fun d hd => hall d (mem_cons_of_mem _ hd)
    have hend : NumGrammar.fraction [] = true := rfl
    rw [hcs, NumGrammar.integer.eq_def]
    split
    · rename_i heq
      exact absurd (cons.inj heq).1 hne
    · rename_i heq
      obtain ⟨rfl, rfl⟩ := cons.inj heq
      rw [hall c mem_cons_self, hdrop]
      rfl
    · rename_i heq
      exact absurd heq (cons_ne_nil c cs)

theorem intText_chars (z : ℤ) : (intText z).all isNumChar = true := by
  have hd : ∀ c ∈ toDigits 10 z.natAbs, isNumChar c = true := by
    intro c hc
    simp [isNumChar, isDigit_of_mem hc]
  rw [all_eq_true]
  unfold intText
  split_ifs
  · intro c hc
    rcases mem_cons.1 hc with rfl | hc
    · decide
    · exact hd c hc
  · exact hd

theorem toDigits_head_ne_minus (n : ℕ) : ∃ c cs, toDigits 10 n = c :: cs ∧ c ≠ '-' := by
  cases h : toDigits 10 n with
  | nil => exact absurd h toDigits_ne_nil
  | cons c cs =>
    refine ⟨c, cs, rfl, ?_⟩
    rintro rfl
    exact absurd (isDigit_of_mem (n := n) (by rw [h]; exact mem_cons_self)) (by decide)

theorem intText_valid (z : ℤ) : NumGrammar.number (intText z) = true := by
  unfold intText
  split_ifs
  · exact integer_toDigits _
  · obtain ⟨c, cs, hcs, hne⟩ := toDigits_head_ne_minus z.natAbs
    have h := integer_toDigits z.natAbs
    rw [hcs] at h ⊢
    rw [NumGrammar.number.eq_def]
    split
    · simp_all
    · exact h

def ofInt (z : ℤ) : NumLit := ⟨intText z, intText_chars z, intText_valid z⟩

/-- The value of a literal written as an integer. -/
def toInt (n : NumLit) : Option ℤ :=
  match n.text with
  | '-' :: cs => if cs.all Char.isDigit then some (-(Nat.ofDigitChars 10 cs 0 : ℤ)) else none
  | cs => if cs.all Char.isDigit then some (Nat.ofDigitChars 10 cs 0 : ℤ) else none

theorem toInt_ofInt (z : ℤ) : (ofInt z).toInt = some z := by
  have hall : (toDigits 10 z.natAbs).all Char.isDigit = true :=
    all_eq_true.2 fun c hc => isDigit_of_mem hc
  have hval : ofDigitChars 10 (toDigits 10 z.natAbs) 0 = z.natAbs := ofDigitChars_ten_toDigits
  by_cases hz : z < 0
  · have ht : (ofInt z).text = '-' :: toDigits 10 z.natAbs := by simp [ofInt, intText, hz]
    simp only [toInt, ht, hall, if_true, hval]
    congr 1
    omega
  · obtain ⟨c, cs, hcs, hne⟩ := toDigits_head_ne_minus z.natAbs
    have ht : (ofInt z).text = c :: cs := by simp [ofInt, intText, hz, hcs]
    rw [hcs] at hall hval
    rw [toInt, ht]
    split
    · simp_all
    · rw [if_pos hall]
      congr 1
      omega

end Kookr.Lib.NumLit

/-! The value of a number literal as `JSON.parse` rounds it, where it is a positive integer. The
number nearest to the literal has 53 bits; a tie goes to the even one. -/

namespace Kookr.Lib.NumLit

/-- The digits of a literal, and the power of ten they are multiplied by. -/
structure Decimal where
  negative : Bool
  digits : ℕ
  scale : Int

def exponentOf : List Char → Int
  | _ :: '+' :: ds => Nat.ofDigitChars 10 ds 0
  | _ :: '-' :: ds => -(Nat.ofDigitChars 10 ds 0)
  | _ :: ds => Nat.ofDigitChars 10 ds 0
  | [] => 0

def decimal (n : NumLit) : Decimal :=
  let negative := n.text.head? = some '-'
  let text := if negative then n.text.drop 1 else n.text
  let whole := text.takeWhile Char.isDigit
  let rest := text.dropWhile Char.isDigit
  let (fraction, rest) :=
    match rest with
    | '.' :: more => (more.takeWhile Char.isDigit, more.dropWhile Char.isDigit)
    | _ => ([], rest)
  ⟨negative, Nat.ofDigitChars 10 (whole ++ fraction) 0, exponentOf rest - fraction.length⟩

/-- The quotient, rounded to the nearest integer, or to the even one of two. -/
def roundQuotient (num den : ℕ) : ℕ :=
  let q := num / den
  let r := num % den
  if 2 * r < den then q else if den < 2 * r then q + 1 else q + q % 2

/-- The double nearest to the quotient, if it is a positive integer. -/
def roundPositive (num den : ℕ) : Option ℕ :=
  -- below one half nothing rounds to an integer
  if 2 * num < den then none
  else
    let bits := if num < den then 0 else Nat.log2 (num / den) + 1
    if bits ≤ 53 then
      let unit := 2 ^ (53 - bits)
      let mantissa := roundQuotient (num * unit) den
      if mantissa % unit = 0 then some (mantissa / unit) else none
    else
      let unit := 2 ^ (bits - 53)
      let value := roundQuotient num (den * unit) * unit
      if value < 2 ^ 1024 then some value else none

/-- `Number.isInteger(x) && x > 0`, and then `x`. -/
def positiveInteger (n : NumLit) : Option ℕ :=
  let d := n.decimal
  if d.negative ∨ d.digits = 0 then none
  else if 0 ≤ d.scale then roundPositive (d.digits * 10 ^ d.scale.toNat) 1
  else roundPositive d.digits (10 ^ (-d.scale).toNat)

end Kookr.Lib.NumLit

/-! The text of finite numbers: what `String(x)` gives, and `JSON.stringify` as well, and how
`Number(text)` reads it. -/

namespace Kookr.Lib

structure NumberText (ν : Type*) where
  lit : ν → NumLit
  /-- `Number(text)`, where it is finite. -/
  value : List Char → Option ν
  value_lit : ∀ x, value (lit x).text = some x

namespace NumberText

/-- The value of a text that is a literal of an integer. -/
def intValue (text : List Char) : Option ℤ :=
  if h : text.all isNumChar = true ∧ NumGrammar.number text = true then NumLit.toInt ⟨text, h.1, h.2⟩ else none

def int : NumberText ℤ where
  lit := NumLit.ofInt
  value := intValue
  value_lit z := by
    unfold intValue
    rw [dif_pos ⟨(NumLit.ofInt z).chars, (NumLit.ofInt z).valid⟩]
    exact NumLit.toInt_ofInt z

end NumberText

end Kookr.Lib
