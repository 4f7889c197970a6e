import Mathlib.Tactic.IntervalCases
import Mathlib.Tactic.Set
import Mathlib.Tactic.SplitIfs
import Mathlib.Data.Int.Notation

/-! `Date.prototype.toISOString` and the reading of its format by `Date.parse`, on
millisecond timestamps in the proleptic Gregorian calendar. -/

namespace Kookr.Lib

open List Nat

/-- The time values a `Date` can hold. -/
structure Timestamp where
  ms : ℤ
  inRange : -8640000000000000 ≤ ms ∧ ms ≤ 8640000000000000
  deriving DecidableEq, Repr

/-- `new Date(0)`. -/
def Timestamp.epoch : Timestamp := ⟨0, by decide⟩

namespace IsoDate

/-- Year of the 400-year era and day of that year, years starting on the first of
March, from the day of the era. -/
def splitEra (doe : ℤ) : ℤ × ℤ :=
  let century := min (doe / 36524) 3
  let doc := doe - century * 36524
  let quad := doc / 1461
  let doq := doc - quad * 1461
  let year := min (doq / 365) 3
  (century * 100 + quad * 4 + year, doq - year * 365)

/-- Year, month and day of a count of days since 1970-01-01. -/
def civilFromDays (days : ℤ) : ℤ × ℤ × ℤ :=
  let z := days + 719468
  let yd := splitEra (z % 146097)
  let mp := (5 * yd.2 + 2) / 153
  let m := if mp < 10 then mp + 3 else mp - 9
  (yd.1 + z / 146097 * 400 + (if m ≤ 2 then 1 else 0), m, yd.2 - (153 * mp + 2) / 5 + 1)

def daysFromCivil (y m d : ℤ) : ℤ :=
  let y' := if m ≤ 2 then y - 1 else y
  let mp := if m ≤ 2 then m + 9 else m - 3
  let yoe := y' % 400
  y' / 400 * 146097 + (yoe * 365 + yoe / 4 - yoe / 100 + ((153 * mp + 2) / 5 + d - 1)) - 719468

theorem leapDays (c q y : ℤ) (hq : 0 ≤ q ∧ q < 25) (hy : 0 ≤ y ∧ y < 4) :
    (c * 100 + q * 4 + y) / 4 = 25 * c + q ∧ (c * 100 + q * 4 + y) / 100 = c := by omega

theorem splitEra_spec (doe : ℤ) (h : 0 ≤ doe) (h' : doe < 146097) :
    0 ≤ (splitEra doe).1 ∧ (splitEra doe).1 < 400 ∧ 0 ≤ (splitEra doe).2 ∧ (splitEra doe).2 < 366 ∧
      (splitEra doe).1 * 365 + (splitEra doe).1 / 4 - (splitEra doe).1 / 100 + (splitEra doe).2 = doe := by
  simp only [splitEra]
  have hc : 0 ≤ min (doe / 36524) 3 ∧ min (doe / 36524) 3 < 4 ∧
      0 ≤ doe - min (doe / 36524) 3 * 36524 ∧ doe - min (doe / 36524) 3 * 36524 ≤ 36524 := by omega
  generalize min (doe / 36524) 3 = c at hc ⊢
  have hq : 0 ≤ (doe - c * 36524) / 1461 ∧ (doe - c * 36524) / 1461 < 25 ∧
      0 ≤ doe - c * 36524 - (doe - c * 36524) / 1461 * 1461 ∧
      doe - c * 36524 - (doe - c * 36524) / 1461 * 1461 < 1461 := by omega
  generalize (doe - c * 36524) / 1461 = q at hq ⊢
  have hy : 0 ≤ min ((doe - c * 36524 - q * 1461) / 365) 3 ∧
      min ((doe - c * 36524 - q * 1461) / 365) 3 < 4 ∧
      0 ≤ doe - c * 36524 - q * 1461 - min ((doe - c * 36524 - q * 1461) / 365) 3 * 365 ∧
      doe - c * 36524 - q * 1461 - min ((doe - c * 36524 - q * 1461) / 365) 3 * 365 < 366 := by omega
  generalize min ((doe - c * 36524 - q * 1461) / 365) 3 = y at hy ⊢
  obtain ⟨e4, e100⟩ := leapDays c q y ⟨hq.1, hq.2.1⟩ ⟨hy.1, hy.2.1⟩
  omega

theorem daysFromCivil_civilFromDays (days : ℤ) :
    daysFromCivil (civilFromDays days).1 (civilFromDays days).2.1 (civilFromDays days).2.2 = days := by
  obtain ⟨h0, h1, h2, h3, h4⟩ := splitEra_spec ((days + 719468) % 146097) (by omega) (by omega)
  simp only [civilFromDays]
  set yoe := (splitEra ((days + 719468) % 146097)).1
  set doy := (splitEra ((days + 719468) % 146097)).2
  have hera : (yoe + (days + 719468) / 146097 * 400) / 400 = (days + 719468) / 146097 ∧
      (yoe + (days + 719468) / 146097 * 400) % 400 = yoe := by omega
  have hmp : 0 ≤ (5 * doy + 2) / 153 ∧ (5 * doy + 2) / 153 ≤ 11 := by omega
  generalize (5 * doy + 2) / 153 = mp at hmp ⊢
  by_cases hlate : mp < 10
  · have hm : ¬ mp + 3 ≤ 2 := by omega
    simp only [daysFromCivil, hlate, if_true, hm, if_false, add_zero, hera]
    omega
  · have hm : mp - 9 ≤ 2 := by omega
    have hy : yoe + (days + 719468) / 146097 * 400 + 1 - 1 =
        yoe + (days + 719468) / 146097 * 400 := by omega
    simp only [daysFromCivil, hlate, if_true, hm, if_false, hy, hera]
    omega

theorem civilFromDays_month (days : ℤ) : 1 ≤ (civilFromDays days).2.1 ∧ (civilFromDays days).2.1 ≤ 12 ∧
      1 ≤ (civilFromDays days).2.2 ∧ (civilFromDays days).2.2 ≤ 31 := by
  obtain ⟨-, -, h2, h3, -⟩ := splitEra_spec ((days + 719468) % 146097) (by omega) (by omega)
  simp only [civilFromDays]
  split_ifs <;> omega

theorem civilFromDays_year (days : ℤ) (h : -100000000 ≤ days ∧ days ≤ 100000000) :
    -300000 ≤ (civilFromDays days).1 ∧ (civilFromDays days).1 ≤ 300000 := by
  obtain ⟨h0, h1, -, -, -⟩ := splitEra_spec ((days + 719468) % 146097) (by omega) (by omega)
  simp only [civilFromDays]
  have hera : -700 ≤ (days + 719468) / 146097 ∧ (days + 719468) / 146097 ≤ 690 := by omega
  split_ifs <;> omega

/-- `n` in decimal, padded to `w` digits. -/
def pad : ℕ → ℕ → List Char
  | 0, _ => []
  | w + 1, n => pad w (n / 10) ++ [Nat.digitChar (n % 10)]

def readPad (cs : List Char) : ℕ := Nat.ofDigitChars 10 cs 0

@[simp] theorem pad_length (w n : ℕ) : (pad w n).length = w := by
  induction w generalizing n with
  | zero => rfl
  | succ w ih => simp [pad, ih]

theorem readPad_pad (w n : ℕ) (h : n < 10 ^ w) : readPad (pad w n) = n := by
  induction w generalizing n with
  | zero => simp [readPad, pad]; omega
  | succ w ih =>
    have hd : n / 10 < 10 ^ w := by rw [pow_succ] at h; omega
    have hih := ih (n / 10) hd
    unfold readPad at hih
    rw [readPad, pad, ofDigitChars_append, ofDigitChars_cons_digitChar_of_lt_ten (mod_lt _ (by omega)), ofDigitChars_nil]
    omega

/-- Years outside 0 to 9999 are written with a sign and six digits. -/
def yearText (y : ℤ) : List Char :=
  if 0 ≤ y ∧ y ≤ 9999 then pad 4 y.toNat
  else (if y < 0 then '-' else '+') :: pad 6 y.natAbs

def readYear (cs : List Char) : ℤ × List Char :=
  match cs with
  | '-' :: rest => (-(readPad (rest.take 6) : ℤ), rest.drop 6)
  | '+' :: rest => ((readPad (rest.take 6) : ℤ), rest.drop 6)
  | _ => ((readPad (cs.take 4) : ℤ), cs.drop 4)

def toISOString (t : Timestamp) : List Char :=
  let civil := civilFromDays (t.ms / 86400000)
  let rest := (t.ms % 86400000).toNat
  yearText civil.1 ++ '-' :: pad 2 civil.2.1.toNat ++ '-' :: pad 2 civil.2.2.toNat ++
    'T' :: pad 2 (rest / 3600000) ++ ':' :: pad 2 (rest / 60000 % 60) ++
    ':' :: pad 2 (rest / 1000 % 60) ++ '.' :: pad 3 (rest % 1000) ++ ['Z']

/-- What follows the year, as a time value. -/
def readAfterYear (y : ℤ) : List Char → Option ℤ
  | ['-', m₁, m₂, '-', d₁, d₂, 'T', h₁, h₂, ':', n₁, n₂, ':', s₁, s₂, '.', f₁, f₂, f₃, 'Z'] =>
    some (daysFromCivil y (readPad [m₁, m₂]) (readPad [d₁, d₂]) * 86400000 +
      ((readPad [h₁, h₂] * 3600000 + readPad [n₁, n₂] * 60000 + readPad [s₁, s₂] * 1000 +
        readPad [f₁, f₂, f₃] : ℕ) : ℤ))
  | _ => none

def ofMs (ms : ℤ) : Option Timestamp :=
  if h : -8640000000000000 ≤ ms ∧ ms ≤ 8640000000000000 then some ⟨ms, h⟩ else none

/-- `Date.parse` on the format of `toISOString`; other text is refused here. -/
def dateParse (cs : List Char) : Option Timestamp :=
  (readAfterYear (readYear cs).1 (readYear cs).2).bind ofMs

theorem pad_two (n : ℕ) : pad 2 n = [digitChar (n / 10 % 10), digitChar (n % 10)] := rfl

theorem pad_three (n : ℕ) : pad 3 n =
    [digitChar (n / 10 / 10 % 10), digitChar (n / 10 % 10), digitChar (n % 10)] := rfl

theorem pad_head_ne_sign (w n : ℕ) : ∃ c cs, pad (w + 1) n = c :: cs ∧ c ≠ '-' ∧ c ≠ '+' := by
  induction w generalizing n with
  | zero =>
    refine ⟨digitChar (n % 10), [], rfl, ?_, ?_⟩ <;>
    · have : n % 10 < 10 := mod_lt _ (by omega)
      interval_cases n % 10 <;> decide
  | succ w ih =>
    obtain ⟨c, cs, h, hc⟩ := ih (n / 10)
    exact ⟨c, cs ++ [digitChar (n % 10)], by rw [pad, h]; rfl, hc⟩

theorem readYear_yearText (y : ℤ) (h : -999999 ≤ y ∧ y ≤ 999999) (rest : List Char) :
    readYear (yearText y ++ rest) = (y, rest) := by
  unfold yearText
  split_ifs with h1 h2
  · obtain ⟨c, cs, hp, hm, hs⟩ := pad_head_ne_sign 3 y.toNat
    have hlen : (pad 4 y.toNat).length = 4 := pad_length 4 _
    have : readYear (pad 4 y.toNat ++ rest) =
        ((readPad ((pad 4 y.toNat ++ rest).take 4) : ℤ), (pad 4 y.toNat ++ rest).drop 4) := by
      rw [hp]; unfold readYear; split <;> simp_all
    rw [this, take_left' hlen, readPad_pad 4 _ (by omega)]
    congr 1
    omega
  · rw [cons_append]
    simp only [readYear]
    rw [take_left' (pad_length 6 _), readPad_pad 6 _ (by omega)]
    congr 1
    omega
  · rw [cons_append]
    simp only [readYear]
    rw [take_left' (pad_length 6 _), readPad_pad 6 _ (by omega)]
    congr 1
    omega

theorem dateParse_toISOString (t : Timestamp) : dateParse (toISOString t) = some t := by
  obtain ⟨ms, hms⟩ := t
  have hmonth := civilFromDays_month (ms / 86400000)
  have hyear := civilFromDays_year (ms / 86400000) (by omega)
  have hback := daysFromCivil_civilFromDays (ms / 86400000)
  simp only [toISOString]
  generalize civilFromDays (ms / 86400000) = civil at hmonth hyear hback ⊢
  obtain ⟨y, m, d⟩ := civil
  simp only at hmonth hyear hback ⊢
  have hr : (ms % 86400000).toNat < 86400000 ∧ ((ms % 86400000).toNat : ℤ) = ms % 86400000 := by omega
  generalize (ms % 86400000).toNat = rest at hr ⊢
  have em : readPad (pad 2 m.toNat) = m.toNat := readPad_pad 2 _ (by omega)
  have ed : readPad (pad 2 d.toNat) = d.toNat := readPad_pad 2 _ (by omega)
  have eh : readPad (pad 2 (rest / 3600000)) = rest / 3600000 := readPad_pad 2 _ (by omega)
  have en : readPad (pad 2 (rest / 60000 % 60)) = rest / 60000 % 60 := readPad_pad 2 _ (by omega)
  have es : readPad (pad 2 (rest / 1000 % 60)) = rest / 1000 % 60 := readPad_pad 2 _ (by omega)
  have ef : readPad (pad 3 (rest % 1000)) = rest % 1000 := readPad_pad 3 _ (by omega)
  rw [pad_two] at em ed eh en es
  rw [pad_three] at ef
  simp only [dateParse, append_assoc, cons_append]
  rw [readYear_yearText y (by omega)]
  simp only [readAfterYear, pad_two, pad_three, cons_append, nil_append, em, ed, eh, en,
    es, ef, Option.bind_some]
  have hval : daysFromCivil y (m.toNat : ℤ) (d.toNat : ℤ) * 86400000 + ((rest / 3600000 * 3600000 +
      rest / 60000 % 60 * 60000 + rest / 1000 % 60 * 1000 + rest % 1000 : ℕ) : ℤ) = ms := by
    rw [show (m.toNat : ℤ) = m by omega, show (d.toNat : ℤ) = d by omega]
    omega
  rw [hval, ofMs, dif_pos hms]

end IsoDate

end Kookr.Lib
