import Kookr.Lib.Json
import Mathlib.Tactic.IntervalCases
import Mathlib.Tactic.SplitIfs

/-! `JSON.parse` inverts `JSON.stringify`, and what `stringify` prints fits on one line.
A value is read back exactly even when more text follows, provided that text does not
continue a number. -/

namespace Kookr.Lib.Json

open List

theorem hexVal_hexDigit {n : ℕ} (h : n < 16) : hexVal (hexDigit n) = some n := by
  interval_cases n <;> rfl

theorem hexDigit_ascii {n : ℕ} (h : n < 16) : (hexDigit n).toNat ≠ 10 := by
  interval_cases n <;> decide

theorem parseUnits_escChar (c : Char) (rest : List Char) :
    parseUnits (escChar c ++ rest) = (parseUnits rest).map fun p => (c.toNat :: p.1, p.2) := by
  unfold escChar
  split_ifs with h1 h2 h3 h4 h5 h6 h7 h8
  · subst h1; rfl
  · subst h2; rfl
  · simp only [cons_append, nil_append, h3]; rfl
  · simp only [cons_append, nil_append, h4]; rfl
  · simp only [cons_append, nil_append, h5]; rfl
  · simp only [cons_append, nil_append, h6]; rfl
  · simp only [cons_append, nil_append, h7]; rfl
  · have hhex : hex4 '0' '0' (hexDigit (c.toNat / 16)) (hexDigit (c.toNat % 16)) = some c.toNat := by
      have hz : hexVal '0' = some 0 := rfl
      simp only [hex4, hz, hexVal_hexDigit (show c.toNat / 16 < 16 by omega),
        hexVal_hexDigit (show c.toNat % 16 < 16 by omega), Option.bind_eq_bind, Option.bind_some,
        Option.pure_def, Option.some.injEq]
      omega
    simp only [cons_append, nil_append, parseUnits, hhex]
  · rw [parseUnits.eq_def]
    split <;> simp_all

theorem parseUnits_quote (s rest : List Char) :
    parseUnits (s.flatMap escChar ++ '"' :: rest) = some (s.map Char.toNat, rest) := by
  induction s with
  | nil => rfl
  | cons c s ih =>
    rw [flatMap_cons, append_assoc, parseUnits_escChar, ih]
    rfl

theorem ofUnit_toNat (c : Char) : ofUnit c.toNat = c := by
  have hv : c.toNat < 0xD800 ∨ (0xDFFF < c.toNat ∧ c.toNat < 0x110000) := c.valid
  rw [ofUnit, if_neg (by omega), Char.ofNat_toNat]

theorem joinUnits_toNat (s : List Char) : joinUnits (s.map Char.toNat) = s := by
  induction s with
  | nil => rfl
  | cons c s ih =>
    cases s with
    | nil => simp [joinUnits, ofUnit_toNat]
    | cons c' s =>
      have hv : c.toNat < 0xD800 ∨ (0xDFFF < c.toNat ∧ c.toNat < 0x110000) := c.valid
      simp only [map_cons] at ih ⊢
      rw [joinUnits, if_neg (by omega), ofUnit_toNat, ih]

theorem parseString_quote (s rest : List Char) : parseString (s.flatMap escChar ++ '"' :: rest) = some (s, rest) := by
  rw [parseString, parseUnits_quote, Option.map_some, joinUnits_toNat]

/-- Text that cannot continue a number literal. -/
def NoNumHead (r : List Char) : Prop := ∀ c ∈ r.head?, isNumChar c = false

theorem noNumHead_nil : NoNumHead [] := by simp [NoNumHead]

theorem noNumHead_cons {c : Char} (r : List Char) (h : isNumChar c = false) : NoNumHead (c :: r) := by
  simpa [NoNumHead] using h

theorem takeWhile_num (n : NumLit) {r : List Char} (hr : NoNumHead r) :
    (n.text ++ r).takeWhile isNumChar = n.text ∧ (n.text ++ r).dropWhile isNumChar = r := by
  have hall : ∀ c ∈ n.text, isNumChar c = true := by simpa using n.chars
  rw [takeWhile_append_of_pos hall, dropWhile_append_of_pos hall]
  cases r with
  | nil => simp
  | cons c r => simp [hr c rfl]

theorem parseNumber_num (n : NumLit) {r : List Char} (hr : NoNumHead r) : parseNumber (n.text ++ r) = some (.num n, r) := by
  obtain ⟨ht, hd⟩ := takeWhile_num n hr
  simp only [parseNumber, ht, hd]
  rw [dif_pos ⟨n.chars, n.valid⟩]

theorem text_eq_cons (n : NumLit) : ∃ c cs, n.text = c :: cs ∧ isNumChar c = true := by
  cases h : n.text with
  | nil => have := n.valid; simp [h, NumGrammar.number, NumGrammar.integer] at this
  | cons c cs => exact ⟨c, cs, rfl, by have := n.chars; rw [h] at this; simp_all⟩

theorem isNumChar_ne {c : Char} (h : isNumChar c = true) :
    c ≠ 'n' ∧ c ≠ 't' ∧ c ≠ 'f' ∧ c ≠ '"' ∧ c ≠ '[' ∧ c ≠ '\x7b' ∧ c ≠ ']' ∧ c ≠ '\x7d' ∧ isWs c = false ∧ c ≠ '\n' := by
  refine ⟨?_, ?_, ?_, ?_, ?_, ?_, ?_, ?_, ?_, ?_⟩
  all_goals try (rintro rfl; revert h; decide)
  by_contra hw
  simp only [isWs, Bool.not_eq_false, Bool.or_eq_true, beq_iff_eq] at hw
  rcases hw with ((rfl | rfl) | rfl) | rfl <;> revert h <;> decide

theorem stringify_head (v : Json) : ∃ c cs, stringify v = c :: cs ∧ isWs c = false ∧ c ≠ ']' ∧ c ≠ '\x7d' := by
  cases v with
  | null => exact ⟨_, _, rfl, by decide, by decide, by decide⟩
  | bool b => cases b <;> exact ⟨_, _, rfl, by decide, by decide, by decide⟩
  | num n =>
    obtain ⟨c, cs, h, hc⟩ := text_eq_cons n
    obtain ⟨-, -, -, -, -, -, h7, h8, h9, -⟩ := isNumChar_ne hc
    exact ⟨c, cs, by rw [stringify, h], h9, h7, h8⟩
  | str s | arr xs | obj ms => exact ⟨_, _, rfl, by decide, by decide, by decide⟩

theorem skipWs_stringify (v : Json) (r : List Char) : skipWs (stringify v ++ r) = stringify v ++ r := by
  obtain ⟨c, cs, h, hw, -, -⟩ := stringify_head v
  simp [h, skipWs, hw]

mutual
/-- The fuel a value needs. -/
def size : Json → ℕ
  | .arr items => 1 + sizeItems items
  | .obj members => 1 + sizeMembers members
  | _ => 1

def sizeItems : List Json → ℕ
  | [] => 0
  | x :: xs => 1 + size x + sizeItems xs

def sizeMembers : List (String × Json) → ℕ
  | [] => 0
  | m :: ms => 2 + sizeMember m + sizeMembers ms

def sizeMember : String × Json → ℕ
  | (_, v) => size v
end

theorem noNumHead_more (xs : List Json) (r : List Char) : NoNumHead (stringifyMoreItems xs ++ ']' :: r) := by
  cases xs <;> exact noNumHead_cons _ (by decide)

theorem noNumHead_moreMembers (ms : List (String × Json)) (r : List Char) :
    NoNumHead (stringifyMoreMembers ms ++ '\x7d' :: r) := by
  cases ms <;> exact noNumHead_cons _ (by decide)

theorem parseValue_num (n : NumLit) (fuel : ℕ) {r : List Char} (hr : NoNumHead r) :
    parseValue (fuel + 1) (n.text ++ r) = some (.num n, r) := by
  obtain ⟨c, cs, h, hc⟩ := text_eq_cons n
  obtain ⟨h1, h2, h3, h4, h5, h6, -, -, h9, -⟩ := isNumChar_ne hc
  have hskip : skipWs (n.text ++ r) = c :: (cs ++ r) := by simp [h, skipWs, h9]
  rw [parseValue, hskip]
  simp only [h1, h2, h3, h4, h5, h6, if_false]
  rw [← cons_append, ← h]
  exact parseNumber_num n hr

mutual
theorem parseValue_stringify : ∀ (v : Json) (n : ℕ) (r : List Char), size v ≤ n → NoNumHead r →
    parseValue n (stringify v ++ r) = some (v, r)
  | v, 0, _, hn, _ => by cases v <;> simp [size] at hn
  | .null, n + 1, r, _, _ | .bool true, n + 1, r, _, _ | .bool false, n + 1, r, _, _ => by simp [stringify, parseValue, skipWs, isWs]
  | .num m, n + 1, r, _, hr => by rw [stringify]; exact parseValue_num m n hr
  | .str s, n + 1, r, _, _ => by
    simp [stringify, quote, parseValue, skipWs, isWs, parseString_quote]
  | .arr [], n + 1, r, _, _ => by simp [stringify, stringifyItems, parseValue, skipWs, isWs]
  | .arr (x :: xs), n + 1, r, hn, _ => by
    rw [size] at hn
    have hx := parseItems_stringify x xs n r (by omega)
    obtain ⟨c, cs, hc, hw, hb, -⟩ := stringify_head x
    have hhead : (skipWs (stringify x ++ stringifyMoreItems xs ++ ']' :: r)).head? ≠ some ']' := by
      rw [append_assoc, skipWs_stringify, hc]; simpa using hb
    have hskip : skipWs (stringify (.arr (x :: xs)) ++ r) =
        '[' :: (stringify x ++ stringifyMoreItems xs ++ ']' :: r) := by
      simp [stringify, stringifyItems, skipWs, isWs]
    rw [parseValue, hskip]
    simp only [Char.reduceEq, if_false, if_true]
    rw [if_neg hhead, hx]
    rfl
  | .obj [], n + 1, r, _, _ => by simp [stringify, stringifyMembers, parseValue, skipWs, isWs]
  | .obj (m :: ms), n + 1, r, hn, _ => by
    rw [size] at hn
    have hm := parseMembers_stringify m ms n r (by omega)
    have hhead : (skipWs (stringifyMember m ++ stringifyMoreMembers ms ++ '\x7d' :: r)).head? ≠
        some '\x7d' := by
      obtain ⟨k, v⟩ := m
      simp [stringifyMember, quote, skipWs, isWs]
    have hskip : skipWs (stringify (.obj (m :: ms)) ++ r) =
        '\x7b' :: (stringifyMember m ++ stringifyMoreMembers ms ++ '\x7d' :: r) := by
      simp [stringify, stringifyMembers, skipWs, isWs]
    rw [parseValue, hskip]
    simp only [Char.reduceEq, if_false, if_true]
    rw [if_neg hhead, hm]
    rfl

theorem parseItems_stringify : ∀ (x : Json) (xs : List Json) (n : ℕ) (r : List Char),
    sizeItems (x :: xs) ≤ n →
    parseItems n (stringify x ++ stringifyMoreItems xs ++ ']' :: r) = some (x :: xs, r)
  | _, _, 0, _, hn => by rw [sizeItems] at hn; omega
  | x, [], n + 1, r, hn => by
    rw [sizeItems] at hn
    have hx := parseValue_stringify x n (']' :: r) (by omega) (noNumHead_cons _ (by decide))
    rw [parseItems, stringifyMoreItems, append_nil, hx]
    simp [skipWs, isWs]
  | x, y :: ys, n + 1, r, hn => by
    rw [sizeItems] at hn
    have hx := parseValue_stringify x n (stringifyMoreItems (y :: ys) ++ ']' :: r) (by omega)
      (noNumHead_more _ _)
    have hy := parseItems_stringify y ys n r (by omega)
    rw [parseItems, append_assoc, hx]
    simp [stringifyMoreItems, skipWs, isWs] at hy ⊢
    simp [hy]

theorem parseMembers_stringify : ∀ (m : String × Json) (ms : List (String × Json)) (n : ℕ)
    (r : List Char), sizeMembers (m :: ms) ≤ n →
    parseMembers n (stringifyMember m ++ stringifyMoreMembers ms ++ '\x7d' :: r) =
      some (m :: ms, r)
  | _, _, 0, _, hn => by rw [sizeMembers] at hn; omega
  | m, [], n + 1, r, hn => by
    rw [sizeMembers] at hn
    have hm := parseMember_stringify m n ('\x7d' :: r) (by omega) (noNumHead_cons _ (by decide))
    rw [parseMembers, stringifyMoreMembers, append_nil, hm]
    simp [skipWs, isWs]
  | m, m' :: ms, n + 1, r, hn => by
    rw [sizeMembers] at hn
    have hm := parseMember_stringify m n (stringifyMoreMembers (m' :: ms) ++ '\x7d' :: r) (by omega)
      (noNumHead_moreMembers _ _)
    have hms := parseMembers_stringify m' ms n r (by omega)
    rw [parseMembers, append_assoc, hm]
    simp [stringifyMoreMembers, skipWs, isWs] at hms ⊢
    simp [hms]

theorem parseMember_stringify : ∀ (m : String × Json) (n : ℕ) (r : List Char),
    sizeMember m + 1 ≤ n → NoNumHead r → parseMember n (stringifyMember m ++ r) = some (m, r)
  | _, 0, _, hn, _ => by omega
  | (k, v), n + 1, r, hn, hr => by
    rw [sizeMember] at hn
    have hv := parseValue_stringify v n r (by omega) hr
    have hskip : skipWs (stringifyMember (k, v) ++ r) =
        '"' :: (k.toList.flatMap escChar ++ '"' :: ':' :: (stringify v ++ r)) := by
      simp [stringifyMember, quote, skipWs, isWs]
    rw [parseMember, hskip]
    simp [parseString_quote, skipWs, isWs, hv]
end

mutual
theorem size_le_length : ∀ v : Json, size v ≤ (stringify v).length
  | .null | .bool true | .bool false => by simp [size, stringify]
  | .num n => by
    obtain ⟨c, cs, h, -⟩ := text_eq_cons n
    simp [size, stringify, h]
  | .str s => by simp [size, stringify, quote]
  | .arr xs => by
    have := sizeItems_le_length xs
    simp only [size, stringify, length_cons, length_append, length_nil]
    omega
  | .obj ms => by
    have := sizeMembers_le_length ms
    simp only [size, stringify, length_cons, length_append, length_nil]
    omega

theorem sizeItems_le_length : ∀ xs : List Json, sizeItems xs ≤ (stringifyItems xs).length + 1
  | [] => by simp [sizeItems]
  | x :: xs => by
    have h1 := size_le_length x
    have h2 := sizeMoreItems_le_length xs
    simp only [sizeItems, stringifyItems, length_append]
    omega

theorem sizeMoreItems_le_length : ∀ xs : List Json, sizeItems xs ≤ (stringifyMoreItems xs).length
  | [] => by simp [sizeItems]
  | x :: xs => by
    have h1 := size_le_length x
    have h2 := sizeMoreItems_le_length xs
    simp only [sizeItems, stringifyMoreItems, length_append, length_cons]
    omega

theorem sizeMembers_le_length : ∀ ms : List (String × Json),
    sizeMembers ms ≤ (stringifyMembers ms).length
  | [] => by simp [sizeMembers]
  | m :: ms => by
    have h1 := sizeMember_le_length m
    have h2 := sizeMoreMembers_le_length ms
    simp only [sizeMembers, stringifyMembers, length_append]
    omega

theorem sizeMoreMembers_le_length : ∀ ms : List (String × Json),
    sizeMembers ms ≤ (stringifyMoreMembers ms).length
  | [] => by simp [sizeMembers]
  | m :: ms => by
    have h1 := sizeMember_le_length m
    have h2 := sizeMoreMembers_le_length ms
    simp only [sizeMembers, stringifyMoreMembers, length_append, length_cons]
    omega

theorem sizeMember_le_length : ∀ m : String × Json,
    sizeMember m + 3 ≤ (stringifyMember m).length
  | (k, v) => by
    have h := size_le_length v
    simp only [sizeMember, stringifyMember, quote, length_append, length_cons,
      length_nil]
    omega
end

theorem parse_stringify (v : Json) : parse (stringify v) = some v := by
  have hsize := size_le_length v
  have h := parseValue_stringify v (2 * (stringify v).length + 1) [] (by omega) noNumHead_nil
  rw [append_nil] at h
  simp [parse, h, skipWs]

theorem parse_stringify_newline (v : Json) : parse (stringify v ++ ['\n']) = some v := by
  have hsize := size_le_length v
  have h := parseValue_stringify v (2 * (stringify v ++ ['\n']).length + 1) ['\n']
    (by rw [length_append]; omega) (noNumHead_cons [] rfl)
  simp only [parse, h]
  rfl

theorem stringify_injective : Function.Injective stringify := fun v w h => by
  have := congrArg parse h
  rwa [parse_stringify, parse_stringify, Option.some.injEq] at this

theorem newline_not_mem_escChar (c : Char) : '\n' ∉ escChar c := by
  unfold escChar
  split_ifs with h1 h2 h3 h4 h5 h6 h7 h8
  all_goals try decide
  · simp only [mem_cons, not_mem_nil, or_false, not_or]
    refine ⟨by decide, by decide, by decide, by decide, fun h => ?_, fun h => ?_⟩
    · exact hexDigit_ascii (show c.toNat / 16 < 16 by omega) (by rw [← h]; rfl)
    · exact hexDigit_ascii (show c.toNat % 16 < 16 by omega) (by rw [← h]; rfl)
  · simp only [mem_singleton]
    rintro rfl
    exact h5 rfl

theorem newline_not_mem_quote (s : List Char) : '\n' ∉ quote s := by
  simp only [quote, mem_append, mem_cons, not_mem_nil, or_false, mem_flatMap,
    not_or, not_exists, not_and]
  exact ⟨⟨by decide, fun c _ => newline_not_mem_escChar c⟩, by decide⟩

mutual
theorem newline_not_mem_stringify : ∀ v : Json, '\n' ∉ stringify v
  | .null | .bool true | .bool false => by simp [stringify]
  | .num n => by
    rw [stringify]
    intro h
    have hall : ∀ c ∈ n.text, isNumChar c = true := by simpa using n.chars
    exact absurd (hall _ h) (by decide)
  | .str s => by rw [stringify]; exact newline_not_mem_quote _
  | .arr xs => by
    have := newline_not_mem_items xs
    simp [stringify, this]
  | .obj ms => by
    have := newline_not_mem_members ms
    simp [stringify, this]

theorem newline_not_mem_items : ∀ xs : List Json, '\n' ∉ stringifyItems xs
  | [] => by simp [stringifyItems]
  | x :: xs => by
    simp [stringifyItems, newline_not_mem_stringify x, newline_not_mem_moreItems xs]

theorem newline_not_mem_moreItems : ∀ xs : List Json, '\n' ∉ stringifyMoreItems xs
  | [] => by simp [stringifyMoreItems]
  | x :: xs => by
    simp [stringifyMoreItems, newline_not_mem_stringify x, newline_not_mem_moreItems xs]

theorem newline_not_mem_members : ∀ ms : List (String × Json), '\n' ∉ stringifyMembers ms
  | [] => by simp [stringifyMembers]
  | m :: ms => by
    simp [stringifyMembers, newline_not_mem_member m, newline_not_mem_moreMembers ms]

theorem newline_not_mem_moreMembers : ∀ ms : List (String × Json), '\n' ∉ stringifyMoreMembers ms
  | [] => by simp [stringifyMoreMembers]
  | m :: ms => by
    simp [stringifyMoreMembers, newline_not_mem_member m, newline_not_mem_moreMembers ms]

theorem newline_not_mem_member : ∀ m : String × Json, '\n' ∉ stringifyMember m
  | (k, v) => by
    simp [stringifyMember, newline_not_mem_quote, newline_not_mem_stringify v]
end

end Kookr.Lib.Json
