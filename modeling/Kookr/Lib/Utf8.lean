import Mathlib.Data.List.Basic
import Mathlib.Tactic.SplitIfs

/-! UTF-8 text files: the encoder, and the decoder a runtime uses to read a file as
text. The decoder never fails: an ill-formed sequence becomes one U+FFFD and the byte
that broke it is read again. What matters to a log reader is that complete characters
in front of a damaged tail still decode to themselves. -/

namespace Kookr.Lib

open List

abbrev Bytes := List UInt8

namespace Utf8

def replacement : Char := Char.ofNat 0xFFFD

def encodeChar (c : Char) : Bytes :=
  let v := c.toNat
  if v < 0x80 then [.ofNat v]
  else if v < 0x800 then [.ofNat (0xC0 + v / 64), .ofNat (0x80 + v % 64)]
  else if v < 0x10000 then
    [.ofNat (0xE0 + v / 4096), .ofNat (0x80 + v / 64 % 64), .ofNat (0x80 + v % 64)]
  else
    [.ofNat (0xF0 + v / 262144), .ofNat (0x80 + v / 4096 % 64), .ofNat (0x80 + v / 64 % 64),
      .ofNat (0x80 + v % 64)]

def encode (cs : List Char) : Bytes := cs.flatMap encodeChar

/-- Continuation bytes still owed, the code point so far, and the range the next byte
has to lie in. `owed = 0` is the state between characters. -/
structure Decoder where
  owed : ℕ
  codePoint : ℕ
  lower : ℕ
  upper : ℕ
  deriving DecidableEq, Repr

def Decoder.start : Decoder := ⟨0, 0, 0x80, 0xBF⟩

/-- A byte seen between characters. -/
def lead (b : ℕ) : List Char × Decoder :=
  if b < 0x80 then ([Char.ofNat b], .start)
  else if 0xC2 ≤ b ∧ b ≤ 0xDF then ([], ⟨1, b - 0xC0, 0x80, 0xBF⟩)
  else if 0xE0 ≤ b ∧ b ≤ 0xEF then
    ([], ⟨2, b - 0xE0, if b = 0xE0 then 0xA0 else 0x80, if b = 0xED then 0x9F else 0xBF⟩)
  else if 0xF0 ≤ b ∧ b ≤ 0xF4 then
    ([], ⟨3, b - 0xF0, if b = 0xF0 then 0x90 else 0x80, if b = 0xF4 then 0x8F else 0xBF⟩)
  else ([replacement], .start)

def Decoder.step (d : Decoder) (b : ℕ) : List Char × Decoder :=
  if d.owed = 0 then lead b
  else if d.lower ≤ b ∧ b ≤ d.upper then
    let cp := d.codePoint * 64 + (b - 0x80)
    if d.owed = 1 then ([Char.ofNat cp], .start) else ([], ⟨d.owed - 1, cp, 0x80, 0xBF⟩)
  -- the sequence is broken: replace it and read the byte as a lead byte
  else (replacement :: (lead b).1, (lead b).2)

def decodeFrom (d : Decoder) : Bytes → List Char
  | [] => if d.owed = 0 then [] else [replacement]
  | b :: bs => (d.step b.toNat).1 ++ decodeFrom (d.step b.toNat).2 bs

def decode (bs : Bytes) : List Char := decodeFrom .start bs

@[simp] theorem encode_nil : encode [] = [] := rfl

@[simp] theorem encode_append (cs cs' : List Char) :
    encode (cs ++ cs') = encode cs ++ encode cs' := by simp [encode]

theorem encode_cons (c : Char) (cs : List Char) : encode (c :: cs) = encodeChar c ++ encode cs := by
  simp [encode]

private theorem toNat_ofNat {n : ℕ} (h : n < 256) : (UInt8.ofNat n).toNat = n :=
  UInt8.toNat_ofNat_of_lt' h

private theorem char_bounds (c : Char) : c.toNat < 0xD800 ∨ (0xDFFF < c.toNat ∧ c.toNat < 0x110000) :=
  c.valid

section steps

variable (bs : Bytes) {n : ℕ}

theorem decodeFrom_ascii (hn : n < 0x80) : decodeFrom .start (.ofNat n :: bs) = Char.ofNat n :: decodeFrom .start bs := by
  simp [decodeFrom, toNat_ofNat (show n < 256 by omega), Decoder.step, Decoder.start, lead, hn]

theorem decodeFrom_lead_two (hl : 0xC2 ≤ n) (hu : n ≤ 0xDF) :
    decodeFrom .start (.ofNat n :: bs) = decodeFrom ⟨1, n - 0xC0, 0x80, 0xBF⟩ bs := by
  simp [decodeFrom, toNat_ofNat (show n < 256 by omega), Decoder.step, Decoder.start, lead,
    show ¬ n < 0x80 by omega, hl, hu]

theorem decodeFrom_lead_three (hl : 0xE0 ≤ n) (hu : n ≤ 0xEF) :
    decodeFrom .start (.ofNat n :: bs) = decodeFrom ⟨2, n - 0xE0,
      if n = 0xE0 then 0xA0 else 0x80, if n = 0xED then 0x9F else 0xBF⟩ bs := by
  simp [decodeFrom, toNat_ofNat (show n < 256 by omega), Decoder.step, Decoder.start, lead,
    show ¬ n < 0x80 by omega, show ¬ n ≤ 0xDF by omega, hl, hu]

theorem decodeFrom_lead_four (hl : 0xF0 ≤ n) (hu : n ≤ 0xF4) :
    decodeFrom .start (.ofNat n :: bs) = decodeFrom ⟨3, n - 0xF0,
      if n = 0xF0 then 0x90 else 0x80, if n = 0xF4 then 0x8F else 0xBF⟩ bs := by
  simp [decodeFrom, toNat_ofNat (show n < 256 by omega), Decoder.step, Decoder.start, lead,
    show ¬ n < 0x80 by omega, show ¬ n ≤ 0xDF by omega, show ¬ n ≤ 0xEF by omega, hl, hu]

theorem decodeFrom_tail {k cp lo hi : ℕ} (hn : n < 256) (hl : lo ≤ n) (hu : n ≤ hi) :
    decodeFrom ⟨k + 2, cp, lo, hi⟩ (.ofNat n :: bs) = decodeFrom ⟨k + 1, cp * 64 + (n - 0x80), 0x80, 0xBF⟩ bs := by
  simp [decodeFrom, toNat_ofNat hn, Decoder.step, hl, hu]

theorem decodeFrom_last {cp lo hi : ℕ} (hn : n < 256) (hl : lo ≤ n) (hu : n ≤ hi) : decodeFrom ⟨1, cp, lo, hi⟩ (.ofNat n :: bs) =
      Char.ofNat (cp * 64 + (n - 0x80)) :: decodeFrom .start bs := by
  simp [decodeFrom, toNat_ofNat hn, Decoder.step, hl, hu]

end steps

/-- A complete character decodes to itself and leaves the decoder between characters. -/
theorem decodeFrom_encodeChar (c : Char) (bs : Bytes) : decodeFrom .start (encodeChar c ++ bs) = c :: decodeFrom .start bs := by
  have hv := char_bounds c
  have hc : Char.ofNat c.toNat = c := Char.ofNat_toNat c
  simp only [encodeChar]
  split_ifs with h1 h2 h3
  · rw [singleton_append, decodeFrom_ascii bs h1, hc]
  · simp only [cons_append, nil_append]
    rw [decodeFrom_lead_two _ (by omega) (by omega),
      decodeFrom_last _ (by omega) (by omega) (by omega)]
    rw [show (0xC0 + c.toNat / 64 - 0xC0) * 64 + (0x80 + c.toNat % 64 - 0x80) = c.toNat by omega, hc]
  · simp only [cons_append, nil_append]
    rw [decodeFrom_lead_three _ (by omega) (by omega),
      decodeFrom_tail _ (by omega) (by split_ifs <;> omega) (by split_ifs <;> omega),
      decodeFrom_last _ (by omega) (by omega) (by omega)]
    rw [show ((0xE0 + c.toNat / 4096 - 0xE0) * 64 + (0x80 + c.toNat / 64 % 64 - 0x80)) * 64 +
      (0x80 + c.toNat % 64 - 0x80) = c.toNat by omega, hc]
  · simp only [cons_append, nil_append]
    rw [decodeFrom_lead_four _ (by omega) (by omega),
      decodeFrom_tail _ (by omega) (by split_ifs <;> omega) (by split_ifs <;> omega),
      decodeFrom_tail _ (by omega) (by omega) (by omega),
      decodeFrom_last _ (by omega) (by omega) (by omega)]
    rw [show (((0xF0 + c.toNat / 262144 - 0xF0) * 64 + (0x80 + c.toNat / 4096 % 64 - 0x80)) * 64 +
      (0x80 + c.toNat / 64 % 64 - 0x80)) * 64 + (0x80 + c.toNat % 64 - 0x80) = c.toNat by omega, hc]

theorem decode_encode_append (cs : List Char) (bs : Bytes) : decode (encode cs ++ bs) = cs ++ decode bs := by
  induction cs with
  | nil => rfl
  | cons c cs ih =>
    rw [encode_cons, append_assoc, decode, decodeFrom_encodeChar]
    exact congrArg (c :: ·) ih

@[simp] theorem decode_encode (cs : List Char) : decode (encode cs) = cs := by
  simpa [decode, decodeFrom, Decoder.start] using decode_encode_append cs []

theorem newline_not_mem_encodeChar {c : Char} (h : c ≠ '\n') : 0x0A ∉ encodeChar c := by
  have hne : c.toNat ≠ 10 := fun heq => h (Char.toNat_inj.1 heq)
  have hbound : c.toNat < 0x110000 := by
    rcases char_bounds c with h | h <;> omega
  have hbyte : ∀ n < 256, n ≠ 10 → (0x0A : UInt8) ≠ .ofNat n := by
    rintro n hn hne heq
    have heq := congrArg UInt8.toNat heq
    rw [toNat_ofNat hn] at heq
    exact hne heq.symm
  unfold encodeChar
  simp only []
  split_ifs with h1 h2 h3
  · simp only [mem_cons, not_mem_nil, or_false]
    exact hbyte _ (by omega) hne
  · simp only [mem_cons, not_mem_nil, or_false, not_or]
    exact ⟨hbyte _ (by omega) (by omega), hbyte _ (by omega) (by omega)⟩
  · simp only [mem_cons, not_mem_nil, or_false, not_or]
    exact ⟨hbyte _ (by omega) (by omega), hbyte _ (by omega) (by omega), hbyte _ (by omega) (by omega)⟩
  · simp only [mem_cons, not_mem_nil, or_false, not_or]
    exact ⟨hbyte _ (by omega) (by omega), hbyte _ (by omega) (by omega), hbyte _ (by omega) (by omega), hbyte _ (by omega) (by omega)⟩

theorem newline_not_mem_encode {cs : List Char} (h : '\n' ∉ cs) : 0x0A ∉ encode cs := by
  intro hmem
  obtain ⟨c, hc, hmem⟩ := mem_flatMap.1 hmem
  exact newline_not_mem_encodeChar (fun heq => h (heq ▸ hc)) hmem

private theorem decodeFrom_owed {d : Decoder} (h : d.owed ≠ 0) : decodeFrom d [] = [replacement] := by
  simp [decodeFrom, h]

theorem decode_encodeChar_cut {c : Char} {cut lost : Bytes} (h : cut ++ lost = encodeChar c) (hlost : lost ≠ []) :
    decode cut = [] ∨ decode cut = [replacement] := by
  have hv := char_bounds c
  rcases cut with _ | ⟨b, cut⟩
  · exact .inl rfl
  right
  simp only [encodeChar] at h
  split_ifs at h with h1 h2 h3
  · simp only [cons_append, cons.injEq, append_eq_nil_iff] at h
    exact absurd h.2.2 hlost
  · rcases cut with _ | ⟨b1, cut⟩
    · simp only [cons_append, cons.injEq] at h
      rw [h.1, decode, decodeFrom_lead_two _ (by omega) (by omega), decodeFrom_owed (by simp)]
    · simp only [cons_append, cons.injEq, append_eq_nil_iff] at h
      exact absurd h.2.2.2 hlost
  · rcases cut with _ | ⟨b1, _ | ⟨b2, cut⟩⟩
    · simp only [cons_append, cons.injEq] at h
      rw [h.1, decode, decodeFrom_lead_three _ (by omega) (by omega), decodeFrom_owed (by simp)]
    · simp only [cons_append, cons.injEq] at h
      rw [h.1, h.2.1, decode, decodeFrom_lead_three _ (by omega) (by omega),
        decodeFrom_tail _ (by omega) (by split_ifs <;> omega) (by split_ifs <;> omega), decodeFrom_owed (by simp)]
    · simp only [cons_append, cons.injEq, append_eq_nil_iff] at h
      exact absurd h.2.2.2.2 hlost
  · rcases cut with _ | ⟨b1, _ | ⟨b2, _ | ⟨b3, cut⟩⟩⟩
    · simp only [cons_append, cons.injEq] at h
      rw [h.1, decode, decodeFrom_lead_four _ (by omega) (by omega), decodeFrom_owed (by simp)]
    · simp only [cons_append, cons.injEq] at h
      rw [h.1, h.2.1, decode, decodeFrom_lead_four _ (by omega) (by omega),
        decodeFrom_tail _ (by omega) (by split_ifs <;> omega) (by split_ifs <;> omega), decodeFrom_owed (by simp)]
    · simp only [cons_append, cons.injEq] at h
      rw [h.1, h.2.1, h.2.2.1, decode, decodeFrom_lead_four _ (by omega) (by omega),
        decodeFrom_tail _ (by omega) (by split_ifs <;> omega) (by split_ifs <;> omega),
        decodeFrom_tail _ (by omega) (by omega) (by omega), decodeFrom_owed (by simp)]
    · simp only [cons_append, cons.injEq, append_eq_nil_iff] at h
      exact absurd h.2.2.2.2.2 hlost

/-- Of text that was cut off, whole characters are left and perhaps a broken one. -/
theorem decode_cut {cs : List Char} {cut lost : Bytes} (h : cut ++ lost = encode cs) (hlost : lost ≠ []) :
    ∃ kept c gone, cs = kept ++ c :: gone ∧ (decode cut = kept ∨ decode cut = kept ++ [replacement]) := by
  induction cs generalizing cut with
  | nil => exact absurd (append_eq_nil_iff.1 h).2 hlost
  | cons c cs ih =>
    rcases append_eq_append_iff.1 h with ⟨lost', hchar, hrest⟩ | ⟨cut', rfl, hrest⟩
    · by_cases hlost' : lost' = []
      · subst hlost'
        rw [append_nil] at hchar
        cases cs with
        | nil => exact absurd hrest hlost
        | cons c' cs =>
          refine ⟨[c], c', cs, rfl, .inl ?_⟩
          have hdecode := decode_encode [c]
          rwa [encode_cons, encode_nil, append_nil, hchar] at hdecode
      · exact ⟨[], c, cs, rfl, decode_encodeChar_cut hchar.symm hlost'⟩
    · obtain ⟨kept, c', gone, rfl, hdecode⟩ := ih hrest.symm
      have hcons : decode (encodeChar c ++ cut') = c :: decode cut' := decodeFrom_encodeChar c cut'
      refine ⟨c :: kept, c', gone, rfl, ?_⟩
      rw [hcons]
      rcases hdecode with hdecode | hdecode
      · exact .inl (by rw [hdecode])
      · exact .inr (by rw [hdecode, cons_append])

theorem lower_step (d : Decoder) (b : ℕ) : 0x80 ≤ (d.step b).2.lower := by
  simp only [Decoder.step, lead, Decoder.start]
  split_ifs <;> simp

theorem decodeFrom_newline (d : Decoder) (h : 0x80 ≤ d.lower) (bs rest : Bytes) :
    decodeFrom d (bs ++ 0x0A :: rest) = decodeFrom d bs ++ '\n' :: decode rest := by
  induction bs generalizing d with
  | nil =>
    have hb : ¬ (d.lower ≤ 10 ∧ 10 ≤ d.upper) := by omega
    by_cases ho : d.owed = 0
    · simp [decodeFrom, Decoder.step, ho, lead, decode]
    · simp [decodeFrom, Decoder.step, ho, hb, lead, decode]
  | cons b bs ih => simp [decodeFrom, ih (d.step b.toNat).2 (lower_step d _)]

/-- A newline byte always stands for itself and leaves the decoder between characters. -/
theorem decode_newline (bs rest : Bytes) : decode (bs ++ 0x0A :: rest) = decode bs ++ '\n' :: decode rest :=
  decodeFrom_newline .start (by decide) bs rest

end Utf8

end Kookr.Lib
