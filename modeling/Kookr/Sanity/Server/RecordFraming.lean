import Mathlib.Data.List.TakeWhile
import Kookr.Spec.Server.HookTail

/-! The scan of appended records finds these records. What `JSON.parse` reads leaves the
scan of an object where it was, apart from the braces of the object itself, so that an
object's text ends at its own last brace. -/

namespace Kookr.Server

open Kookr.Lib Kookr.Remote List Option

/-- The scan of an object goes through the characters and stands as before. -/
def Neutral (cs : List Char) : Prop := ∀ d, cs.foldlM ObjectScan.step ⟨d + 1, false, false⟩ = some ⟨d + 1, false, false⟩

/-- The rest of a string, with its closing quote. -/
def ClosesString (cs : List Char) : Prop :=
  ∀ d, cs.foldlM ObjectScan.step ⟨d + 1, true, false⟩ = some ⟨d + 1, false, false⟩

variable {cs : List Char}

theorem objectEnd_append {s s' : ObjectScan} (h : cs.foldlM ObjectScan.step s = some s')
    (rest : List Char) : objectEnd s (cs ++ rest) = (objectEnd s' rest).map (· + cs.length) := by
  induction cs generalizing s with
  | nil =>
    cases h
    simp
  | cons c cs ih =>
    obtain ⟨s₁, hs₁, hrest⟩ := bind_eq_some_iff.1 h
    rw [cons_append, objectEnd, hs₁]
    dsimp only
    rw [ih hrest, Option.map_map]
    rfl

def isOrdinary (c : Char) : Bool := c ≠ '"' && c ≠ '\x7b' && c ≠ '\x7d'

variable {c : Char} (r : JsonRecord) (records : List JsonRecord)

theorem step_ordinary (h : isOrdinary c = true) (d : ℕ) : ObjectScan.step ⟨d, false, false⟩ c = some ⟨d, false, false⟩ := by
  simp [isOrdinary] at h
  simp [ObjectScan.step, h]

theorem step_inString (h : c ≠ '\\') (h' : c ≠ '"') (d : ℕ) : ObjectScan.step ⟨d, true, false⟩ c = some ⟨d, true, false⟩ := by
  simp [ObjectScan.step, h, h']

theorem Neutral.append {cs cs' : List Char} (h : Neutral cs) (h' : Neutral cs') : Neutral (cs ++ cs') := by
  intro d
  rw [foldlM_append, h d]
  exact h' d

theorem neutral_of_ordinary (h : ∀ c ∈ cs, isOrdinary c = true) : Neutral cs := by
  intro d
  induction cs with
  | nil => rfl
  | cons c cs ih =>
    rw [foldlM_cons, step_ordinary (h c mem_cons_self)]
    exact ih fun c' hc' => h c' (mem_cons_of_mem _ hc')

theorem ClosesString.neutral (h : ClosesString cs) : Neutral ('"' :: cs) := fun d => h d

theorem Neutral.braced (h : Neutral cs) : Neutral ('\x7b' :: (cs ++ ['\x7d'])) := by
  intro d
  change (cs ++ ['\x7d']).foldlM ObjectScan.step ⟨d + 1 + 1, false, false⟩ = _
  rw [foldlM_append, h (d + 1)]
  rfl

theorem Neutral.objectEnd (h : Neutral cs) (rest : List Char) :
    objectEnd .start ('\x7b' :: (cs ++ '\x7d' :: rest)) = some (cs.length + 2) := by
  have hinner : ('\x7b' :: cs).foldlM ObjectScan.step .start = some ⟨1, false, false⟩ := by
    exact h 0
  rw [← cons_append, objectEnd_append hinner]
  change some (1 + (cs.length + 1)) = _
  rw [Nat.add_comm]

/-- Reading goes from the text to the rest of it, over characters that are neutral. -/
def Reads (cs rest : List Char) : Prop := ∃ pre, cs = pre ++ rest ∧ Neutral pre

theorem Reads.trans {cs mid rest : List Char} (h : Reads cs mid) (h' : Reads mid rest) : Reads cs rest := by
  obtain ⟨pre, rfl, hpre⟩ := h
  obtain ⟨pre', rfl, hpre'⟩ := h'
  exact ⟨pre ++ pre', (append_assoc _ _ _).symm, hpre.append hpre'⟩

theorem reads_ordinary (h : isOrdinary c = true) (cs : List Char) : Reads (c :: cs) cs := by
  refine ⟨[c], rfl, neutral_of_ordinary ?_⟩
  simpa using h

theorem reads_dropWhile {p : Char → Bool} (h : ∀ c, p c = true → isOrdinary c = true) (cs : List Char) :
    Reads cs (cs.dropWhile p) :=
  ⟨cs.takeWhile p, takeWhile_append_dropWhile.symm, neutral_of_ordinary fun c hc => h c (mem_takeWhile_imp hc)⟩

theorem reads_drop {lit rest : List Char} (h : ∀ c ∈ lit, isOrdinary c = true) (hlit : rest.take lit.length = lit) :
    Reads rest (rest.drop lit.length) := by
  refine ⟨lit, ?_, neutral_of_ordinary h⟩
  conv_lhs => rw [← take_append_drop lit.length rest, hlit]

theorem isOrdinary_of_isWs (c : Char) (h : Json.isWs c = true) : isOrdinary c = true := by
  simp [Json.isWs] at h
  rcases h with ((rfl | rfl) | rfl) | rfl <;> rfl

theorem isOrdinary_of_isNumChar (c : Char) (h : isNumChar c = true) : isOrdinary c = true := by
  have hne : c ≠ '"' ∧ c ≠ '\x7b' ∧ c ≠ '\x7d' := by
    refine ⟨?_, ?_, ?_⟩ <;> rintro rfl <;> exact absurd h (by decide)
  simpa [isOrdinary, and_assoc] using hne

theorem reads_skipWs (cs : List Char) : Reads cs (Json.skipWs cs) := reads_dropWhile isOrdinary_of_isWs cs

theorem hexVal_inString {n : ℕ} (h : Json.hexVal c = some n) : c ≠ '\\' ∧ c ≠ '"' := by
  constructor <;> rintro rfl <;> cases h

theorem ClosesString.cons (h : ClosesString cs) (hc : c ≠ '\\' ∧ c ≠ '"') : ClosesString (c :: cs) := by
  intro d
  rw [foldlM_cons, step_inString hc.1 hc.2]
  exact h d

theorem ClosesString.escape (h : ClosesString cs) (c : Char) : ClosesString ('\\' :: c :: cs) := fun d => h d

theorem ClosesString.hex4 {a b c d : Char} {n : ℕ} (h : ClosesString cs)
    (hhex : Json.hex4 a b c d = some n) : ClosesString (a :: b :: c :: d :: cs) := by
  obtain ⟨_, ha, hhex⟩ := bind_eq_some_iff.1 hhex
  obtain ⟨_, hb, hhex⟩ := bind_eq_some_iff.1 hhex
  obtain ⟨_, hc, hhex⟩ := bind_eq_some_iff.1 hhex
  obtain ⟨_, hd, -⟩ := bind_eq_some_iff.1 hhex
  exact (((h.cons (hexVal_inString hd)).cons (hexVal_inString hc)).cons (hexVal_inString hb)).cons (hexVal_inString ha)

theorem parseUnits_closes {cs rest : List Char} {units : List ℕ} (h : Json.parseUnits cs = some (units, rest)) :
    ∃ pre, cs = pre ++ rest ∧ ClosesString pre := by
  induction cs using Json.parseUnits.induct generalizing units with
  | case1 => cases h
  | case2 rest' =>
    cases h
    exact ⟨['"'], rfl, fun _ => rfl⟩
  | case3 a b c d rest' hhex =>
    rw [Json.parseUnits, hhex] at h
    cases h
  | case4 a b c d rest' n hhex ih =>
    rw [Json.parseUnits, hhex] at h
    obtain ⟨⟨units', rest''⟩, hrest, heq⟩ := map_eq_some_iff.1 h
    cases heq
    obtain ⟨pre, rfl, hpre⟩ := ih hrest
    exact ⟨'\\' :: 'u' :: a :: b :: c :: d :: pre, rfl, (hpre.hex4 hhex).escape 'u'⟩
  | case5 e rest' hshape hun =>
    rw [Json.parseUnits, hun] at h
    · cases h
    · exact hshape
  | case6 e rest' hshape c hun ih =>
    rw [Json.parseUnits, hun] at h
    · obtain ⟨⟨units', rest''⟩, hrest, heq⟩ := map_eq_some_iff.1 h
      cases heq
      obtain ⟨pre, rfl, hpre⟩ := ih hrest
      exact ⟨'\\' :: e :: pre, rfl, hpre.escape e⟩
    · exact hshape
  | case7 c rest' hquote h2 h3 hbad =>
    rw [Json.parseUnits, if_pos hbad] at h
    · cases h
    all_goals assumption
  | case8 c rest' hquote h2 h3 hgood ih =>
    rw [Json.parseUnits, if_neg hgood] at h
    · obtain ⟨⟨units', rest''⟩, hrest, heq⟩ := map_eq_some_iff.1 h
      cases heq
      obtain ⟨pre, rfl, hpre⟩ := ih hrest
      exact ⟨c :: pre, rfl, hpre.cons ⟨fun he => hgood (.inr he), hquote⟩⟩
    all_goals assumption

theorem reads_string {cs rest s : List Char} (h : Json.parseString cs = some (s, rest)) : Reads ('"' :: cs) rest := by
  obtain ⟨⟨units, rest'⟩, hunits, heq⟩ := map_eq_some_iff.1 h
  cases heq
  obtain ⟨pre, rfl, hpre⟩ := parseUnits_closes hunits
  exact ⟨'"' :: pre, rfl, hpre.neutral⟩

theorem reads_number {cs rest : List Char} {v : Json} (h : Json.parseNumber cs = some (v, rest)) : Reads cs rest := by
  unfold Json.parseNumber at h
  dsimp only at h
  split at h
  · cases h
    exact reads_dropWhile isOrdinary_of_isNumChar cs
  · cases h

/-- A text up to a closing brace, which is not read. -/
def ReadsToBrace (cs rest : List Char) : Prop := Reads cs ('\x7d' :: rest)

theorem ReadsToBrace.braced {cs rest : List Char} (h : ReadsToBrace cs rest) : Reads ('\x7b' :: cs) rest := by
  obtain ⟨pre, rfl, hpre⟩ := h
  exact ⟨'\x7b' :: (pre ++ ['\x7d']), by simp, hpre.braced⟩

theorem eq_cons_of_head? (h : cs.head? = some c) : cs = c :: cs.tail := by
  cases cs with
  | nil => cases h
  | cons d cs =>
    cases h
    rfl

theorem reads_literal (lit : List Char) {rest rest' : List Char} {v v' : Json} (hall : (c :: lit).all isOrdinary = true)
    (h : (if rest.take lit.length = lit then some (v, rest.drop lit.length) else none) = some (v', rest')) :
    Reads (c :: rest) rest' := by
  have hlit := all_eq_true.1 hall
  split at h
  · rename_i htake
    cases h
    have hrest := reads_drop (fun c' hc' => hlit c' (mem_cons_of_mem _ hc')) htake
    exact (reads_ordinary (hlit c mem_cons_self) rest).trans hrest
  · cases h

/-- What each part of the parser reads, with the same fuel. -/
structure ParserReads (n : ℕ) : Prop where
  value : ∀ cs v rest, Json.parseValue n cs = some (v, rest) → Reads cs rest
  items : ∀ cs xs rest, Json.parseItems n cs = some (xs, rest) → Reads cs rest
  members : ∀ cs ms rest, Json.parseMembers n cs = some (ms, rest) → ReadsToBrace cs rest
  member : ∀ cs m rest, Json.parseMember n cs = some (m, rest) → Reads cs rest

theorem ParserReads.object {n : ℕ} (h : ParserReads n) {cs rest : List Char} {v : Json}
    (hobject : (if (Json.skipWs cs).head? = some '\x7d' then some (Json.obj [], (Json.skipWs cs).tail)
      else (Json.parseMembers n cs).map fun p => (Json.obj p.1, p.2)) = some (v, rest)) : ReadsToBrace cs rest := by
  split at hobject
  · rename_i hempty
    cases hobject
    have hskip := reads_skipWs cs
    rw [eq_cons_of_head? hempty] at hskip
    exact hskip
  · obtain ⟨⟨ms, rest'⟩, hmembers, heq⟩ := map_eq_some_iff.1 hobject
    cases heq
    exact h.members _ _ _ hmembers

theorem ParserReads.array {n : ℕ} (h : ParserReads n) {cs rest : List Char} {v : Json}
    (harray : (if (Json.skipWs cs).head? = some ']' then some (Json.arr [], (Json.skipWs cs).tail)
      else (Json.parseItems n cs).map fun p => (Json.arr p.1, p.2)) = some (v, rest)) : Reads cs rest := by
  split at harray
  · rename_i hempty
    cases harray
    have hskip := reads_skipWs cs
    rw [eq_cons_of_head? hempty] at hskip
    exact hskip.trans (reads_ordinary rfl _)
  · obtain ⟨⟨xs, rest'⟩, hitems, heq⟩ := map_eq_some_iff.1 harray
    cases heq
    exact h.items _ _ _ hitems

theorem parserReads (n : ℕ) : ParserReads n := by
  induction n with
  | zero => exact ⟨nofun, nofun, nofun, nofun⟩
  | succ n ih =>
    refine ⟨?_, ?_, ?_, ?_⟩
    · intro cs v rest h
      refine (reads_skipWs cs).trans ?_
      unfold Json.parseValue at h
      split at h
      · cases h
      rename_i c rest' hskip
      rw [hskip]
      split at h
      · rename_i hc
        subst hc
        exact reads_literal ['u', 'l', 'l'] rfl h
      split at h
      · rename_i hc
        subst hc
        exact reads_literal ['r', 'u', 'e'] rfl h
      split at h
      · rename_i hc
        subst hc
        exact reads_literal ['a', 'l', 's', 'e'] rfl h
      split at h
      · rename_i hc
        subst hc
        obtain ⟨⟨str, rest''⟩, hstring, heq⟩ := map_eq_some_iff.1 h
        cases heq
        exact reads_string hstring
      split at h
      · rename_i hc
        subst hc
        exact (reads_ordinary rfl _).trans (ih.array h)
      split at h
      · rename_i hc
        subst hc
        exact (ih.object h).braced
      · exact reads_number h
    · intro cs xs rest h
      unfold Json.parseItems at h
      split at h
      · cases h
      rename_i v mid hvalue
      have hfirst := (ih.value _ _ _ hvalue).trans (reads_skipWs mid)
      split at h
      · cases h
      rename_i c rest' hskip
      rw [hskip] at hfirst
      split at h
      · rename_i hcomma
        obtain ⟨⟨xs', rest''⟩, hrest, heq⟩ := map_eq_some_iff.1 h
        cases heq
        subst hcomma
        exact (hfirst.trans (reads_ordinary rfl _)).trans (ih.items _ _ _ hrest)
      split at h
      · rename_i hclose
        cases h
        subst hclose
        exact hfirst.trans (reads_ordinary rfl _)
      · cases h
    · intro cs ms rest h
      unfold Json.parseMembers at h
      split at h
      · cases h
      rename_i m mid hmember
      have hfirst := (ih.member _ _ _ hmember).trans (reads_skipWs mid)
      split at h
      · cases h
      rename_i c rest' hskip
      rw [hskip] at hfirst
      split at h
      · rename_i hcomma
        obtain ⟨⟨ms', rest''⟩, hrest, heq⟩ := map_eq_some_iff.1 h
        cases heq
        subst hcomma
        exact (hfirst.trans (reads_ordinary rfl _)).trans (ih.members _ _ _ hrest)
      split at h
      · rename_i hclose
        cases h
        subst hclose
        exact hfirst
      · cases h
    · intro cs m rest h
      refine (reads_skipWs cs).trans ?_
      unfold Json.parseMember at h
      split at h
      · cases h
      rename_i c rest' hskip
      rw [hskip]
      split at h
      · rename_i hquote
        subst hquote
        split at h
        · cases h
        rename_i k mid hstring
        have hkey := (reads_string hstring).trans (reads_skipWs mid)
        split at h
        · cases h
        rename_i c' rest'' hskip'
        rw [hskip'] at hkey
        split at h
        · rename_i hcolon
          subst hcolon
          obtain ⟨⟨v, rest₃⟩, hvalue, heq⟩ := map_eq_some_iff.1 h
          cases heq
          exact (hkey.trans (reads_ordinary rfl _)).trans (ih.value _ _ _ hvalue)
        · cases h
      · cases h

theorem isTrimmed_of_isWs (h : Json.isWs c = true) : isTrimmed c = true := by
  simp [Json.isWs] at h
  rcases h with ((rfl | rfl) | rfl) | rfl <;> rfl

/-- Nothing but white space comes after, and the text does not end with any. -/
theorem eq_nil_of_skipWs (cs : List Char) {rest : List Char} (hlast : (!(cs ++ rest).getLast?.any isTrimmed) = true)
    (hws : Json.skipWs rest = []) : rest = [] := by
  rcases eq_nil_or_concat rest with rfl | ⟨rest', c, rfl⟩
  · rfl
  · have hc : Json.isWs c = true := dropWhile_eq_nil_iff.1 hws c (by simp)
    simp [isTrimmed_of_isWs hc] at hlast

theorem JsonRecord.braced (hobject : r.text.head? = some '\x7b') : ∃ cs, r.text = '\x7b' :: (cs ++ ['\x7d']) ∧ Neutral cs := by
  obtain ⟨text, hrecord⟩ := r
  dsimp only at hobject ⊢
  simp only [isJsonRecord, Bool.and_eq_true] at hrecord
  obtain ⟨⟨⟨hparse, -⟩, hlast⟩, -⟩ := hrecord
  rw [eq_cons_of_head? hobject] at hparse hlast ⊢
  generalize text.tail = cs at hparse hlast ⊢
  unfold Json.parse at hparse
  split at hparse
  · cases hparse
  rename_i v rest' hvalue
  split at hparse
  · rename_i hws
    obtain ⟨pre, rfl, hpre⟩ := (parserReads _).object hvalue
    have hnil : rest' = [] := eq_nil_of_skipWs ('\x7b' :: (pre ++ ['\x7d'])) (by simpa using hlast) hws
    subst hnil
    exact ⟨pre, rfl, hpre⟩
  · cases hparse

theorem JsonRecord.objectEnd (hobject : r.text.head? = some '\x7b') (rest : List Char) :
    objectEnd .start (r.text ++ rest) = some r.text.length := by
  obtain ⟨cs, htext, hneutral⟩ := r.braced hobject
  have hend := hneutral.objectEnd rest
  rw [htext]
  simpa using hend

theorem JsonRecord.head : ∃ c cs, r.text = c :: cs ∧ isTrimmed c = false ∧ (c ≠ '\x7b' → '\n' ∉ r.text) := by
  obtain ⟨text, hrecord⟩ := r
  cases text with
  | nil => cases hrecord
  | cons c cs =>
    simp only [isJsonRecord, Bool.and_eq_true] at hrecord
    obtain ⟨⟨⟨-, hhead⟩, -⟩, hline⟩ := hrecord
    refine ⟨c, cs, rfl, by simpa using hhead, fun hc => ?_⟩
    simpa [hc] using hline

theorem recordLines_cons : recordLines (r :: records) = r.text ++ '\n' :: recordLines records := by
  simp [recordLines]

theorem recordLines_append (records records' : List JsonRecord) :
    recordLines (records ++ records') = recordLines records ++ recordLines records' := flatMap_append

theorem idxOf?_newline {text : List Char} (h : '\n' ∉ text) (rest : List Char) :
    (text ++ '\n' :: rest).idxOf? '\n' = some text.length := by
  induction text with
  | nil => simp [idxOf?_cons]
  | cons c text ih =>
    rw [mem_cons, not_or] at h
    rw [cons_append, idxOf?_cons, if_neg (by simpa using Ne.symm h.1), ih h.2]
    rfl

variable {spaces : List Char}

theorem dropWhile_spaces (h : ∀ c ∈ spaces, isTrimmed c = true) (rest : List Char) :
    (spaces ++ rest).dropWhile isTrimmed = rest.dropWhile isTrimmed ∧
      (spaces ++ rest).takeWhile isTrimmed = spaces ++ rest.takeWhile isTrimmed := by
  induction spaces with
  | nil => exact ⟨rfl, rfl⟩
  | cons c spaces ih =>
    obtain ⟨hdrop, htake⟩ := ih fun c' hc' => h c' (mem_cons_of_mem _ hc')
    simp [h c mem_cons_self, hdrop, htake]

/-- One turn of the outer loop finds the record that comes next. -/
theorem splitLoop_record (h : ∀ c ∈ spaces, isTrimmed c = true) (rest : List Char)
    (fuel i : ℕ) : ∃ rest', (rest' = '\n' :: rest ∨ rest' = rest) ∧ splitLoop (fuel + 1) (spaces ++ (r.text ++ '\n' :: rest)) i =
        (splitLoop fuel rest' (i + (spaces.length + r.text.length + (rest.length + 1 - rest'.length)))).cons r.text := by
  obtain ⟨c, cs, htext, hc, hline⟩ := r.head
  have hstart : (r.text ++ '\n' :: rest) = c :: (cs ++ '\n' :: rest) := by rw [htext, cons_append]
  obtain ⟨hdrop, htake⟩ := dropWhile_spaces h (r.text ++ '\n' :: rest)
  have hdropped : (r.text ++ '\n' :: rest).dropWhile isTrimmed = r.text ++ '\n' :: rest := by simp [hstart, hc]
  have htaken : (r.text ++ '\n' :: rest).takeWhile isTrimmed = [] := by simp [hstart, hc]
  rw [hdropped] at hdrop
  rw [htaken] at htake
  rw [splitLoop, hdrop, htake]
  by_cases hobject : c = '\x7b'
  · have hend := r.objectEnd (by rw [htext, hobject]; rfl) ('\n' :: rest)
    rw [hstart] at hend ⊢
    dsimp only
    rw [if_pos hobject, hend, ← hstart]
    simp [Nat.add_assoc]
  · have hend := idxOf?_newline (hline hobject) rest
    rw [hstart] at hend ⊢
    dsimp only
    rw [if_neg hobject, hend, ← hstart]
    have hskip : (r.text ++ '\n' :: rest).drop (r.text.length + 1) = rest := by
      rw [← singleton_append, ← append_assoc]
      exact drop_left' (by simp)
    simp [hskip, Nat.add_assoc]

theorem newline_isTrimmed (c : Char) (h : c ∈ ['\n']) : isTrimmed c = true := by
  rw [mem_singleton.1 h]
  rfl

/-- The white space in front is what the last record has left. -/
theorem splitLoop_lines (fuel : ℕ) (h : ∀ c ∈ spaces, isTrimmed c = true) (records : List JsonRecord)
    (hfuel : (spaces ++ recordLines records).length ≤ fuel) (i : ℕ) : splitLoop fuel (spaces ++ recordLines records) i =
      ⟨records.map JsonRecord.text, i + (spaces ++ recordLines records).length⟩ := by
  induction fuel generalizing spaces records i with
  | zero =>
    have hnil : spaces ++ recordLines records = [] := eq_nil_of_length_eq_zero (Nat.le_zero.1 hfuel)
    cases records with
    | nil => rw [hnil]; rfl
    | cons r records => simp [recordLines_cons] at hnil
  | succ fuel ih =>
    cases records with
    | nil =>
      obtain ⟨hdrop, htake⟩ := dropWhile_spaces h []
      have hlines : recordLines [] = [] := rfl
      rw [splitLoop, hlines, hdrop, htake]
      simp
    | cons r records =>
      obtain ⟨rest', hrest', hstep⟩ := splitLoop_record r h (recordLines records) fuel i
      obtain ⟨c, cs, htext, -⟩ := r.head
      rw [recordLines_cons, length_append, length_append, length_cons] at hfuel
      rw [recordLines_cons, hstep]
      have hpos : 0 < r.text.length := by simp [htext]
      rcases hrest' with rfl | rfl
      · have hih := ih newline_isTrimmed records (by simp; omega)
          (i + (spaces.length + r.text.length + ((recordLines records).length + 1 - ((recordLines records).length + 1))))
        rw [singleton_append] at hih
        rw [length_cons, hih]
        simp [HookRecords.cons]
        omega
      · have hih := ih (nofun : ∀ c ∈ [], isTrimmed c = true) records (by simp; omega)
          (i + (spaces.length + r.text.length + ((recordLines records).length + 1 - (recordLines records).length)))
        rw [nil_append] at hih
        rw [hih]
        simp [HookRecords.cons]
        omega

/-- The scan of appended records finds these records and goes through all of them. -/
theorem splitHookRecords_lines :
    splitHookRecords (recordLines records) = ⟨records.map JsonRecord.text, (recordLines records).length⟩ := by
  have h := splitLoop_lines (recordLines records).length (nofun : ∀ c ∈ [], isTrimmed c = true) records le_rfl 0
  simpa [splitHookRecords] using h

theorem filter_not_blank :
    (records.map JsonRecord.text).filter (fun line => !line.all isTrimmed) = records.map JsonRecord.text := by
  refine filter_eq_self.2 fun line hline => ?_
  obtain ⟨r, -, rfl⟩ := mem_map.1 hline
  obtain ⟨c, cs, htext, hc, -⟩ := r.head
  simp [htext, hc]

end Kookr.Server
