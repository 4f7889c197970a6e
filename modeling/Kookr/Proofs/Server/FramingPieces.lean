import Mathlib.Data.List.DropRight
import Kookr.Lib.ListAt
import Kookr.Sanity.Server.RecordFraming
import Kookr.Spec.Server.HookFraming

/-! Framing does not depend on where a text is cut: what a part of it yields stands, and what it has not consumed is framed again
with what comes. A request body is framed to its end, and nothing but white space is lost. -/

namespace Kookr.Server.Units

open Kookr.Lib Kookr.Remote Kookr.Realtime Kookr.Server.Units.HookRecords Nat

variable {content rest : List UInt16} {i next : ℕ}

theorem idxOf?_append {α : Type*} [BEq α] {xs : List α} {x : α} {i : ℕ} (h : xs.idxOf? x = some i) (more : List α) :
    i < xs.length ∧ (xs ++ more).idxOf? x = some i := by
  induction xs generalizing i with
  | nil => cases h
  | cons y xs ih =>
    rw [List.idxOf?_cons] at h
    rw [List.cons_append, List.idxOf?_cons]
    split
    · rename_i heq
      rw [if_pos heq] at h
      cases h
      exact ⟨succ_pos _, rfl⟩
    · rename_i hne
      rw [if_neg hne] at h
      obtain ⟨j, hj, rfl⟩ := Option.map_eq_some_iff.1 h
      obtain ⟨hlt, heq⟩ := ih hj
      exact ⟨succ_lt_succ hlt, by rw [heq]; rfl⟩

theorem lineEnd_append (h : lineEnd content = some i) (more : List UInt16) :
    i < content.length ∧ lineEnd (content ++ more) = some i := by
  unfold lineEnd at h ⊢
  obtain ⟨hlt, heq⟩ := idxOf?_append h (more.map charOf)
  rw [List.length_map] at hlt
  rw [List.map_append]
  exact ⟨hlt, heq⟩

theorem objectEnd_stable {s : ObjectScan} {cs : List Char} {n : ℕ} (h : objectEnd s cs = some n) (more : List Char) :
    0 < n ∧ n ≤ cs.length ∧ objectEnd s (cs ++ more) = some n := by
  induction cs generalizing s n with
  | nil => cases h
  | cons c cs ih =>
    rw [objectEnd] at h
    rw [List.cons_append, objectEnd]
    cases hstep : s.step c with
    | none =>
      rw [hstep] at h
      cases h
      exact ⟨one_pos, succ_le_succ (zero_le _), rfl⟩
    | some s' =>
      rw [hstep] at h
      obtain ⟨m, hm, rfl⟩ := Option.map_eq_some_iff.1 h
      obtain ⟨_, hle, heq⟩ := ih hm
      refine ⟨succ_pos _, succ_le_succ hle, ?_⟩
      simp only [heq]
      rfl

theorem recordAt_stable (h : recordAt content = some (i, next)) (more : List UInt16) :
    i ≤ next ∧ 0 < next ∧ next ≤ content.length ∧ recordAt (content ++ more) = some (i, next) := by
  cases content with
  | nil => cases h
  | cons ch rest =>
    rw [recordAt] at h
    rw [List.cons_append, recordAt]
    split
    · rename_i hobject
      rw [if_pos hobject] at h
      obtain ⟨n, hn, heq⟩ := Option.map_eq_some_iff.1 h
      cases heq
      obtain ⟨hpos, hle, hend⟩ := objectEnd_stable hn (more.map charOf)
      rw [List.length_map] at hle
      rw [← List.cons_append, List.map_append, hend]
      exact ⟨le_rfl, hpos, hle, rfl⟩
    · rename_i hline
      rw [if_neg hline] at h
      obtain ⟨n, hn, heq⟩ := Option.map_eq_some_iff.1 h
      cases heq
      obtain ⟨hlt, hend⟩ := lineEnd_append hn more
      rw [List.cons_append] at hend
      rw [hend]
      exact ⟨le_succ _, succ_pos _, hlt, rfl⟩

theorem takeWhile_of_head {α : Type*} {p : α → Bool} {xs : List α} (h : xs.dropWhile p = xs) : xs.takeWhile p = [] := by
  have hlength := congrArg List.length (List.takeWhile_append_dropWhile (p := p) (l := xs))
  rw [h, List.length_append] at hlength
  exact List.length_eq_zero_iff.1 (by omega)

theorem HookRecords.append_assoc (r r' r'' : HookRecords) : (r.append r').append r'' = r.append (r'.append r'') := by
  unfold append
  rw [List.append_assoc, add_assoc]

theorem HookRecords.empty_append (r : HookRecords) : (⟨[], 0⟩ : HookRecords).append r = r := by
  unfold append
  rw [List.nil_append, zero_add]

theorem splitLoop_eq {fuel : ℕ} (h : content.length < fuel) : splitLoop fuel content = some (splitHookRecords content) := by
  suffices hsome : ∀ fuel fuel' content, content.length < fuel → content.length < fuel' →
      ∃ r, splitLoop fuel content = some r ∧ splitLoop fuel' content = some r by
    obtain ⟨r, hr, hr'⟩ := hsome fuel (content.length + 1) content h (lt_succ_self _)
    rw [splitHookRecords, hr, hr']
    rfl
  intro fuel
  induction fuel with
  | zero => exact fun _ _ hlt => absurd hlt (not_lt_zero _)
  | succ fuel ih =>
    intro fuel' content hlt hlt'
    cases fuel' with
    | zero => exact absurd hlt' (not_lt_zero _)
    | succ fuel' =>
      rw [splitLoop, splitLoop]
      cases hrecord : recordAt (content.dropWhile isSpace) with
      | none => exact ⟨_, rfl, rfl⟩
      | some found =>
        obtain ⟨i, next⟩ := found
        obtain ⟨_, hpos, hle, _⟩ := recordAt_stable hrecord []
        have hshorter : ((content.dropWhile isSpace).drop next).length < content.length := by
          have hdropped := (List.dropWhile_sublist isSpace (l := content)).length_le
          rw [List.length_drop]
          omega
        obtain ⟨r, hr, hr'⟩ := ih fuel' ((content.dropWhile isSpace).drop next) (by omega) (by omega)
        exact ⟨_, congrArg (Option.map _) hr, congrArg (Option.map _) hr'⟩

theorem splitHookRecords_eq (content : List UInt16) : splitHookRecords content =
    match recordAt (content.dropWhile isSpace) with
    | none => ⟨[], (content.takeWhile isSpace).length⟩
    | some (i, next) => ⟨(content.dropWhile isSpace).take i :: (splitHookRecords ((content.dropWhile isSpace).drop next)).records,
        (content.takeWhile isSpace).length + next + (splitHookRecords ((content.dropWhile isSpace).drop next)).consumedChars⟩ := by
  refine Option.some.inj ((splitLoop_eq (lt_succ_self _)).symm.trans ?_)
  rw [splitLoop]
  cases hrecord : recordAt (content.dropWhile isSpace) with
  | none => rfl
  | some found =>
    obtain ⟨i, next⟩ := found
    obtain ⟨_, hpos, hle, _⟩ := recordAt_stable hrecord []
    have hshorter : ((content.dropWhile isSpace).drop next).length < content.length := by
      have hdropped := (List.dropWhile_sublist isSpace (l := content)).length_le
      rw [List.length_drop]
      omega
    simp only
    rw [splitLoop_eq hshorter]
    rfl

theorem splitHookRecords_spaces {spaces : List UInt16} (h : ∀ u ∈ spaces, isSpace u = true) (rest : List UInt16) :
    splitHookRecords (spaces ++ rest) = (⟨[], spaces.length⟩ : HookRecords).append (splitHookRecords rest) := by
  rw [splitHookRecords_eq (spaces ++ rest), splitHookRecords_eq rest, List.dropWhile_append_of_pos h, List.takeWhile_append_of_pos h,
    List.length_append]
  split
  · rfl
  · simp only [append, List.nil_append, mk.injEq, true_and]
    omega

theorem splitHookRecords_record (hrecord : recordAt content = some (i, next)) (hhead : content.dropWhile isSpace = content) (more : List UInt16) :
    splitHookRecords (content ++ more) = (⟨[content.take i], next⟩ : HookRecords).append (splitHookRecords (content.drop next ++ more)) := by
  obtain ⟨hi, hpos, hle, hstable⟩ := recordAt_stable hrecord more
  have hne : content ≠ [] := by
    rintro rfl
    cases hrecord
  have hdrop : (content ++ more).dropWhile isSpace = content ++ more := by
    rw [List.dropWhile_append, hhead, if_neg (by simpa using hne)]
  rw [splitHookRecords_eq, hdrop, takeWhile_of_head hdrop, hstable]
  simp only
  rw [List.take_append_of_le_length (hi.trans hle), List.drop_append_of_le_length hle, List.length_nil, zero_add]
  rfl

theorem splitHookRecords_append (a b : List UInt16) : splitHookRecords (a ++ b) =
    (splitHookRecords a).append (splitHookRecords (a.drop (splitHookRecords a).consumedChars ++ b)) := by
  generalize hn : a.length = n
  induction n using Nat.strongRecOn generalizing a with
  | ind n ih =>
    have hspaces : ∀ u ∈ a.takeWhile isSpace, isSpace u = true := fun u hu => List.mem_takeWhile_imp hu
    have hhead : (a.dropWhile isSpace).dropWhile isSpace = a.dropWhile isSpace := List.dropWhile_idempotent _ _
    have hlength := (List.dropWhile_sublist isSpace (l := a)).length_le
    rw [← List.takeWhile_append_dropWhile (p := isSpace) (l := a)]
    generalize a.takeWhile isSpace = spaces at hspaces
    generalize a.dropWhile isSpace = rest at hhead hlength
    -- what is left behind the white space
    have hrest : splitHookRecords (rest ++ b) = (splitHookRecords rest).append (splitHookRecords (rest.drop (splitHookRecords rest).consumedChars ++ b)) := by
      cases hrecord : recordAt rest with
      | none =>
        have hnothing : splitHookRecords rest = ⟨[], 0⟩ := by
          rw [splitHookRecords_eq, hhead, hrecord, takeWhile_of_head hhead]
          rfl
        rw [hnothing, empty_append]
        rfl
      | some found =>
        obtain ⟨i, next⟩ := found
        obtain ⟨_, hpos, hle, _⟩ := recordAt_stable hrecord []
        have halone := splitHookRecords_record hrecord hhead []
        rw [List.append_nil, List.append_nil] at halone
        rw [splitHookRecords_record hrecord hhead b, halone, ih _ (by rw [List.length_drop]; omega) (rest.drop next) rfl,
          append_assoc, List.drop_drop]
        rfl
    have hleft : (spaces ++ rest).drop (spaces.length + (splitHookRecords rest).consumedChars) = rest.drop (splitHookRecords rest).consumedChars :=
      List.drop_length_add_append _
    rw [List.append_assoc, splitHookRecords_spaces hspaces, splitHookRecords_spaces hspaces, hrest, append_assoc, ← hleft]
    rfl

theorem consumedChars_le (content : List UInt16) : (splitHookRecords content).consumedChars ≤ content.length := by
  generalize hn : content.length = n
  induction n using Nat.strongRecOn generalizing content with
  | ind n ih =>
    have hlength := congrArg List.length (List.takeWhile_append_dropWhile (p := isSpace) (l := content))
    rw [List.length_append] at hlength
    rw [splitHookRecords_eq]
    cases hrecord : recordAt (content.dropWhile isSpace) with
    | none =>
      simp only
      omega
    | some found =>
      obtain ⟨i, next⟩ := found
      obtain ⟨_, hpos, hle, _⟩ := recordAt_stable hrecord []
      have hrest := ih _ (by rw [List.length_drop]; omega) ((content.dropWhile isSpace).drop next) rfl
      rw [List.length_drop] at hrest
      simp only
      omega

/-- A reader of pieces has framed what it would have framed of the whole. -/
theorem tailPieces_eq (pieces : List (List UInt16)) : tailPieces pieces =
    (pieces.flatten.drop (splitHookRecords pieces.flatten).consumedChars, splitHookRecords pieces.flatten) := by
  induction pieces using List.reverseRecOn with
  | nil => rfl
  | append_singleton pieces piece ih =>
    have hlast : tailPieces (pieces ++ [piece]) = tailPiece (tailPieces pieces) piece := by
      unfold tailPieces
      rw [List.foldl_append]
      rfl
    have hflat : (pieces ++ [piece]).flatten = pieces.flatten ++ piece := by simp
    rw [hlast, ih, hflat, splitHookRecords_append]
    unfold tailPiece append
    rw [← List.drop_drop, List.drop_append_of_le_length (consumedChars_le _)]

theorem charOf_bmp {c : Char} (h : c.toNat < 0x10000) : charOf (UInt16.ofNat c.toNat) = c := by
  unfold charOf
  rw [UInt16.toNat_ofNat', mod_eq_of_lt h, Char.ofNat_toNat]

theorem charOf_half {n : ℕ} (h : 0xD800 ≤ n) (h' : n < 0xE000) : charOf (UInt16.ofNat n) = Char.ofNat 0 := by
  unfold charOf
  rw [UInt16.toNat_ofNat']
  unfold Char.ofNat
  rw [dif_neg (by unfold Nat.isValidChar; omega)]
  rfl

theorem utf16_cons (c : Char) (text : List Char) : ∃ units, utf16 (c :: text) = units ++ utf16 text ∧
    (c.toNat < 0x10000 ∧ units.map charOf = [c] ∨ 0x10000 ≤ c.toNat ∧ units.map charOf = [Char.ofNat 0, Char.ofNat 0]) := by
  unfold utf16 codeUnits
  rw [String.toList_ofList, String.toList_ofList, List.flatMap_cons, List.map_append]
  refine ⟨_, rfl, ?_⟩
  split
  · rename_i hlt
    refine .inl ⟨hlt, ?_⟩
    rw [List.map_singleton, List.map_singleton, charOf_bmp hlt]
  · rename_i hge
    have hmax : c.toNat < 0x110000 := by
      rcases c.valid with hvalid | ⟨_, hvalid⟩
      · exact lt_trans hvalid (by decide)
      · exact hvalid
    refine .inr ⟨not_lt.1 hge, ?_⟩
    rw [List.map_cons, List.map_singleton, List.map_cons, List.map_singleton, charOf_half (by omega) (by omega), charOf_half (by omega) (by omega)]

theorem utf16_append (text text' : List Char) : utf16 (text ++ text') = utf16 text ++ utf16 text' := by
  unfold utf16 codeUnits
  simp

theorem step_other {c : Char} (h : c ≠ '"' ∧ c ≠ '\\' ∧ c ≠ '\x7b' ∧ c ≠ '\x7d') (s : ObjectScan) :
    s.step c = some { s with escaped := s.escaped && !s.inString } := by
  obtain ⟨depth, inString, escaped⟩ := s
  cases inString <;> cases escaped <;> simp [ObjectScan.step, h]

theorem foldlM_utf16 (s : ObjectScan) (text : List Char) :
    ((utf16 text).map charOf).foldlM ObjectScan.step s = text.foldlM ObjectScan.step s := by
  induction text generalizing s with
  | nil => rfl
  | cons c text ih =>
    obtain ⟨units, hunits, hread⟩ := utf16_cons c text
    rw [hunits, List.map_append, List.foldlM_append, List.foldlM_cons]
    rcases hread with ⟨_, hread⟩ | ⟨hlarge, hread⟩
    · rw [hread, List.foldlM_cons, bind_assoc]
      exact bind_congr fun s' => ih s'
    · have hother : c ≠ '"' ∧ c ≠ '\\' ∧ c ≠ '\x7b' ∧ c ≠ '\x7d' := by
        refine ⟨?_, ?_, ?_, ?_⟩ <;> rintro rfl <;> exact absurd hlarge (by decide)
      have hpair : [Char.ofNat 0, Char.ofNat 0].foldlM ObjectScan.step s = some { s with escaped := s.escaped && !s.inString } := by
        obtain ⟨depth, inString, escaped⟩ := s
        cases inString <;> cases escaped <;> rfl
      rw [hread, hpair, step_other hother]
      exact ih _

theorem utf16_bmp {c : Char} (h : c.toNat < 0x10000) (text : List Char) :
    ∃ u, utf16 (c :: text) = u :: utf16 text ∧ charOf u = c := by
  obtain ⟨units, hunits, ⟨_, hread⟩ | ⟨hlarge, _⟩⟩ := utf16_cons c text
  · obtain ⟨u, rfl, hu⟩ := List.map_eq_singleton_iff.1 hread
    exact ⟨u, hunits, hu⟩
  · exact absurd h (not_lt.2 hlarge)

theorem recordAt_object (object : JsonObject) : recordAt (utf16 object.text) = some ((utf16 object.text).length, (utf16 object.text).length) ∧
    (utf16 object.text).dropWhile isSpace = utf16 object.text := by
  obtain ⟨cs, htext, hneutral⟩ := object.toJsonRecord.braced object.isObject
  rw [htext]
  obtain ⟨opening, hopening, hopen⟩ := utf16_bmp (show '\x7b'.toNat < 0x10000 by decide) (cs ++ ['\x7d'])
  obtain ⟨closing, hclosing, hclose⟩ := utf16_bmp (show '\x7d'.toNat < 0x10000 by decide) []
  have hneutral' : Neutral ((utf16 cs).map charOf) := fun d => by rw [foldlM_utf16]; exact hneutral d
  have hend := hneutral'.objectEnd []
  rw [hopening, utf16_append, hclosing]
  have hlast : utf16 [] = [] := rfl
  refine ⟨?_, ?_⟩
  · rw [recordAt, List.map_cons, List.map_append, List.map_cons, hopen, hclose, hlast, List.map_nil, hend]
    simp
  · rw [List.dropWhile_cons_of_neg]
    unfold isSpace
    rw [hopen]
    decide

theorem isSpace_white (white : White) : ∀ u ∈ utf16 white.text, isSpace u = true := by
  obtain ⟨text, hwhite⟩ := white
  induction text with
  | nil => exact nofun
  | cons c text ih =>
    simp only [List.all_cons, Bool.and_eq_true] at hwhite
    have hbmp : c.toNat < 0x10000 := by
      have hc := hwhite.1
      simp [isTrimmed] at hc
      omega
    obtain ⟨u, hu, hread⟩ := utf16_bmp hbmp text
    rw [hu]
    intro u' hu'
    rcases List.mem_cons.1 hu' with rfl | hu'
    · unfold isSpace
      rw [hread]
      exact hwhite.1
    · exact ih hwhite.2 u' hu'

theorem splitHookRecords_objects (lead : White) (objects : List (JsonObject × White)) :
    (splitHookRecords (utf16 (lead.text ++ objects.flatMap fun p => p.1.text ++ p.2.text))).records = objects.map fun p => utf16 p.1.text := by
  induction objects generalizing lead with
  | nil =>
    have hspaces := splitHookRecords_spaces (isSpace_white lead) []
    rw [List.append_nil] at hspaces
    rw [List.flatMap_nil, List.append_nil, hspaces]
    rfl
  | cons p objects ih =>
    obtain ⟨object, white⟩ := p
    obtain ⟨hrecord, hhead⟩ := recordAt_object object
    rw [List.flatMap_cons, List.append_assoc, utf16_append, utf16_append, splitHookRecords_spaces (isSpace_white lead),
      splitHookRecords_record hrecord hhead]
    rw [List.take_length, List.drop_length, List.map_cons, ← ih white]
    rfl

/-- However a string is cut, framing the first part and then what it has left with the second gives the records and the count of
the whole, and a reader of pieces has them too. Texts of objects with white space between them are framed as these texts. -/
theorem framing_chunk_independent : (∀ a b, splitHookRecords (a ++ b) =
      ⟨(splitHookRecords a).records ++ (splitHookRecords (a.drop (splitHookRecords a).consumedChars ++ b)).records,
        (splitHookRecords a).consumedChars + (splitHookRecords (a.drop (splitHookRecords a).consumedChars ++ b)).consumedChars⟩) ∧
    (∀ pieces : List (List UInt16), (tailPieces pieces).2 = splitHookRecords pieces.flatten) ∧
    ∀ (lead : White) (objects : List (JsonObject × White)),
      (splitHookRecords (utf16 (lead.text ++ objects.flatMap fun p => p.1.text ++ p.2.text))).records =
        objects.map fun p => utf16 p.1.text :=
  ⟨splitHookRecords_append, fun pieces => by rw [tailPieces_eq], splitHookRecords_objects⟩

theorem idxOf?_take {α : Type*} [BEq α] [LawfulBEq α] {xs : List α} {x : α} {i : ℕ} (h : xs.idxOf? x = some i) :
    xs.take (i + 1) = xs.take i ++ [x] := by
  induction xs generalizing i with
  | nil => cases h
  | cons y xs ih =>
    rw [List.idxOf?_cons] at h
    split at h
    · rename_i heq
      cases h
      rw [beq_iff_eq.1 heq]
      rfl
    · obtain ⟨j, hj, rfl⟩ := Option.map_eq_some_iff.1 h
      rw [List.take_succ_cons, ih hj]
      rfl

theorem lineEnd_take (h : lineEnd content = some i) : ∃ u, content.take (i + 1) = content.take i ++ [u] ∧ isSpace u = true := by
  have htake := idxOf?_take h
  rw [← List.map_take, ← List.map_take] at htake
  obtain ⟨hlt, _⟩ := lineEnd_append h []
  rw [List.take_succ_eq_append_getElem hlt] at htake ⊢
  rw [List.map_append, List.append_cancel_left_eq] at htake
  refine ⟨content[i], rfl, ?_⟩
  unfold isSpace
  rw [List.singleton_inj.1 htake]
  decide

theorem recordAt_gap (h : recordAt content = some (i, next)) : Without (fun u => isSpace u = true) (content.take i) (content.take next) := by
  cases content with
  | nil => cases h
  | cons ch rest =>
    rw [recordAt] at h
    split at h
    · obtain ⟨n, _, heq⟩ := Option.map_eq_some_iff.1 h
      cases heq
      exact .refl _
    · obtain ⟨n, hn, heq⟩ := Option.map_eq_some_iff.1 h
      cases heq
      obtain ⟨u, htake, hspace⟩ := lineEnd_take hn
      rw [htake]
      conv => arg 2; rw [← List.append_nil ((ch :: rest).take i)]
      exact (Without.refl _).append (.leave hspace .nil)

theorem splitHookRecords_conserves (content : List UInt16) : Without (fun u => isSpace u = true)
    (splitHookRecords content).records.flatten (content.take (splitHookRecords content).consumedChars) := by
  generalize hn : content.length = n
  induction n using Nat.strongRecOn generalizing content with
  | ind n ih =>
    have hspaces : ∀ u ∈ content.takeWhile isSpace, isSpace u = true := fun u hu => List.mem_takeWhile_imp hu
    have hlength := (List.dropWhile_sublist isSpace (l := content)).length_le
    have htake : ∀ m, content.take ((content.takeWhile isSpace).length + m) = content.takeWhile isSpace ++ (content.dropWhile isSpace).take m := by
      intro m
      conv => lhs; arg 2; rw [← List.takeWhile_append_dropWhile (p := isSpace) (l := content)]
      rw [List.take_length_add_append]
    rw [splitHookRecords_eq]
    cases hrecord : recordAt (content.dropWhile isSpace) with
    | none =>
      have hall := htake 0
      rw [add_zero, List.take_zero, List.append_nil] at hall
      rw [hall]
      exact .all hspaces
    | some found =>
      obtain ⟨i, next⟩ := found
      obtain ⟨_, hpos, hle, _⟩ := recordAt_stable hrecord []
      simp only
      rw [add_assoc, htake, List.take_add]
      have hrest := ih _ (by rw [List.length_drop]; omega) ((content.dropWhile isSpace).drop next) rfl
      exact (Without.all hspaces).append ((recordAt_gap hrecord).append hrest)

theorem consumedChars_pos (h : (splitHookRecords content).records ≠ []) : 0 < (splitHookRecords content).consumedChars := by
  rw [splitHookRecords_eq] at h ⊢
  cases hrecord : recordAt (content.dropWhile isSpace) with
  | none =>
    rw [hrecord] at h
    exact absurd rfl h
  | some found =>
    obtain ⟨_, hpos, _⟩ := recordAt_stable hrecord []
    simp only
    omega

/-- What is left of the content behind a turn of the loop is shorter. -/
theorem bodyLoop_eq {fuel : ℕ} (h : content.length < fuel) : bodyLoop fuel content = some (splitHookRequestBody content) := by
  suffices hsome : ∀ fuel fuel' content, content.length < fuel → content.length < fuel' →
      ∃ r, bodyLoop fuel content = some r ∧ bodyLoop fuel' content = some r by
    obtain ⟨r, hr, hr'⟩ := hsome fuel (content.length + 1) content h (lt_succ_self _)
    rw [splitHookRequestBody, hr, hr']
    rfl
  intro fuel
  induction fuel with
  | zero => exact fun _ _ hlt => absurd hlt (not_lt_zero _)
  | succ fuel ih =>
    intro fuel' content hlt hlt'
    cases fuel' with
    | zero => exact absurd hlt' (not_lt_zero _)
    | succ fuel' =>
      have hlength := (List.dropWhile_sublist isSpace (l := content)).length_le
      rw [bodyLoop, bodyLoop]
      generalize content.dropWhile isSpace = rest at hlength
      cases rest with
      | nil => exact ⟨_, rfl, rfl⟩
      | cons ch rest =>
        have hshorter : ∀ n, 0 < n → ∃ r, bodyLoop fuel ((ch :: rest).drop n) = some r ∧ bodyLoop fuel' ((ch :: rest).drop n) = some r := by
          intro n hn
          have hdrop : ((ch :: rest).drop n).length = (ch :: rest).length - n := List.length_drop
          rw [List.length_cons] at hdrop hlength
          exact ih fuel' _ (by omega) (by omega)
        simp only
        split
        · rename_i hframed
          obtain ⟨r, hr, hr'⟩ := hshorter _ (consumedChars_pos hframed)
          exact ⟨_, congrArg (Option.map _) hr, congrArg (Option.map _) hr'⟩
        · cases lineEnd (ch :: rest) with
          | none => exact ⟨_, rfl, rfl⟩
          | some i =>
            obtain ⟨r, hr, hr'⟩ := hshorter (i + 1) (succ_pos _)
            exact ⟨_, congrArg (Option.map _) hr, congrArg (Option.map _) hr'⟩

theorem splitHookRequestBody_eq (content : List UInt16) : splitHookRequestBody content =
    match content.dropWhile isSpace with
    | [] => []
    | ch :: rest =>
      if (splitHookRecords (ch :: rest)).records ≠ [] then (splitHookRecords (ch :: rest)).records ++
        splitHookRequestBody ((ch :: rest).drop (splitHookRecords (ch :: rest)).consumedChars)
      else
        match lineEnd (ch :: rest) with
        | none => [ch :: rest]
        | some i => (ch :: rest).take i :: splitHookRequestBody ((ch :: rest).drop (i + 1)) := by
  refine Option.some.inj ((bodyLoop_eq (lt_succ_self _)).symm.trans ?_)
  have hlength := (List.dropWhile_sublist isSpace (l := content)).length_le
  rw [bodyLoop]
  generalize content.dropWhile isSpace = rest at hlength
  cases rest with
  | nil => rfl
  | cons ch rest =>
    have hshorter : ∀ n, 0 < n → bodyLoop content.length ((ch :: rest).drop n) = some (splitHookRequestBody ((ch :: rest).drop n)) := by
      intro n hn
      have hdrop : ((ch :: rest).drop n).length = (ch :: rest).length - n := List.length_drop
      rw [List.length_cons] at hdrop hlength
      exact bodyLoop_eq (by omega)
    simp only
    split
    · rename_i hframed
      rw [hshorter _ (consumedChars_pos hframed)]
      rfl
    · cases lineEnd (ch :: rest) with
      | none => rfl
      | some i =>
        simp only
        rw [hshorter (i + 1) (succ_pos _)]
        rfl

theorem splitHookRequestBody_blank (h : ∀ u ∈ content, isSpace u = true) : splitHookRequestBody content = [] := by
  rw [splitHookRequestBody_eq, List.dropWhile_eq_nil_iff.2 h]

theorem splitHookRequestBody_conserves (content : List UInt16) :
    Without (fun u => isSpace u = true) (splitHookRequestBody content).flatten content := by
  generalize hn : content.length = n
  induction n using Nat.strongRecOn generalizing content with
  | ind n ih =>
    have hspaces : ∀ u ∈ content.takeWhile isSpace, isSpace u = true := fun u hu => List.mem_takeWhile_imp hu
    have hlength := (List.dropWhile_sublist isSpace (l := content)).length_le
    rw [splitHookRequestBody_eq]
    conv => arg 3; rw [← List.takeWhile_append_dropWhile (p := isSpace) (l := content)]
    generalize content.takeWhile isSpace = spaces at hspaces
    generalize content.dropWhile isSpace = rest at hlength
    suffices hrest : ∀ records : List (List UInt16), Without (fun u => isSpace u = true) records.flatten rest →
        Without (fun u => isSpace u = true) records.flatten (spaces ++ rest) by
      refine hrest _ ?_
      cases rest with
      | nil => exact .nil
      | cons ch rest =>
        have hshorter : ∀ m, 0 < m → Without (fun u => isSpace u = true)
            (splitHookRequestBody ((ch :: rest).drop m)).flatten ((ch :: rest).drop m) := by
          intro m hm
          have hdrop : ((ch :: rest).drop m).length = (ch :: rest).length - m := List.length_drop
          rw [List.length_cons] at hdrop hlength
          exact ih _ (by omega) _ rfl
        simp only
        split
        · rename_i hframed
          have hkept := (splitHookRecords_conserves (ch :: rest)).append (hshorter _ (consumedChars_pos hframed))
          rwa [List.take_append_drop, ← List.flatten_append] at hkept
        · cases hline : lineEnd (ch :: rest) with
          | none =>
            rw [List.flatten_singleton]
            exact .refl _
          | some i =>
            -- the line feed goes
            obtain ⟨u, htake, hspace⟩ := lineEnd_take hline
            have hkept := ((Without.refl ((ch :: rest).take i)).append (.leave hspace .nil)).append (hshorter (i + 1) (succ_pos _))
            rwa [← htake, List.take_append_drop, List.append_nil] at hkept
    exact fun records hkept => (Without.all hspaces).append hkept

/-- An object, a line and half an object. -/
example : splitHookRequestBody (utf16 "\x7b\x7d x\n\x7b".toList) = ["\x7b\x7d", "x", "\x7b"].map fun r => utf16 r.toList := by
  decide +kernel

end Kookr.Server.Units
