import Kookr.Lib.JsonRoundtrip
import Mathlib.Data.List.TakeWhile

/-! What `JSON.parse` takes off a text does not depend on what follows it, but for a number, which
the next character may continue. So a text that was cut off is not read as the object it was to be. -/

namespace Kookr.Lib.Json

open List Option

variable {c : Char}

theorem skipWs_eq_cons {cs r : List Char} (h : skipWs cs = c :: r) :
    isWs c = false ∧ ∃ ws, (∀ x ∈ ws, isWs x = true) ∧ cs = ws ++ c :: r := by
  have hc : isWs c = false := by
    have hne : cs.dropWhile isWs ≠ [] := by
      intro hnil
      rw [skipWs, hnil] at h
      cases h
    have hhead := head_dropWhile_not isWs hne
    simp only [skipWs] at h
    simpa [h] using hhead
  refine ⟨hc, cs.takeWhile isWs, fun x hx => mem_takeWhile_imp hx, ?_⟩
  rw [← h]
  exact (takeWhile_append_dropWhile ..).symm

theorem skipWs_append {ws : List Char} (h : ∀ x ∈ ws, isWs x = true) (more : List Char) : skipWs (ws ++ more) = skipWs more := by
  exact dropWhile_append_of_pos h

theorem noNumHead_append {ws : List Char} (h : ∀ x ∈ ws, isWs x = true) (hc : isNumChar c = false)
    (more : List Char) : NoNumHead (ws ++ c :: more) := by
  cases ws with
  | nil => exact noNumHead_cons _ hc
  | cons x ws =>
    refine noNumHead_cons _ (Bool.eq_false_iff.2 fun hnum => ?_)
    obtain ⟨-, -, -, -, -, -, -, -, hblank, -⟩ := isNumChar_ne hnum
    exact absurd (h x mem_cons_self) (by simp [hblank])

theorem skipWs_cons (hc : isWs c = false) (more : List Char) : skipWs (c :: more) = c :: more := by
  simp [skipWs, hc]

/-- The first character that is not blank comes no later than one that is known not to be. -/
theorem head_skipWs (used : List Char) (hc : isWs c = false) (a b : List Char) :
    (skipWs (used ++ c :: a)).head? = (skipWs (used ++ c :: b)).head? := by
  induction used with
  | nil => rw [nil_append, nil_append, skipWs_cons hc, skipWs_cons hc]; rfl
  | cons x used ih =>
    by_cases hx : isWs x = true
    · simpa [skipWs, hx] using ih
    · simp [skipWs, hx]

theorem parseUnits_used {cs rest : List Char} {us : List ℕ} (h : parseUnits cs = some (us, rest)) :
    ∃ used, cs = used ++ rest ∧ ∀ more, parseUnits (used ++ more) = some (us, more) := by
  induction cs using parseUnits.induct generalizing us with
  | case1 => simp [parseUnits] at h
  | case2 rest' =>
    cases h
    exact ⟨['"'], rfl, fun more => by rw [singleton_append, parseUnits]⟩
  | case3 a b c d rest' hhex =>
    rw [parseUnits, hhex] at h
    cases h
  | case4 a b c d rest' n hhex ih =>
    rw [parseUnits, hhex] at h
    obtain ⟨⟨us', r⟩, hrest, heq⟩ := map_eq_some_iff.1 h
    cases heq
    obtain ⟨used, rfl, hmore⟩ := ih hrest
    refine ⟨'\\' :: 'u' :: a :: b :: c :: d :: used, rfl, fun more => ?_⟩
    simp only [cons_append]
    rw [parseUnits, hhex]
    simp [hmore]
  | case5 e rest' hnot hesc =>
    rw [parseUnits, hesc] at h
    · cases h
    · exact hnot
  | case6 e rest' hnot c hesc ih =>
    rw [parseUnits, hesc] at h
    · obtain ⟨⟨us', r⟩, hrest, heq⟩ := map_eq_some_iff.1 h
      cases heq
      obtain ⟨used, rfl, hmore⟩ := ih hrest
      refine ⟨'\\' :: e :: used, rfl, fun more => ?_⟩
      simp only [cons_append]
      rw [parseUnits, hesc]
      · simp [hmore]
      · rintro a b c d rest rfl
        cases hesc
    · exact hnot
  | case7 c rest' hquote hu hesc hbad =>
    rw [parseUnits, if_pos hbad] at h
    · cases h
    · exact hquote
    · exact hu
    · exact hesc
  | case8 c rest' hquote hu hesc hgood ih =>
    rw [parseUnits, if_neg hgood] at h
    · obtain ⟨⟨us', r⟩, hrest, heq⟩ := map_eq_some_iff.1 h
      cases heq
      obtain ⟨used, rfl, hmore⟩ := ih hrest
      refine ⟨c :: used, rfl, fun more => ?_⟩
      rw [cons_append, parseUnits, if_neg hgood]
      · simp [hmore]
      · exact hquote
      · exact fun _ _ _ _ _ heq _ => hgood (.inr heq)
      · exact fun _ _ heq _ => hgood (.inr heq)
    · exact hquote
    · exact hu
    · exact hesc

theorem parseString_used {cs rest s : List Char} (h : parseString cs = some (s, rest)) :
    ∃ used, cs = used ++ rest ∧ ∀ more, parseString (used ++ more) = some (s, more) := by
  obtain ⟨⟨us, r⟩, hus, heq⟩ := map_eq_some_iff.1 h
  cases heq
  obtain ⟨used, hcs, hmore⟩ := parseUnits_used hus
  exact ⟨used, hcs, fun more => by simp [parseString, hmore]⟩

theorem parseNumber_used {cs rest : List Char} {v : Json} (h : parseNumber cs = some (v, rest)) :
    ∃ n, v = .num n ∧ cs = n.text ++ rest := by
  unfold parseNumber at h
  simp only at h
  split at h
  · next hvalid =>
    cases h
    exact ⟨⟨_, hvalid.1, hvalid.2⟩, rfl, (takeWhile_append_dropWhile ..).symm⟩
  · cases h

theorem parseValue_skip {ws : List Char} (hws : ∀ x ∈ ws, isWs x = true) (n : ℕ) (cs : List Char) :
    parseValue n (ws ++ cs) = parseValue n cs := by
  cases n with
  | zero => rw [parseValue, parseValue]
  | succ n => rw [parseValue, parseValue, skipWs_append hws]

theorem skipWs_append_of_ne {used : List Char} {c d : Char} (hc : isWs c = false) {rest : List Char}
    (h : (skipWs (used ++ c :: rest)).head? ≠ some d) (more : List Char) : (skipWs (used ++ c :: more)).head? ≠ some d := by
  rwa [head_skipWs used hc more rest]

mutual
/-- Fuel does no harm. Only a number needs to be told from what follows it. -/
theorem parseValue_used : ∀ (n : ℕ) (cs : List Char) (v : Json) (rest : List Char), parseValue n cs = some (v, rest) →
    ∃ used, cs = used ++ rest ∧ ((∃ ms, v = .obj ms) → used.getLast? = some '\x7d') ∧
      ∀ m, n ≤ m → ∀ more, ((∃ l, v = .num l) → NoNumHead more) → parseValue m (used ++ more) = some (v, more)
  | 0, _, _, _, h => by
    rw [parseValue] at h
    cases h
  | n + 1, cs, v, rest, h => by
    rw [parseValue] at h
    split at h
    · cases h
    next c r hskip =>
    obtain ⟨hc, ws, hws, rfl⟩ := skipWs_eq_cons hskip
    -- a value is read from its first character on
    suffices hval : ∃ used, c :: r = used ++ rest ∧ ((∃ ms, v = .obj ms) → used.getLast? = some '\x7d') ∧
        ∀ m, n + 1 ≤ m → ∀ more, ((∃ l, v = .num l) → NoNumHead more) → parseValue m (used ++ more) = some (v, more) by
      obtain ⟨used, heq, hlast, hmore⟩ := hval
      refine ⟨ws ++ used, by rw [heq, append_assoc], ?_, ?_⟩
      · intro hobj
        rw [getLast?_append, hlast hobj]
        rfl
      · intro m hm more hnum
        rw [append_assoc, parseValue_skip hws]
        exact hmore m hm more hnum
    clear hskip hws
    split at h
    · next hn =>
      subst hn
      split at h
      · next htake =>
        cases h
        refine ⟨'n' :: r.take 3, by simp, fun hobj => by simp at hobj, ?_⟩
        rintro (_ | m) hm more -
        · omega
        · rw [htake]
          simp [parseValue, skipWs, isWs]
      · cases h
    split at h
    · next ht =>
      subst ht
      split at h
      · next htake =>
        cases h
        refine ⟨'t' :: r.take 3, by simp, fun hobj => by simp at hobj, ?_⟩
        rintro (_ | m) hm more -
        · omega
        · rw [htake]
          simp [parseValue, skipWs, isWs]
      · cases h
    split at h
    · next hf =>
      subst hf
      split at h
      · next htake =>
        cases h
        refine ⟨'f' :: r.take 4, by simp, fun hobj => by simp at hobj, ?_⟩
        rintro (_ | m) hm more -
        · omega
        · rw [htake]
          simp [parseValue, skipWs, isWs]
      · cases h
    split at h
    · next hq =>
      subst hq
      obtain ⟨⟨s, r'⟩, hs, heq⟩ := map_eq_some_iff.1 h
      cases heq
      obtain ⟨used, rfl, hmore⟩ := parseString_used hs
      refine ⟨'"' :: used, rfl, fun hobj => by simp at hobj, ?_⟩
      rintro (_ | m) hm more -
      · omega
      · simp [parseValue, skipWs, isWs, hmore]
    split at h
    · next hb =>
      subst hb
      split at h
      · next hempty =>
        cases h
        obtain ⟨t, ht⟩ := head?_eq_some_iff.1 hempty
        obtain ⟨-, ws', hws', rfl⟩ := skipWs_eq_cons ht
        refine ⟨'[' :: ws' ++ [']'], by simp [ht], fun hobj => by simp at hobj, ?_⟩
        rintro (_ | m) hm more -
        · omega
        · simp [parseValue, skipWs_cons, isWs, skipWs_append hws']
      · next hne =>
        obtain ⟨⟨xs, r'⟩, hxs, heq⟩ := map_eq_some_iff.1 h
        cases heq
        obtain ⟨used, rfl, hmore⟩ := parseItems_used n r xs r' hxs
        refine ⟨'[' :: used ++ [']'], by simp, fun hobj => by simp at hobj, ?_⟩
        rintro (_ | m) hm more -
        · omega
        · have hhead := skipWs_append_of_ne (by decide) hne more
          simp [parseValue, skipWs_cons, isWs, hhead, hmore m (by omega) more]
    split at h
    · next hb =>
      subst hb
      split at h
      · next hempty =>
        cases h
        obtain ⟨t, ht⟩ := head?_eq_some_iff.1 hempty
        obtain ⟨-, ws', hws', rfl⟩ := skipWs_eq_cons ht
        refine ⟨'\x7b' :: ws' ++ ['\x7d'], by simp [ht], fun _ => getLast?_concat, ?_⟩
        rintro (_ | m) hm more -
        · omega
        · simp [parseValue, skipWs_cons, isWs, skipWs_append hws']
      · next hne =>
        obtain ⟨⟨xs, r'⟩, hxs, heq⟩ := map_eq_some_iff.1 h
        cases heq
        obtain ⟨used, rfl, hmore⟩ := parseMembers_used n r xs r' hxs
        refine ⟨'\x7b' :: used ++ ['\x7d'], by simp, fun _ => getLast?_concat, ?_⟩
        rintro (_ | m) hm more -
        · omega
        · have hhead := skipWs_append_of_ne (by decide) hne more
          simp [parseValue, skipWs_cons, isWs, hhead, hmore m (by omega) more]
    · obtain ⟨l, rfl, heq⟩ := parseNumber_used h
      refine ⟨l.text, heq, fun hobj => by simp at hobj, ?_⟩
      rintro (_ | m) hm more hnum
      · omega
      · exact parseValue_num l m (hnum ⟨l, rfl⟩)

theorem parseItems_used : ∀ (n : ℕ) (cs : List Char) (xs : List Json) (rest : List Char),
    parseItems n cs = some (xs, rest) →
    ∃ used, cs = used ++ ']' :: rest ∧ ∀ m, n ≤ m → ∀ more, parseItems m (used ++ ']' :: more) = some (xs, more)
  | 0, _, _, _, h => by
    rw [parseItems] at h
    cases h
  | n + 1, cs, xs, rest, h => by
    rw [parseItems] at h
    split at h
    · cases h
    next v r hv =>
    obtain ⟨used, rfl, -, hmore⟩ := parseValue_used n cs v r hv
    split at h
    · cases h
    next c r' hskip =>
    obtain ⟨hc, ws, hws, rfl⟩ := skipWs_eq_cons hskip
    split at h
    · next hcomma =>
      subst hcomma
      obtain ⟨⟨ys, r''⟩, hys, heq⟩ := map_eq_some_iff.1 h
      cases heq
      obtain ⟨used', rfl, hmore'⟩ := parseItems_used n r' ys r'' hys
      refine ⟨used ++ (ws ++ ',' :: used'), by simp, ?_⟩
      rintro (_ | m) hm more
      · omega
      · have hv := hmore m (by omega) (ws ++ ',' :: (used' ++ ']' :: more)) fun _ => noNumHead_append hws (by decide) _
        simp only [append_assoc, cons_append]
        rw [parseItems, hv]
        simp [skipWs_append hws, skipWs_cons, isWs, hmore' m (by omega) more]
    · split at h
      · next hend =>
        subst hend
        cases h
        refine ⟨used ++ ws, by simp, ?_⟩
        rintro (_ | m) hm more
        · omega
        · have hv := hmore m (by omega) (ws ++ ']' :: more) fun _ => noNumHead_append hws (by decide) _
          rw [append_assoc, parseItems, hv]
          simp [skipWs_append hws, skipWs_cons, isWs]
      · cases h

theorem parseMembers_used : ∀ (n : ℕ) (cs : List Char) (xs : List (String × Json)) (rest : List Char),
    parseMembers n cs = some (xs, rest) →
    ∃ used, cs = used ++ '\x7d' :: rest ∧ ∀ m, n ≤ m → ∀ more, parseMembers m (used ++ '\x7d' :: more) = some (xs, more)
  | 0, _, _, _, h => by
    rw [parseMembers] at h
    cases h
  | n + 1, cs, xs, rest, h => by
    rw [parseMembers] at h
    split at h
    · cases h
    next x r hx =>
    obtain ⟨used, rfl, hmore⟩ := parseMember_used n cs x r hx
    split at h
    · cases h
    next c r' hskip =>
    obtain ⟨hc, ws, hws, rfl⟩ := skipWs_eq_cons hskip
    split at h
    · next hcomma =>
      subst hcomma
      obtain ⟨⟨ys, r''⟩, hys, heq⟩ := map_eq_some_iff.1 h
      cases heq
      obtain ⟨used', rfl, hmore'⟩ := parseMembers_used n r' ys r'' hys
      refine ⟨used ++ (ws ++ ',' :: used'), by simp, ?_⟩
      rintro (_ | m) hm more
      · omega
      · have hx := hmore m (by omega) (ws ++ ',' :: (used' ++ '\x7d' :: more)) (noNumHead_append hws (by decide) _)
        simp only [append_assoc, cons_append]
        rw [parseMembers, hx]
        simp [skipWs_append hws, skipWs_cons, isWs, hmore' m (by omega) more]
    · split at h
      · next hend =>
        subst hend
        cases h
        refine ⟨used ++ ws, by simp, ?_⟩
        rintro (_ | m) hm more
        · omega
        · have hx := hmore m (by omega) (ws ++ '\x7d' :: more) (noNumHead_append hws (by decide) _)
          rw [append_assoc, parseMembers, hx]
          simp [skipWs_append hws, skipWs_cons, isWs]
      · cases h

theorem parseMember_used : ∀ (n : ℕ) (cs : List Char) (x : String × Json) (rest : List Char),
    parseMember n cs = some (x, rest) →
    ∃ used, cs = used ++ rest ∧
      ∀ m, n ≤ m → ∀ more, NoNumHead more → parseMember m (used ++ more) = some (x, more)
  | 0, _, _, _, h => by
    rw [parseMember] at h
    cases h
  | n + 1, cs, x, rest, h => by
    rw [parseMember] at h
    split at h
    · cases h
    next c r hskip =>
    obtain ⟨-, ws, hws, rfl⟩ := skipWs_eq_cons hskip
    split at h
    · next hq =>
      subst hq
      split at h
      · cases h
      next k r' hk =>
      obtain ⟨used, rfl, hmore⟩ := parseString_used hk
      split at h
      · cases h
      next c' r'' hskip' =>
      obtain ⟨-, ws', hws', rfl⟩ := skipWs_eq_cons hskip'
      split at h
      · next hcolon =>
        subst hcolon
        obtain ⟨⟨v, r'''⟩, hv, heq⟩ := map_eq_some_iff.1 h
        cases heq
        obtain ⟨used', rfl, -, hmore'⟩ := parseValue_used n r'' v r''' hv
        refine ⟨ws ++ '"' :: (used ++ (ws' ++ ':' :: used')), by simp, ?_⟩
        rintro (_ | m) hm more hnum
        · omega
        · simp only [append_assoc, cons_append]
          rw [parseMember, skipWs_append hws]
          simp [skipWs_append hws', skipWs_cons, isWs, hmore, hmore' m (by omega) more fun _ => hnum]
      · cases h
    · cases h
end

theorem parse_obj_used {cs : List Char} {ms : List (String × Json)} (h : parse cs = some (.obj ms)) :
    ∃ used blanks, cs = used ++ blanks ∧ (∀ x ∈ blanks, isWs x = true) ∧ used.getLast? = some '\x7d' ∧
      ∀ m, 2 * cs.length + 1 ≤ m → ∀ more, parseValue m (used ++ more) = some (.obj ms, more) := by
  unfold parse at h
  split at h
  · cases h
  next v rest hv =>
  split at h
  · next hblank =>
    cases h
    obtain ⟨used, hcs, hlast, hmore⟩ := parseValue_used _ _ _ _ hv
    refine ⟨used, rest, hcs, dropWhile_eq_nil_iff.1 hblank, hlast ⟨ms, rfl⟩, fun m hm more => ?_⟩
    exact hmore m hm more fun ⟨l, hl⟩ => by cases hl
  · cases h

/-- The text of an object that was cut off is not read as an object. -/
theorem parse_cut_ne_obj {ms ms' : List (String × Json)} {cut lost : List Char}
    (hcut : cut ++ lost = stringify (.obj ms)) (hlost : lost ≠ []) : parse cut ≠ some (.obj ms') := by
  intro h
  obtain ⟨used, blanks, rfl, -, -, hmore⟩ := parse_obj_used h
  let fuel := max (2 * (used ++ blanks).length + 1) (size (.obj ms))
  have hwhole := parseValue_stringify (.obj ms) fuel [] (Nat.le_max_right ..) noNumHead_nil
  rw [← hcut, append_nil, append_assoc, hmore fuel (Nat.le_max_left ..)] at hwhole
  simp only [some.injEq, Prod.mk.injEq, append_eq_nil_iff] at hwhole
  exact hlost hwhole.2.2

theorem parse_concat_ne_obj (hblank : isWs c = false) (hc : c ≠ '\x7d') (cs : List Char)
    {ms : List (String × Json)} : parse (cs ++ [c]) ≠ some (.obj ms) := by
  intro h
  obtain ⟨used, blanks, heq, hblanks, hlast, -⟩ := parse_obj_used h
  rcases eq_nil_or_concat blanks with rfl | ⟨blanks, d, rfl⟩
  · rw [append_nil] at heq
    rw [← heq, getLast?_concat] at hlast
    exact hc (some.inj hlast)
  · rw [concat_eq_append, ← append_assoc] at heq
    obtain ⟨-, hd⟩ := append_inj' heq rfl
    obtain rfl := singleton_inj.1 hd
    rw [hblanks c (by simp)] at hblank
    cases hblank

end Kookr.Lib.Json
