import Mathlib.Data.List.Basic
import Mathlib.Data.Finset.Card
import Mathlib.Data.List.Sort

/-! Lists of parties that are known by their position: what stands at a position after one party has
changed, or a new one has come, and what is left when the first that is looked for has gone. -/

namespace Kookr.Lib

open List

variable {α : Type*} {l : List α} {p q : ℕ} {x y : α}

theorem getElem?_set_cases (h : (l.set p x)[q]? = some y) : q = p ∧ y = x ∨ q ≠ p ∧ l[q]? = some y := by
  rw [getElem?_set] at h
  split at h
  · rename_i hpq
    split at h
    · exact .inl ⟨hpq.symm, (Option.some.inj h).symm⟩
    · cases h
  · rename_i hpq
    exact .inr ⟨Ne.symm hpq, h⟩

theorem getElem?_concat_cases (h : (l ++ [x])[q]? = some y) : q = l.length ∧ y = x ∨ l[q]? = some y := by
  rw [getElem?_append] at h
  split at h
  · exact .inr h
  · rw [getElem?_singleton] at h
    split at h
    · exact .inl ⟨by omega, (Option.some.inj h).symm⟩
    · cases h

theorem getElem?_concat_of_some (h : l[q]? = some y) : (l ++ [x])[q]? = some y := by
  rw [List.getElem?_append_left (List.getElem?_eq_some_iff.1 h).1, h]

theorem mem_concat_cases (h : y ∈ l ++ [x]) : y ∈ l ∨ y = x :=
  (mem_append.1 h).imp_right mem_singleton.1

theorem nodup_concat (h : l.Nodup) (hx : x ∉ l) : (l ++ [x]).Nodup :=
  nodup_append.2 ⟨h, nodup_singleton x, fun _ hy _ hz heq => hx (mem_singleton.1 hz ▸ heq ▸ hy)⟩

theorem eraseP_of_find? {f : α → Bool} (h : l.find? f = some x) :
    ∃ before after, l = before ++ x :: after ∧ l.eraseP f = before ++ after := by
  obtain ⟨hx, before, after, rfl, hbefore⟩ := find?_eq_some_iff_append.1 h
  refine ⟨before, after, rfl, ?_⟩
  rw [eraseP_append_right _ (by simpa using hbefore), eraseP_cons, hx, cond_true]

end Kookr.Lib

/-! Pairings between two kinds of things. A pairing is as large as another when it has, for every pair of the other, a
pair of its own that shares one side with it: the left side for some of the right sides, the right side for the rest. -/

namespace Kookr.Lib

variable {α β : Type*}

/-- No two pairs share a side. -/
structure IsPairing (pairs : Finset (α × β)) : Prop where
  left : Set.InjOn Prod.fst (pairs : Set (α × β))
  right : Set.InjOn Prod.snd (pairs : Set (α × β))

theorem IsPairing.card_le {pairs cover : Finset (α × β)} (h : IsPairing pairs) (late : β → Prop)
    (hcover : ∀ pair ∈ pairs, ∃ c ∈ cover, (¬ late c.2 ∧ c.1 = pair.1) ∨ (late c.2 ∧ c.2 = pair.2)) : pairs.card ≤ cover.card := by
  choose! f hmem hside using hcover
  refine Finset.card_le_card_of_injOn f hmem fun p hp q hq heq => ?_
  rcases hside p hp with ⟨hlate, hleft⟩ | ⟨hlate, hright⟩
  · rcases hside q hq with ⟨-, hleft'⟩ | ⟨hlate', -⟩
    · exact h.left hp hq (hleft.symm.trans ((congrArg Prod.fst heq).trans hleft'))
    · rw [heq] at hlate
      exact absurd hlate' hlate
  · rcases hside q hq with ⟨hlate', -⟩ | ⟨-, hright'⟩
    · rw [heq] at hlate
      exact absurd hlate hlate'
    · exact h.right hp hq (hright.symm.trans ((congrArg Prod.snd heq).trans hright'))

end Kookr.Lib

/-! Insertion sort is stable: what the order does not tell apart stays as it stood. -/

namespace Kookr.Lib

variable {α : Type*} {r lt : α → α → Prop} [DecidableRel r] [Std.Total r] [IsTrans α r]

theorem pairwise_orderedInsert_stable {a : α} {l : List α} (h : l.Pairwise fun b c => r b c ∧ (r c b → lt b c))
    (ha : ∀ b ∈ l, lt a b) : (l.orderedInsert r a).Pairwise fun b c => r b c ∧ (r c b → lt b c) := by
  induction l with
  | nil => exact List.pairwise_singleton _ _
  | cons b l ih =>
    rw [List.pairwise_cons] at h
    rw [List.orderedInsert_cons]
    split_ifs with hab
    · refine List.pairwise_cons.2 ⟨fun c hc => ⟨?_, fun _ => ha c hc⟩, List.pairwise_cons.2 h⟩
      rcases List.mem_cons.1 hc with rfl | hc
      · exact hab
      · exact Trans.trans hab (h.1 c hc).1
    · refine List.pairwise_cons.2 ⟨fun c hc => ?_, ih h.2 fun c hc => ha c (List.mem_cons_of_mem b hc)⟩
      rcases (List.mem_orderedInsert r).1 hc with rfl | hc
      · exact ⟨(Std.Total.total b c).resolve_right hab, fun h => absurd h hab⟩
      · exact h.1 c hc

theorem pairwise_insertionSort_stable {l : List α} (h : l.Pairwise lt) :
    (l.insertionSort r).Pairwise fun a b => r a b ∧ (r b a → lt a b) := by
  induction l with
  | nil => exact List.Pairwise.nil
  | cons a l ih =>
    rw [List.pairwise_cons] at h
    apply pairwise_orderedInsert_stable (ih h.2)
    intro b hb
    exact h.1 b ((List.mem_insertionSort r).1 hb)

end Kookr.Lib

/-! A list without some of its elements, all of one kind. -/

namespace Kookr.Lib

variable {α : Type*} {p : α → Prop} {xs xs' ys ys' : List α}

/-- The first list is the second one without some elements that satisfy the condition. -/
inductive Without (p : α → Prop) : List α → List α → Prop
  | nil : Without p [] []
  | keep (x : α) {xs ys : List α} : Without p xs ys → Without p (x :: xs) (x :: ys)
  | leave {y : α} {xs ys : List α} : p y → Without p xs ys → Without p xs (y :: ys)

theorem Without.refl (xs : List α) : Without p xs xs := by
  induction xs with
  | nil => exact .nil
  | cons x xs ih => exact .keep x ih

theorem Without.append (h : Without p xs ys) (h' : Without p xs' ys') : Without p (xs ++ xs') (ys ++ ys') := by
  induction h with
  | nil => exact h'
  | keep x _ ih => exact .keep x ih
  | leave hy _ ih => exact .leave hy ih

theorem Without.all (h : ∀ y ∈ ys, p y) : Without p [] ys := by
  induction ys with
  | nil => exact .nil
  | cons y ys ih => exact .leave (h y List.mem_cons_self) (ih fun y' hy' => h y' (List.mem_cons_of_mem _ hy'))

end Kookr.Lib
