import Kookr.Lib.OrderedMap
import Mathlib.Algebra.Ring.Int.Defs
import Mathlib.Data.List.Induction
import Mathlib.Data.List.Nodup

/-! Lists of rows read as maps through a key, the last row of a key winning, and the
folds that build and update such maps. -/

namespace Kookr.Lib

open List OrderedMap

variable {α κ ν : Type*} [DecidableEq κ] (key : α → κ)

/-- `new Map(rows.map((row) => [key(row), row]))`. -/
def mapBy (rows : List α) : OrderedMap κ α := rows.foldl (fun m x => m.set (key x) x) .empty

def rowAt (rows : List α) (k : κ) : Option α := (mapBy key rows).get k

section Rows

variable {key} {rows rows' : List α} {k : κ}

theorem rowAt_mem {x : α} (h : rowAt key rows k = some x) : x ∈ rows ∧ key x = k := by
  rcases get_foldl_set_cases key id h with ⟨y, hy, hk, rfl⟩ | hempty
  · exact ⟨hy, hk⟩
  · cases hempty

theorem rowAt_of_mem (hn : (rows.map key).Nodup) {x : α} (hx : x ∈ rows) : rowAt key rows (key x) = some x :=
  get_foldl_set_of_mem key id hn hx .empty

theorem rowAt_eq_some_iff (hn : (rows.map key).Nodup) {x : α} : rowAt key rows k = some x ↔ x ∈ rows ∧ key x = k := by
  refine ⟨rowAt_mem, ?_⟩
  rintro ⟨hx, rfl⟩
  exact rowAt_of_mem hn hx

theorem rowAt_of_not_mem (h : k ∉ rows.map key) : rowAt key rows k = none :=
  get_foldl_set_of_not_mem key id h .empty

theorem rowAt_concat (rows : List α) (x : α) (k : κ) :
    rowAt key (rows ++ [x]) k = if key x = k then some x else rowAt key rows k := by
  unfold rowAt mapBy
  rw [foldl_append, foldl_cons, foldl_nil, get_set]

theorem rowAt_isSome_of_mem (h : k ∈ rows.map key) : ∃ x, rowAt key rows k = some x := by
  induction rows using reverseRecOn with
  | nil => cases h
  | append_singleton rows y ih =>
    rw [rowAt_concat]
    split
    · exact ⟨y, rfl⟩
    · rename_i hne
      apply ih
      rw [map_append, mem_append] at h
      rcases h with h | h
      · exact h
      · exact absurd (mem_singleton.1 h).symm hne

theorem rowAt_eq_none_iff : rowAt key rows k = none ↔ k ∉ rows.map key := by
  refine ⟨?_, rowAt_of_not_mem⟩
  intro h hmem
  obtain ⟨x, hx⟩ := rowAt_isSome_of_mem hmem
  rw [h] at hx
  cases hx

theorem mem_values_mapBy {x : α} : x ∈ (mapBy key rows).values ↔ rowAt key rows (key x) = some x := by
  rw [mem_values_iff]
  constructor
  · rintro ⟨k, hk⟩
    rwa [(rowAt_mem hk).2]
  · exact fun h => ⟨_, h⟩

theorem nodup_values_mapBy (rows : List α) : ((mapBy key rows).values.map key).Nodup := by
  have hkeys : (mapBy key rows).values.map key = (mapBy key rows).keys :=
    values_map_eq_keys _ _ fun _ _ hk => (rowAt_mem hk).2
  rw [hkeys]
  exact nodup_keys _

omit [DecidableEq κ] in
theorem map_filterMap_sublist {f : α → Option α} (hf : ∀ x, ∀ y ∈ f x, key y = key x) (rows : List α) :
    ((rows.filterMap f).map key).Sublist (rows.map key) := by
  induction rows with
  | nil => exact .slnil
  | cons x rows ih =>
    cases hx : f x with
    | none =>
      rw [filterMap_cons_none hx]
      exact ih.cons _
    | some y =>
      rw [filterMap_cons_some hx, map_cons, map_cons, hf x y hx]
      exact ih.cons_cons _

end Rows

section Change

variable {key} {rows : List α} {x : α}

omit [DecidableEq κ] in
theorem eq_of_key (hn : (rows.map key).Nodup) {y : α} (hx : x ∈ rows) (hy : y ∈ rows) (hkey : key y = key x) : y = x :=
  inj_on_of_nodup_map hn hy hx hkey

theorem find_key_eq_some (hn : (rows.map key).Nodup) (hx : x ∈ rows) : (rows.find? fun y => key y = key x) = some x := by
  cases hfind : rows.find? fun y => key y = key x with
  | none =>
    have hnone := find?_eq_none.1 hfind x hx
    simp at hnone
  | some y =>
    have hkey : key y = key x := by simpa using find?_some hfind
    rw [eq_of_key hn hx (mem_of_find?_eq_some hfind) hkey]

theorem find_key_iff (hn : (rows.map key).Nodup) {k : κ} : (rows.find? fun y => key y = k) = some x ↔ x ∈ rows ∧ key x = k := by
  constructor
  · exact fun h => ⟨mem_of_find?_eq_some h, by simpa using find?_some h⟩
  · rintro ⟨hx, rfl⟩
    exact find_key_eq_some hn hx

theorem map_change_of_not_mem {k : κ} (h : k ∉ rows.map key) (change : α → α) :
    (rows.map fun y => if key y = k then change y else y) = rows := by
  induction rows with
  | nil => rfl
  | cons y rows ih =>
    rw [map_cons, mem_cons, not_or] at h
    rw [map_cons, if_neg (Ne.symm h.1), ih h.2]

theorem sum_change (hn : (rows.map key).Nodup) (hx : x ∈ rows) (change : α → α) (w : α → ℤ) :
    ((rows.map fun y => if key y = key x then change y else y).map w).sum = (rows.map w).sum - w x + w (change x) := by
  induction rows with
  | nil => cases hx
  | cons y rows ih =>
    rw [map_cons, nodup_cons] at hn
    rw [map_cons, map_cons, sum_cons, map_cons, sum_cons]
    rcases mem_cons.1 hx with rfl | hx
    · rw [if_pos rfl, map_change_of_not_mem hn.1]
      omega
    · have hne : key y ≠ key x := fun heq => hn.1 (heq ▸ mem_map_of_mem hx)
      rw [if_neg hne, ih hn.2 hx]
      omega

end Change

section Merge

variable (merge : Option α → α → α)

/-- `for (const row of rows) m.set(key(row), merge(m.get(key(row)), row))`. -/
def mergeInto (m : OrderedMap κ α) (rows : List α) : OrderedMap κ α :=
  rows.foldl (fun m x => m.set (key x) (merge (m.get (key x)) x)) m

theorem get_mergeInto {rows : List α} (hn : (rows.map key).Nodup) (m : OrderedMap κ α) (k : κ) :
    (mergeInto key merge m rows).get k = (rowAt key rows k).elim (m.get k) fun x => some (merge (m.get k) x) := by
  induction rows generalizing m with
  | nil => rfl
  | cons y rows ih =>
    rw [map_cons, nodup_cons] at hn
    have hfold : mergeInto key merge m (y :: rows) =
        mergeInto key merge (m.set (key y) (merge (m.get (key y)) y)) rows := rfl
    rw [hfold, ih hn.2]
    by_cases hk : key y = k
    · subst hk
      have hrest : rowAt key rows (key y) = none := rowAt_of_not_mem hn.1
      have hy : rowAt key (y :: rows) (key y) = some y :=
        rowAt_of_mem (by rw [map_cons, nodup_cons]; exact hn) mem_cons_self
      rw [hrest, hy, Option.elim_none, get_set_self, Option.elim_some]
    · have hcons : rowAt key (y :: rows) k = rowAt key rows k := by
        apply Option.ext
        intro x
        rw [rowAt_eq_some_iff (by rw [map_cons, nodup_cons]; exact hn), rowAt_eq_some_iff hn.2,
          mem_cons]
        refine ⟨?_, fun h => ⟨.inr h.1, h.2⟩⟩
        rintro ⟨rfl | hx, hxk⟩
        · exact absurd hxk hk
        · exact ⟨hx, hxk⟩
      rw [hcons, get_set_of_ne _ _ hk]

end Merge

end Kookr.Lib
