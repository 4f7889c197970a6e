import Mathlib.Data.List.Basic
import Mathlib.Data.List.Nodup

/-! Insertion-ordered finite maps, the behaviour of a JavaScript `Map`: setting a
present key keeps its position, setting a new key appends it. Keys are pairwise
distinct by construction. -/

namespace Kookr.Lib

open List

structure OrderedMap (κ ν : Type*) where
  entries : List (κ × ν)
  nodup : (entries.map Prod.fst).Nodup

namespace OrderedMap

variable {κ ν : Type*} [DecidableEq κ] (m : OrderedMap κ ν) (k : κ) (p : κ → ν → Bool)

def empty : OrderedMap κ ν := ⟨[], List.nodup_nil⟩

def keys (m : OrderedMap κ ν) : List κ := m.entries.map Prod.fst

def values (m : OrderedMap κ ν) : List ν := m.entries.map Prod.snd

def size (m : OrderedMap κ ν) : ℕ := m.entries.length

/-- The value at the first occurrence of a key in an association list. -/
def find (k : κ) : List (κ × ν) → Option ν
  | [] => none
  | (k', v) :: es => if k' = k then some v else find k es

def get (m : OrderedMap κ ν) (k : κ) : Option ν := find k m.entries

def has (m : OrderedMap κ ν) (k : κ) : Bool := (m.get k).isSome

/-- Replace in place, or append at the end. -/
def put (k : κ) (v : ν) : List (κ × ν) → List (κ × ν)
  | [] => [(k, v)]
  | (k', v') :: es => if k' = k then (k, v) :: es else (k', v') :: put k v es

omit [DecidableEq κ] in
theorem nodup_keys : m.keys.Nodup := m.nodup

theorem mem_put_keys (v : ν) (es : List (κ × ν)) (x : κ) : x ∈ (put k v es).map Prod.fst ↔ x = k ∨ x ∈ es.map Prod.fst := by
  induction es with
  | nil => simp [put]
  | cons e es ih =>
    obtain ⟨k', v'⟩ := e
    by_cases h : k' = k
    · subst h; simp [put]
    · simp only [put, h, if_false, map_cons, mem_cons, ih]
      tauto

theorem nodup_put (v : ν) (es : List (κ × ν)) (h : (es.map Prod.fst).Nodup) : ((put k v es).map Prod.fst).Nodup := by
  induction es with
  | nil => simp [put]
  | cons e es ih =>
    obtain ⟨k', v'⟩ := e
    rw [map_cons, nodup_cons] at h
    by_cases hk : k' = k
    · subst hk; simpa [put] using h
    · simp only [put, hk, if_false, map_cons, nodup_cons, mem_put_keys, false_or]
      exact ⟨h.1, ih h.2⟩

def set (m : OrderedMap κ ν) (k : κ) (v : ν) : OrderedMap κ ν :=
  ⟨put k v m.entries, nodup_put k v m.entries m.nodup⟩

/-- Keep the entries that satisfy `p`, in order. -/
def filter (m : OrderedMap κ ν) (p : κ → ν → Bool) : OrderedMap κ ν :=
  ⟨m.entries.filter fun e => p e.1 e.2,
    m.nodup.sublist (List.filter_sublist.map Prod.fst)⟩

def delete (m : OrderedMap κ ν) (k : κ) : OrderedMap κ ν := m.filter fun k' _ => k' ≠ k

theorem find_put (k k' : κ) (v : ν) (es : List (κ × ν)) : find k' (put k v es) = if k = k' then some v else find k' es := by
  induction es with
  | nil => simp [put, find]
  | cons e es ih =>
    obtain ⟨k₀, v₀⟩ := e
    by_cases h₀ : k₀ = k
    · subst h₀
      by_cases h : k₀ = k' <;> simp [put, find, h]
    · by_cases h : k₀ = k'
      · subst h; simp [put, find, h₀, Ne.symm h₀]
      · simp [put, find, h₀, h, ih]

theorem find_isSome_iff (es : List (κ × ν)) : (find k es).isSome ↔ k ∈ es.map Prod.fst := by
  induction es with
  | nil => simp [find]
  | cons e es ih =>
    obtain ⟨k', v'⟩ := e
    by_cases h : k' = k
    · simp [find, h]
    · simp [find, h, ih, Ne.symm h]

theorem find_eq_some_of_mem (v : ν) (es : List (κ × ν)) (hn : (es.map Prod.fst).Nodup)
    (hm : (k, v) ∈ es) : find k es = some v := by
  induction es with
  | nil => simp at hm
  | cons e es ih =>
    obtain ⟨k', v'⟩ := e
    rw [map_cons, nodup_cons] at hn
    rcases mem_cons.1 hm with h | h
    · cases h; simp [find]
    · have hk : k' ≠ k := by
        rintro rfl
        exact hn.1 (mem_map.2 ⟨(k', v), h, rfl⟩)
      simp [find, hk, ih hn.2 h]

theorem mem_of_find (v : ν) (es : List (κ × ν)) (h : find k es = some v) : (k, v) ∈ es := by
  induction es with
  | nil => simp [find] at h
  | cons e es ih =>
    obtain ⟨k', v'⟩ := e
    by_cases hk : k' = k
    · subst hk
      simp only [find, if_true, Option.some.injEq] at h
      subst h; exact mem_cons_self
    · simp only [find, hk, if_false] at h
      exact mem_cons_of_mem _ (ih h)

theorem find_filter (es : List (κ × ν)) (hn : (es.map Prod.fst).Nodup) :
    find k (es.filter fun e => p e.1 e.2) = (find k es).filter (p k) := by
  induction es with
  | nil => rfl
  | cons e es ih =>
    obtain ⟨k', v'⟩ := e
    rw [map_cons, nodup_cons] at hn
    by_cases hk : k' = k
    · subst hk
      by_cases hp : p k' v'
      · simp [hp, find, Option.filter]
      · have hnone : find k' es = none := by
          rw [← Option.not_isSome_iff_eq_none, find_isSome_iff]; exact hn.1
        simp [hp, find, ih hn.2, hnone, Option.filter]
    · by_cases hp : p k' v' <;> simp [hp, find, hk, ih hn.2]

@[simp] theorem get_empty : (empty : OrderedMap κ ν).get k = none := rfl

theorem get_set (k k' : κ) (v : ν) :
    (m.set k v).get k' = if k = k' then some v else m.get k' := find_put k k' v m.entries

@[simp] theorem get_set_self (k : κ) (v : ν) :
    (m.set k v).get k = some v := by simp [get_set]

theorem get_set_of_ne {k k' : κ} (v : ν) (h : k ≠ k') :
    (m.set k v).get k' = m.get k' := by simp [get_set, h]

theorem get_set_some {m : OrderedMap κ ν} {k k' : κ} {v w : ν} (h : (m.set k v).get k' = some w) :
    k = k' ∧ v = w ∨ k ≠ k' ∧ m.get k' = some w := by
  rw [get_set] at h
  split at h
  · exact .inl ⟨‹_›, Option.some.inj h⟩
  · exact .inr ⟨‹_›, h⟩

theorem get_set_map {k : κ} {v : ν} (h : m.get k = some v) (f : ν → ν) (k' : κ) :
    (m.set k (f v)).get k' = if k = k' then (m.get k').map f else m.get k' := by
  rw [get_set]
  split
  · next heq => rw [← heq, h, Option.map_some]
  · rfl

theorem get_filter (k : κ) :
    (m.filter p).get k = (m.get k).filter (p k) := find_filter k p m.entries m.nodup

theorem get_delete (k k' : κ) : (m.delete k).get k' = if k = k' then none else m.get k' := by
  rw [delete, get_filter]
  by_cases h : k = k'
  · subst h; cases m.get k <;> simp
  · cases hg : m.get k' <;> simp [h, Ne.symm h]

theorem get_delete_some {m : OrderedMap κ ν} {k k' : κ} {v : ν} (h : (m.delete k).get k' = some v) : k ≠ k' ∧ m.get k' = some v := by
  rw [get_delete] at h
  split at h
  · cases h
  · exact ⟨‹_›, h⟩

theorem get_isSome_iff (k : κ) : (m.get k).isSome ↔ k ∈ m.keys :=
  find_isSome_iff k m.entries

theorem get_eq_none_iff (k : κ) : m.get k = none ↔ k ∉ m.keys := by
  rw [← get_isSome_iff, Option.not_isSome_iff_eq_none]

theorem get_eq_some_iff (k : κ) (v : ν) : m.get k = some v ↔ (k, v) ∈ m.entries :=
  ⟨mem_of_find k v m.entries, find_eq_some_of_mem k v m.entries m.nodup⟩

theorem mem_keys_set (k x : κ) (v : ν) :
    x ∈ (m.set k v).keys ↔ x = k ∨ x ∈ m.keys := mem_put_keys k v m.entries x

omit [DecidableEq κ] in
theorem keys_filter_subset : (m.filter p).keys ⊆ m.keys := by
  intro x hx
  obtain ⟨e, he, rfl⟩ := mem_map.1 hx
  exact mem_map.2 ⟨e, (mem_filter.1 he).1, rfl⟩

omit [DecidableEq κ] in
theorem filter_eq_self (h : ∀ e ∈ m.entries, p e.1 e.2 = true) : m.filter p = m := by
  obtain ⟨es, hn⟩ := m
  simp only [filter, OrderedMap.mk.injEq]
  exact filter_eq_self.2 h

omit [DecidableEq κ] in
theorem size_eq_keys_length : m.size = m.keys.length := by
  simp [size, keys]

theorem mem_values_iff (v : ν) : v ∈ m.values ↔ ∃ k, m.get k = some v := by
  simp [values, get_eq_some_iff]

theorem values_map_eq_keys (f : ν → κ) (h : ∀ k v, m.get k = some v → f v = k) : m.values.map f = m.keys := by
  rw [values, map_map]
  exact map_congr_left fun e he => h e.1 e.2 ((get_eq_some_iff m e.1 e.2).2 he)

theorem keys_filterMap_sublist {κ ν ν' : Type*} (read : ν → Option ν') (es : List (κ × ν)) :
    ((es.filterMap fun e => (read e.2).map fun v => (e.1, v)).map Prod.fst).Sublist (es.map Prod.fst) := by
  induction es with
  | nil => exact List.Sublist.refl _
  | cons e es ih =>
    rw [filterMap_cons]
    cases read e.2 with
    | none => exact ih.cons _
    | some v => exact ih.cons_cons _

section Fill

variable {α : Type*} (key : α → κ) (val : α → ν)

theorem get_foldl_set_of_not_mem {l : List α} {k : κ} (h : k ∉ l.map key) (m : OrderedMap κ ν) :
    (l.foldl (fun m x => m.set (key x) (val x)) m).get k = m.get k := by
  induction l generalizing m with
  | nil => rfl
  | cons x l ih =>
    simp only [map_cons, mem_cons, not_or] at h
    rw [foldl_cons, ih h.2, get_set_of_ne _ _ (Ne.symm h.1)]

theorem get_foldl_set_of_mem {l : List α} (hn : (l.map key).Nodup) {x : α} (hx : x ∈ l) (m : OrderedMap κ ν) :
    (l.foldl (fun m x => m.set (key x) (val x)) m).get (key x) = some (val x) := by
  induction l generalizing m with
  | nil => cases hx
  | cons y l ih =>
    rw [map_cons, nodup_cons] at hn
    rw [foldl_cons]
    rcases mem_cons.1 hx with rfl | hx
    · rw [get_foldl_set_of_not_mem key val hn.1, get_set_self]
    · exact ih hn.2 hx _

theorem get_foldl_set_cases {l : List α} {m : OrderedMap κ ν} {k : κ} {v : ν}
    (h : (l.foldl (fun m x => m.set (key x) (val x)) m).get k = some v) :
    (∃ x ∈ l, key x = k ∧ val x = v) ∨ m.get k = some v := by
  induction l generalizing m with
  | nil => exact .inr h
  | cons x l ih =>
    rcases ih h with ⟨y, hy, hkv⟩ | hm
    · exact .inl ⟨y, mem_cons_of_mem _ hy, hkv⟩
    · rw [get_set] at hm
      split at hm
      · rename_i hk
        exact .inl ⟨x, mem_cons_self, hk, Option.some.inj hm⟩
      · exact .inr hm

end Fill

end OrderedMap

end Kookr.Lib

/-! Insertion-ordered sets as lists, the behaviour of a JavaScript `Set`: an element that is there keeps
its place, a new one comes last. -/

namespace Kookr.Lib.OrderedSet

variable {α : Type*} [DecidableEq α]

def add (set : List α) (x : α) : List α := if x ∈ set then set else set ++ [x]

def addAll (set xs : List α) : List α := xs.foldl add set

/-- `new Set(xs)`. -/
def ofList (xs : List α) : List α := addAll [] xs

variable {set xs : List α} {x y : α}

theorem mem_add : y ∈ add set x ↔ y ∈ set ∨ y = x := by
  unfold add
  split
  · next h => exact ⟨.inl, fun hy => hy.elim (fun hy => hy) fun hy => hy ▸ h⟩
  · simp

theorem mem_addAll : y ∈ addAll set xs ↔ y ∈ set ∨ y ∈ xs := by
  unfold addAll
  induction xs generalizing set with
  | nil => simp
  | cons x xs ih => rw [List.foldl_cons, ih, mem_add, List.mem_cons, or_assoc]

theorem mem_ofList : y ∈ ofList xs ↔ y ∈ xs := by simp [ofList, mem_addAll]

theorem subset_addAll (set xs : List α) : set ⊆ addAll set xs := fun _ hy => mem_addAll.2 (.inl hy)

end Kookr.Lib.OrderedSet
