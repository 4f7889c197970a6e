import Kookr.Lib.OrderedMap
import Mathlib.Data.List.Forall2
import Mathlib.Data.List.Perm.Subperm

/-! Order in insertion-ordered maps, and maps that correspond value by value. -/

namespace Kookr.Lib.OrderedMap

open List

variable {κ ν ν' : Type*} [DecidableEq κ] {k : κ}

theorem put_keys_of_mem {v : ν} {es : List (κ × ν)} (h : k ∈ es.map Prod.fst) : (put k v es).map Prod.fst = es.map Prod.fst := by
  induction es with
  | nil => cases h
  | cons e es ih =>
    unfold put
    split
    · rename_i hk
      rw [map_cons, map_cons, hk]
    · rename_i hk
      rw [map_cons, map_cons, ih (mem_of_ne_of_mem (Ne.symm hk) h)]

theorem put_of_not_mem {v : ν} {es : List (κ × ν)} (h : k ∉ es.map Prod.fst) : put k v es = es ++ [(k, v)] := by
  induction es with
  | nil => rfl
  | cons e es ih =>
    rw [map_cons, mem_cons, not_or] at h
    unfold put
    rw [if_neg (Ne.symm h.1), ih h.2]
    rfl

theorem keys_set_of_mem {m : OrderedMap κ ν} (v : ν) (h : k ∈ m.keys) : (m.set k v).keys = m.keys :=
  put_keys_of_mem h

theorem keys_set_of_not_mem {m : OrderedMap κ ν} (v : ν) (h : k ∉ m.keys) : (m.set k v).keys = m.keys ++ [k] := by
  have hput : (m.set k v).entries = m.entries ++ [(k, v)] := put_of_not_mem h
  unfold keys
  rw [hput, map_append]
  rfl

theorem entries_foldl_set {α : Type*} (key : α → κ) (val : α → ν) {l : List α} {m : OrderedMap κ ν}
    (hnodup : (l.map key).Nodup) (hnew : ∀ x ∈ l, key x ∉ m.keys) :
    (l.foldl (fun m x => m.set (key x) (val x)) m).entries = m.entries ++ l.map fun x => (key x, val x) := by
  induction l generalizing m with
  | nil => simp
  | cons x l ih =>
    rw [map_cons, nodup_cons] at hnodup
    have hx : (m.set (key x) (val x)).entries = m.entries ++ [(key x, val x)] :=
      put_of_not_mem (hnew x mem_cons_self)
    have hrest : ∀ y ∈ l, key y ∉ (m.set (key x) (val x)).keys := by
      intro y hy hmem
      rcases (mem_keys_set m (key x) (key y) (val x)).1 hmem with heq | hmem
      · exact hnodup.1 (mem_map.2 ⟨y, hy, heq⟩)
      · exact hnew y (mem_cons_of_mem _ hy) hmem
    rw [foldl_cons, ih hnodup.2 hrest, hx, append_assoc]
    rfl

theorem keys_delete_sublist (m : OrderedMap κ ν) (k : κ) : (m.delete k).keys.Sublist m.keys :=
  filter_sublist.map Prod.fst

/-- The same keys in the same order, with related values. -/
def Corr (R : κ → ν → ν' → Prop) (m : OrderedMap κ ν) (m' : OrderedMap κ ν') : Prop :=
  List.Forall₂ (fun p p' => p.1 = p'.1 ∧ R p.1 p.2 p'.2) m.entries m'.entries

variable {R : κ → ν → ν' → Prop} {m : OrderedMap κ ν} {m' : OrderedMap κ ν'}

theorem Corr.set (h : Corr R m m') {v : ν} {v' : ν'} (hv : R k v v') : Corr R (m.set k v) (m'.set k v') := by
  obtain ⟨es, hnodup⟩ := m
  obtain ⟨es', hnodup'⟩ := m'
  unfold Corr OrderedMap.set at *
  dsimp only at h ⊢
  clear hnodup hnodup'
  induction h with
  | nil => exact .cons ⟨rfl, hv⟩ .nil
  | cons hp hrest ih =>
    unfold put
    rw [← hp.1]
    split
    · exact .cons ⟨rfl, hv⟩ hrest
    · exact .cons ⟨rfl, hp.2⟩ ih

theorem Corr.delete (h : Corr R m m') (k : κ) : Corr R (m.delete k) (m'.delete k) := by
  obtain ⟨es, hnodup⟩ := m
  obtain ⟨es', hnodup'⟩ := m'
  unfold Corr OrderedMap.delete OrderedMap.filter at *
  dsimp only at h ⊢
  clear hnodup hnodup'
  induction h with
  | nil => exact .nil
  | cons hp hrest ih =>
    rw [filter_cons, filter_cons, ← hp.1]
    split
    · exact .cons hp ih
    · exact ih

theorem Corr.get (h : Corr R m m') (k : κ) :
    m.get k = none ∧ m'.get k = none ∨ ∃ v v', m.get k = some v ∧ m'.get k = some v' ∧ R k v v' := by
  obtain ⟨es, hnodup⟩ := m
  obtain ⟨es', hnodup'⟩ := m'
  unfold Corr OrderedMap.get at *
  dsimp only at h ⊢
  clear hnodup hnodup'
  induction h with
  | nil => exact .inl ⟨rfl, rfl⟩
  | cons hp hrest ih =>
    rename_i p p' _ _
    unfold find
    rw [← hp.1]
    split
    · rename_i hk
      exact .inr ⟨p.2, p'.2, rfl, rfl, hk ▸ hp.2⟩
    · exact ih

end Kookr.Lib.OrderedMap

/-! How many entries of a map satisfy a condition, compared with another map key by key. -/

namespace Kookr.Lib.OrderedMap

variable {κ ν ν' : Type*} [DecidableEq κ]

/-- The keys whose entries satisfy the condition. -/
def keysWhere (m : OrderedMap κ ν) (p : κ → ν → Bool) : List κ := (m.entries.filter fun e => p e.1 e.2).map Prod.fst

omit [DecidableEq κ] in
theorem nodup_keysWhere (m : OrderedMap κ ν) (p : κ → ν → Bool) : (m.keysWhere p).Nodup :=
  m.nodup.sublist (List.filter_sublist.map Prod.fst)

theorem mem_keysWhere (m : OrderedMap κ ν) (p : κ → ν → Bool) (k : κ) :
    k ∈ m.keysWhere p ↔ ∃ v, m.get k = some v ∧ p k v = true := by
  simp only [keysWhere, List.mem_map, List.mem_filter, Prod.exists, exists_and_right, exists_eq_right, get_eq_some_iff]

omit [DecidableEq κ] in
theorem length_keysWhere (m : OrderedMap κ ν) (p : κ → ν → Bool) :
    (m.keysWhere p).length = m.entries.countP fun e => p e.1 e.2 := by
  rw [keysWhere, List.length_map, List.countP_eq_length_filter]

variable {m : OrderedMap κ ν} {m' : OrderedMap κ ν'} (p : κ → ν → Bool) (p' : κ → ν' → Bool) {k : κ}

theorem countP_le (h : ∀ k v', m'.get k = some v' → p' k v' = true → ∃ v, m.get k = some v ∧ p k v = true) :
    (m'.entries.countP fun e => p' e.1 e.2) ≤ m.entries.countP fun e => p e.1 e.2 := by
  rw [← length_keysWhere, ← length_keysWhere]
  refine (List.subperm_of_subset (nodup_keysWhere m' p') fun k hk => ?_).length_le
  obtain ⟨v', hget, hp⟩ := (mem_keysWhere m' p' k).1 hk
  exact (mem_keysWhere m p k).2 (h k v' hget hp)

theorem countP_le_succ (x : κ) (h : ∀ k v', m'.get k = some v' → p' k v' = true → k = x ∨ ∃ v, m.get k = some v ∧ p k v = true) :
    (m'.entries.countP fun e => p' e.1 e.2) ≤ (m.entries.countP fun e => p e.1 e.2) + 1 := by
  rw [← length_keysWhere, ← length_keysWhere, ← List.length_cons (a := x)]
  refine (List.subperm_of_subset (nodup_keysWhere m' p') fun k hk => ?_).length_le
  obtain ⟨v', hget, hp⟩ := (mem_keysWhere m' p' k).1 hk
  rcases h k v' hget hp with rfl | hv
  · exact List.mem_cons_self
  · exact List.mem_cons_of_mem _ ((mem_keysWhere m p k).2 hv)

/-- How many values satisfy the condition. -/
def countWhere (m : OrderedMap κ ν) (p : ν → Bool) : ℕ := m.entries.countP fun e => p e.2

variable (p : ν → Bool)

theorem countP_put {v w : ν} {es : List (κ × ν)} (h : find k es = some w) :
    ((put k v es).countP fun e => p e.2) + (p w).toNat = (es.countP fun e => p e.2) + (p v).toNat := by
  induction es with
  | nil => cases h
  | cons e es ih =>
    unfold find at h
    unfold put
    split_ifs at h ⊢ with hk
    · obtain rfl := Option.some.inj h
      rw [List.countP_cons, List.countP_cons]
      cases p v <;> cases p e.2 <;> simp
    · have hrest := ih h
      rw [List.countP_cons, List.countP_cons]
      dsimp only
      omega

theorem countP_filter_ne {w : ν} {es : List (κ × ν)} (hn : (es.map Prod.fst).Nodup) (h : find k es = some w) :
    ((es.filter fun e => e.1 ≠ k).countP fun e => p e.2) + (p w).toNat = es.countP fun e => p e.2 := by
  induction es with
  | nil => cases h
  | cons e es ih =>
    rw [List.map_cons, List.nodup_cons] at hn
    unfold find at h
    split_ifs at h with hk
    · obtain rfl := Option.some.inj h
      have hothers : es.filter (fun e => e.1 ≠ k) = es := by
        rw [List.filter_eq_self]
        rintro e' he'
        simp only [ne_eq, decide_not, Bool.not_eq_true', decide_eq_false_iff_not]
        exact fun heq => hn.1 (hk ▸ heq ▸ List.mem_map_of_mem he')
      rw [List.filter_cons_of_neg (by simp [hk]), hothers, List.countP_cons]
      cases p e.2 <;> simp
    · have hrest := ih hn.2 h
      rw [List.filter_cons_of_pos (by simp [hk]), List.countP_cons, List.countP_cons]
      omega

theorem countWhere_set {v w : ν} (h : m.get k = some w) :
    (m.set k v).countWhere p + (p w).toNat = m.countWhere p + (p v).toNat :=
  countP_put p h

theorem countWhere_set_new {v : ν} (h : m.get k = none) :
    (m.set k v).countWhere p = m.countWhere p + (p v).toNat := by
  have hput : (m.set k v).entries = m.entries ++ [(k, v)] := put_of_not_mem ((get_eq_none_iff m k).1 h)
  rw [countWhere, hput, countWhere]
  cases hv : p v <;> simp [hv]

theorem countWhere_delete {w : ν} (h : m.get k = some w) :
    (m.delete k).countWhere p + (p w).toNat = m.countWhere p :=
  countP_filter_ne p m.nodup h

/-- Maps of one size agree where the one has a key only if they agree everywhere. -/
theorem get_eq_of_size_eq {m m' : OrderedMap κ ν} (hsize : m.size = m'.size) (h : ∀ k ∈ m.keys, m.get k = m'.get k) (k : κ) :
    m.get k = m'.get k := by
  have hsubset : m.keys ⊆ m'.keys := fun k hk => by
    rw [← get_isSome_iff, ← h k hk]
    exact (get_isSome_iff m k).2 hk
  have hperm : m.keys.Perm m'.keys := by
    refine (List.subperm_of_subset m.nodup_keys hsubset).perm_of_length_le ?_
    rw [← size_eq_keys_length, ← size_eq_keys_length]
    exact Nat.le_of_eq hsize.symm
  by_cases hk : k ∈ m.keys
  · exact h k hk
  · rw [(get_eq_none_iff m k).2 hk, (get_eq_none_iff m' k).2 fun hk' => hk (hperm.mem_iff.2 hk')]

end Kookr.Lib.OrderedMap
