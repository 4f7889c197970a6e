import Kookr.Lib.MapRelation
import Mathlib.Logic.Function.Basic

/-! Maps with secondary indexes. Every record of the map has some keys of another kind, and an index leads from such a key to
the key of its record. An index that is kept with the map is the one that is built from the map's records alone. -/

namespace Kookr.Lib

open List OrderedMap

theorem nodup_eraseDups {α : Type*} [DecidableEq α] (l : List α) : l.eraseDups.Nodup := by
  induction hn : l.length using Nat.strongRecOn generalizing l with
  | ind n ih =>
    cases l with
    | nil => exact nodup_nil
    | cons a l =>
      rw [eraseDups_cons, nodup_cons]
      have hshort : (l.filter fun b => !b == a).length < n := by
        have := length_filter_le (fun b => !b == a) l
        simp only [length_cons] at hn
        omega
      exact ⟨fun hmem => by simp [mem_eraseDups] at hmem, ih _ hshort _ rfl⟩

theorem eraseDups_eq_self {α : Type*} [DecidableEq α] {l : List α} (h : l.Nodup) : l.eraseDups = l := by
  induction l with
  | nil => rfl
  | cons a l ih =>
    rw [nodup_cons] at h
    have hkeep : (l.filter fun b => !b == a) = l := by
      refine filter_eq_self.2 fun b hb => ?_
      have hne : b ≠ a := fun heq => h.1 (heq ▸ hb)
      simp [hne]
    rw [eraseDups_cons, hkeep, ih h.2]

namespace SecondaryIndex

variable {κ ι ν : Type*} [DecidableEq κ] [DecidableEq ι]

/-- All the keys now lead to one record. -/
def setAll (index : ι → Option κ) (keys : List ι) (id : κ) : ι → Option κ :=
  fun key => if key ∈ keys then some id else index key

omit [DecidableEq κ] in
theorem foldl_update (index : ι → Option κ) (keys : List ι) (id : κ) :
    keys.foldl (fun index key => Function.update index key (some id)) index = setAll index keys id := by
  induction keys generalizing index with
  | nil => funext key; simp [setAll]
  | cons k keys ih =>
    rw [foldl_cons, ih]
    funext key
    by_cases hkey : key = k
    · simp [setAll, hkey]
    · simp [setAll, hkey]

/-- The index leads from exactly the keys of the records, each to its record. -/
def Indexes (keys : ν → List ι) (index : ι → Option κ) (m : OrderedMap κ ν) : Prop :=
  ∀ key id, index key = some id ↔ ∃ r, m.get id = some r ∧ key ∈ keys r

/-- Every record is under its own identity. -/
def SelfKeyed (ident : ν → κ) (m : OrderedMap κ ν) : Prop := ∀ id r, m.get id = some r → ident r = id

variable {keys : ν → List ι} {ident : ν → κ} {index : ι → Option κ} {m : OrderedMap κ ν}

theorem SelfKeyed.set (h : SelfKeyed ident m) (r : ν) : SelfKeyed ident (m.set (ident r) r) := by
  intro id r' hget
  rw [get_set] at hget
  split at hget
  · rename_i heq
    rw [← Option.some.inj hget, heq]
  · exact h id r' hget

/-- A record put in place keeps the index, when it keeps the keys of the record it replaces and its other keys were free. -/
theorem Indexes.set (h : Indexes keys index m) {r : ν} (hkept : ∀ old, m.get (ident r) = some old → keys old ⊆ keys r)
    (hfree : ∀ key ∈ keys r, (∃ old, m.get (ident r) = some old ∧ key ∈ keys old) ∨ index key = none) :
    Indexes keys (setAll index (keys r) (ident r)) (m.set (ident r) r) := by
  intro key id
  unfold setAll
  by_cases hid : ident r = id
  · subst hid
    rw [get_set_self]
    split_ifs with hkey
    · exact ⟨fun _ => ⟨r, rfl, hkey⟩, fun _ => rfl⟩
    · refine ⟨fun hindex => ?_, fun ⟨r', hr', hkey'⟩ => absurd (Option.some.inj hr' ▸ hkey') hkey⟩
      obtain ⟨old, hold, hmem⟩ := (h key (ident r)).1 hindex
      exact absurd (hkept old hold hmem) hkey
  · rw [get_set_of_ne m r hid]
    split_ifs with hkey
    · refine ⟨fun heq => absurd (Option.some.inj heq) hid, fun hother => ?_⟩
      have hindex : index key = some id := (h key id).2 hother
      rcases hfree key hkey with ⟨old, hold, hmem⟩ | hnone
      · have hown : index key = some (ident r) := (h key (ident r)).2 ⟨old, hold, hmem⟩
        exact absurd (Option.some.inj (hown.symm.trans hindex)) hid
      · rw [hnone] at hindex
        cases hindex
    · exact h key id

omit [DecidableEq ι] in
theorem Indexes.none_iff (h : Indexes keys index m) (key : ι) : index key = none ↔ ∀ id r, m.get id = some r → key ∉ keys r := by
  refine ⟨fun hnone id r hget hmem => ?_, fun hfree => ?_⟩
  · rw [(h key id).2 ⟨r, hget, hmem⟩] at hnone
    cases hnone
  · cases hindex : index key with
    | none => rfl
    | some id =>
      obtain ⟨r, hget, hmem⟩ := (h key id).1 hindex
      exact absurd hmem (hfree id r hget)

/-- A lookup through the index finds what a scan of the records finds. -/
theorem Indexes.find_values (h : Indexes keys index m) (key : ι) :
    (index key).bind m.get = m.values.find? fun r => key ∈ keys r := by
  cases hfind : m.values.find? fun r => key ∈ keys r with
  | none =>
    have hnone : index key = none := by
      refine (h.none_iff key).2 fun id r hr hkey => ?_
      have hmem : r ∈ m.values := (mem_values_iff _ _).2 ⟨id, hr⟩
      exact absurd (decide_eq_true hkey) (find?_eq_none.1 hfind r hmem)
    rw [hnone]
    rfl
  | some r =>
    obtain ⟨id, hr⟩ := (mem_values_iff _ _).1 (mem_of_find?_eq_some hfind)
    have hkey : key ∈ keys r := by simpa using find?_some hfind
    rw [(h key id).2 ⟨r, hr, hkey⟩, Option.bind_some, hr]

omit [DecidableEq κ] in
theorem foldl_setAll_cases (l : List ν) (index : ι → Option κ) (key : ι) (id : κ)
    (h : l.foldl (fun index r => setAll index (keys r) (ident r)) index key = some id) :
    index key = some id ∨ ∃ r ∈ l, key ∈ keys r ∧ ident r = id := by
  induction l generalizing index with
  | nil => exact .inl h
  | cons r l ih =>
    rcases ih _ h with hset | ⟨r', hr', hkey⟩
    · simp only [setAll] at hset
      split at hset
      · exact .inr ⟨r, mem_cons_self, ‹_›, Option.some.inj hset⟩
      · exact .inl hset
    · exact .inr ⟨r', mem_cons_of_mem _ hr', hkey⟩

omit [DecidableEq κ] in
theorem foldl_setAll_isSome (ident : ν → κ) (l : List ν) (index : ι → Option κ) (key : ι)
    (h : (index key).isSome = true ∨ ∃ r ∈ l, key ∈ keys r) :
    (l.foldl (fun index r => setAll index (keys r) (ident r)) index key).isSome = true := by
  induction l generalizing index with
  | nil =>
    rcases h with h | ⟨r, hr, _⟩
    · exact h
    · cases hr
  | cons r l ih =>
    refine ih _ ?_
    simp only [setAll]
    split_ifs with hkey
    · exact .inl rfl
    · rcases h with h | ⟨r', hr', hkey'⟩
      · exact .inl h
      · rcases mem_cons.1 hr' with rfl | hr'
        · exact absurd hkey' hkey
        · exact .inr ⟨r', hr', hkey'⟩

/-- The index that is kept is the one built from the records. -/
theorem rebuild_index (h : Indexes keys index m) (hself : SelfKeyed ident m) :
    m.values.foldl (fun index r => setAll index (keys r) (ident r)) (fun _ => none) = index := by
  funext key
  cases hbuilt : m.values.foldl (fun index r => setAll index (keys r) (ident r)) (fun _ => none) key with
  | some id =>
    rcases foldl_setAll_cases m.values _ key id hbuilt with hnone | ⟨r, hr, hkey, hid⟩
    · cases hnone
    · obtain ⟨id', hget⟩ := (mem_values_iff m r).1 hr
      obtain rfl : id' = id := (hself id' r hget).symm.trans hid
      exact ((h key id').2 ⟨r, hget, hkey⟩).symm
  | none =>
    refine (h.none_iff key).2 (fun id r hget hkey => ?_) |>.symm
    have hsome := foldl_setAll_isSome ident m.values (fun _ => none) key
      (.inr ⟨r, (mem_values_iff m r).2 ⟨id, hget⟩, hkey⟩)
    rw [hbuilt] at hsome
    cases hsome

/-- A map of records under their identities is built again from its records, in their order. -/
theorem rebuild_map (hself : SelfKeyed ident m) : m.values.foldl (fun m r => m.set (ident r) r) .empty = m := by
  have hkeys : m.values.map ident = m.keys := values_map_eq_keys m ident hself
  have hentries : m.values.map (fun r => (ident r, r)) = m.entries := by
    rw [values, map_map]
    conv_rhs => rw [← map_id m.entries]
    refine map_congr_left fun e he => ?_
    have hid : ident e.2 = e.1 := hself e.1 e.2 ((get_eq_some_iff m e.1 e.2).2 he)
    simp [hid]
  have hnodup : (m.values.map ident).Nodup := by
    rw [hkeys]
    exact m.nodup_keys
  have hnew : ∀ r ∈ m.values, ident r ∉ (empty : OrderedMap κ ν).keys := fun _ _ => not_mem_nil
  have hbuilt := entries_foldl_set ident id hnodup hnew
  rw [mk.injEq]
  exact hbuilt.trans hentries

end SecondaryIndex

end Kookr.Lib
