import Kookr.Lib.OrderedMap
import Mathlib.Data.List.Dedup

/-! A map in memory and the table it is written to from time to time. Two lists hold the keys
whose rows have to be written and the keys whose rows have to go. -/

namespace Kookr.Lib

open List OrderedMap

variable {κ ν ρ : Type*} [DecidableEq κ]

namespace OrderedMap

theorem get_foldl_delete (l : List κ) (m : OrderedMap κ ν) (k : κ) :
    (l.foldl delete m).get k = if k ∈ l then none else m.get k := by
  induction l generalizing m with
  | nil => simp
  | cons x l ih =>
    rw [foldl_cons, ih, get_delete]
    by_cases hx : x = k
    · subst hx
      simp
    · simp [hx, Ne.symm hx]

theorem get_foldl_set_of_key {α : Type*} (key : α → κ) (val : α → ν) {l : List α} {k : κ} (h : k ∈ l.map key)
    (m : OrderedMap κ ν) : ∃ x ∈ l, key x = k ∧ (l.foldl (fun m x => m.set (key x) (val x)) m).get k = some (val x) := by
  induction l generalizing m with
  | nil => cases h
  | cons y l ih =>
    by_cases hrest : k ∈ l.map key
    · obtain ⟨x, hx, hk, hget⟩ := ih hrest (m.set (key y) (val y))
      exact ⟨x, mem_cons_of_mem _ hx, hk, hget⟩
    · obtain rfl : k = key y := (mem_cons.1 h).resolve_right hrest
      refine ⟨y, mem_cons_self, rfl, ?_⟩
      rw [foldl_cons, get_foldl_set_of_not_mem key val hrest, get_set_self]

theorem mem_keys_delete (m : OrderedMap κ ν) (k x : κ) : x ∈ (m.delete k).keys ↔ x ∈ m.keys ∧ x ≠ k := by
  rw [← get_isSome_iff, ← get_isSome_iff, get_delete]
  split
  · rename_i hk
    simp [hk]
  · rename_i hk
    simp [Ne.symm hk]

end OrderedMap

namespace WriteBehind

/-- Add a key to a list that holds each of its keys once. -/
def mark (l : List κ) (k : κ) : List κ := if k ∈ l then l else l ++ [k]

def unmark (l : List κ) (k : κ) : List κ := l.filter fun x => x ≠ k

@[simp] theorem mem_mark {l : List κ} {k x : κ} : x ∈ mark l k ↔ x ∈ l ∨ x = k := by
  unfold mark
  split
  · rename_i h
    refine ⟨.inl, ?_⟩
    rintro (hx | rfl)
    · exact hx
    · exact h
  · simp

@[simp] theorem mem_unmark {l : List κ} {k x : κ} : x ∈ unmark l k ↔ x ∈ l ∧ x ≠ k := by
  simp [unmark]

theorem mem_foldl_mark {l ks : List κ} {x : κ} : x ∈ ks.foldl mark l ↔ x ∈ l ∨ x ∈ ks := by
  induction ks generalizing l with
  | nil => simp
  | cons k ks ih => rw [foldl_cons, ih, mem_mark, mem_cons, or_assoc]

variable (read : κ → ρ → Option ν)

/-- The table says what the memory holds, but for the keys that are marked. -/
structure Tracked (mem : OrderedMap κ ν) (table : OrderedMap κ ρ) (dirty deleted : List κ) : Prop where
  live : ∀ k ∈ dirty, k ∈ mem.keys
  gone : ∀ k ∈ deleted, k ∉ mem.keys
  clean : ∀ k, k ∉ dirty → k ∉ deleted → (table.get k).bind (read k) = mem.get k

variable {read} {mem : OrderedMap κ ν} {table : OrderedMap κ ρ} {dirty deleted : List κ}

section

variable (h : Tracked read mem table dirty deleted)
include h

theorem Tracked.set (k : κ) (v : ν) : Tracked read (mem.set k v) table (mark dirty k) (unmark deleted k) := by
  refine ⟨?_, ?_, ?_⟩
  · intro x hx
    rw [mem_keys_set]
    rcases mem_mark.1 hx with hx | hx
    · exact .inr (h.live x hx)
    · exact .inl hx
  · intro x hx hmem
    obtain ⟨hx, hne⟩ := mem_unmark.1 hx
    rcases (mem_keys_set _ _ _ _).1 hmem with heq | hmem
    · exact hne heq
    · exact h.gone x hx hmem
  · intro x hdirty hdeleted
    have hne : x ≠ k := fun heq => hdirty (mem_mark.2 (.inr heq))
    rw [get_set_of_ne _ _ (Ne.symm hne)]
    refine h.clean x (fun hx => hdirty (mem_mark.2 (.inl hx))) fun hx => hdeleted (mem_unmark.2 ⟨hx, hne⟩)

theorem Tracked.delete (k : κ) : Tracked read (mem.delete k) table (unmark dirty k) (mark deleted k) := by
  refine ⟨?_, ?_, ?_⟩
  · intro x hx
    obtain ⟨hx, hne⟩ := mem_unmark.1 hx
    exact (mem_keys_delete _ _ _).2 ⟨h.live x hx, hne⟩
  · intro x hx hmem
    obtain ⟨hmem, hne⟩ := (mem_keys_delete _ _ _).1 hmem
    rcases mem_mark.1 hx with hx | hx
    · exact h.gone x hx hmem
    · exact hne hx
  · intro x hdirty hdeleted
    have hne : x ≠ k := fun heq => hdeleted (mem_mark.2 (.inr heq))
    rw [get_delete, if_neg (Ne.symm hne)]
    exact h.clean x (fun hx => hdirty (mem_unmark.2 ⟨hx, hne⟩)) fun hx => hdeleted (mem_mark.2 (.inl hx))

theorem Tracked.markAll
    (hgone : ∀ k ∈ deleted, (table.get k).bind (read k) = none) {dirty' : List κ} (hdirty : ∀ k ∈ dirty', k ∈ mem.keys) :
    Tracked read mem table (mem.keys.foldl mark dirty') [] := by
  refine ⟨?_, nofun, ?_⟩
  · intro x hx
    rcases mem_foldl_mark.1 hx with hx | hx
    · exact hdirty x hx
    · exact hx
  · intro x hx _
    have hkeys : x ∉ mem.keys := fun hmem => hx (mem_foldl_mark.2 (.inr hmem))
    by_cases hdel : x ∈ deleted
    · rw [hgone x hdel, (get_eq_none_iff mem x).2 hkeys]
    · exact h.clean x (fun hd => hkeys (h.live x hd)) hdel

end

section Flush

variable {key : ν → κ} {row : ν → ρ}

/-- Delete the rows that have to go, and write the others. -/
def flush (key : ν → κ) (row : ν → ρ) (table : OrderedMap κ ρ) (deleted : List κ) (rows : List ν) : OrderedMap κ ρ :=
  rows.foldl (fun table v => table.set (key v) (row v)) (deleted.foldl OrderedMap.delete table)

theorem Tracked.flush (h : Tracked read mem table dirty deleted) (hread : ∀ v, read (key v) (row v) = some v)
    {rows : List ν} (hrows : ∀ v ∈ rows, mem.get (key v) = some v)
    (hall : ∀ k ∈ dirty, ∃ v ∈ rows, key v = k) : Tracked read mem (flush key row table deleted rows) [] [] := by
  refine ⟨nofun, nofun, fun k _ _ => ?_⟩
  unfold WriteBehind.flush
  by_cases hk : k ∈ rows.map key
  · obtain ⟨v, hv, rfl, hget⟩ := OrderedMap.get_foldl_set_of_key key row hk (deleted.foldl OrderedMap.delete table)
    rw [hget, hrows v hv]
    exact hread v
  · rw [get_foldl_set_of_not_mem key row hk, get_foldl_delete]
    have hdirty : k ∉ dirty := by
      intro hd
      obtain ⟨v, hv, heq⟩ := hall k hd
      exact hk (mem_map.2 ⟨v, hv, heq⟩)
    split
    · rename_i hdel
      exact ((get_eq_none_iff mem k).2 (h.gone k hdel)).symm
    · rename_i hdel
      exact h.clean k hdirty hdel

end Flush

def readAll (read : κ → ρ → Option ν) (table : OrderedMap κ ρ) : List ν :=
  table.entries.filterMap fun e => read e.1 e.2

theorem mem_readAll {v : ν} : v ∈ readAll read table ↔ ∃ k, (table.get k).bind (read k) = some v := by
  unfold readAll
  rw [mem_filterMap]
  constructor
  · rintro ⟨⟨k, r⟩, hmem, hv⟩
    exact ⟨k, by rw [(get_eq_some_iff table k r).2 hmem]; exact hv⟩
  · rintro ⟨k, hk⟩
    obtain ⟨r, hr, hv⟩ := Option.bind_eq_some_iff.1 hk
    exact ⟨(k, r), (get_eq_some_iff table k r).1 hr, hv⟩

variable {key : ν → κ} (hkey : ∀ k r v, read k r = some v → key v = k)
include hkey

omit [DecidableEq κ] in
theorem nodup_readAll (table : OrderedMap κ ρ) : ((readAll read table).map key).Nodup := by
  have hsub : ((readAll read table).map key).Sublist table.keys := by
    unfold readAll OrderedMap.keys
    induction table.entries with
    | nil => exact List.Sublist.refl _
    | cons e es ih =>
      rw [filterMap_cons]
      split
      · exact ih.cons _
      · rename_i v hv
        rw [map_cons, map_cons, hkey e.1 e.2 v hv]
        exact ih.cons_cons _
  exact table.nodup_keys.sublist hsub

theorem Tracked.readAll_perm (h : Tracked read mem table [] []) (hmem : ∀ k v, mem.get k = some v → key v = k) :
    (readAll read table).Perm mem.values := by
  have hnodup : mem.values.Nodup := by
    refine List.Nodup.of_map key ?_
    rw [values_map_eq_keys mem key hmem]
    exact mem.nodup_keys
  refine (perm_ext_iff_of_nodup (nodup_readAll hkey table).of_map hnodup).2 fun v => ?_
  rw [mem_readAll, mem_values_iff]
  constructor
  · rintro ⟨k, hk⟩
    exact ⟨k, (h.clean k not_mem_nil not_mem_nil).symm.trans hk⟩
  · rintro ⟨k, hk⟩
    exact ⟨k, (h.clean k not_mem_nil not_mem_nil).trans hk⟩

theorem tracked_of_perm (hperm : (readAll read table).Perm mem.values) (hmem : ∀ k v, mem.get k = some v → key v = k) :
    Tracked read mem table [] [] := by
  refine ⟨nofun, nofun, fun k _ _ => Option.ext fun v => ?_⟩
  constructor
  · intro hk
    have hv : v ∈ mem.values := hperm.mem_iff.1 (mem_readAll.2 ⟨k, hk⟩)
    obtain ⟨k', hk'⟩ := (mem_values_iff mem v).1 hv
    obtain ⟨r, -, hr⟩ := Option.bind_eq_some_iff.1 hk
    rwa [← hkey k r v hr, hmem k' v hk']
  · intro hk
    obtain ⟨k', hk'⟩ := mem_readAll.1 (hperm.mem_iff.2 ((mem_values_iff mem v).2 ⟨k, hk⟩))
    obtain ⟨r, -, hr⟩ := Option.bind_eq_some_iff.1 hk'
    rwa [← hmem k v hk, hkey k' r v hr]

end WriteBehind

end Kookr.Lib
