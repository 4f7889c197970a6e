import Mathlib.Data.List.Basic
import Mathlib.Tactic.SplitIfs

/-! A ring of fixed length that keeps the end of a stream. Positions count the elements since the ring was laid
out last, and the element at position `p` stands in the slot `p % length`. -/

namespace Kookr.Lib.RingBuffer

open List Nat

variable {α : Type*}

/-- The elements are copied over those from that slot on. -/
def copyAt (target : List α) (slot : ℕ) (source : List α) : List α :=
  target.take slot ++ source ++ target.drop (slot + source.length)

/-- The elements at the positions from `first` on, none of which is overwritten by a later one. -/
def write (ring : List α) (first : ℕ) (source : List α) : List α :=
  let startSlot := first % ring.length
  let tail := min source.length (ring.length - startSlot)
  copyAt (copyAt ring startSlot (source.take tail)) 0 (source.drop tail)

/-- The last `size` elements before the position `head`. -/
def read (ring : List α) (head size : ℕ) : List α :=
  let startSlot := (head - size) % ring.length
  let tail := min size (ring.length - startSlot)
  (ring.drop startSlot).take tail ++ ring.take (size - tail)

/-- The ring holds the end of the stream, whose first `base` elements came before the ring was laid out. -/
structure Holds (ring : List α) (head base : ℕ) (stream : List α) : Prop where
  length : stream.length = base + head
  slots : ∀ p < head, head ≤ p + ring.length → ring[p % ring.length]? = stream[base + p]?

variable {ring source stream : List α} {head base first size : ℕ}

theorem length_copyAt {slot : ℕ} (h : slot + source.length ≤ ring.length) : (copyAt ring slot source).length = ring.length := by
  simp [copyAt]
  omega

theorem length_le_copyAt (ring : List α) (slot : ℕ) (source : List α) : ring.length ≤ (copyAt ring slot source).length := by
  simp [copyAt]
  omega

theorem length_le_write (ring : List α) (first : ℕ) (source : List α) : ring.length ≤ (write ring first source).length :=
  Nat.le_trans (length_le_copyAt _ _ _) (length_le_copyAt _ _ _)

theorem getElem?_copyAt {slot : ℕ} (h : slot + source.length ≤ ring.length) (j : ℕ) :
    (copyAt ring slot source)[j]? = if slot ≤ j ∧ j < slot + source.length then source[j - slot]? else ring[j]? := by
  have hslot : (ring.take slot).length = slot := by
    rw [length_take]
    omega
  unfold copyAt
  split_ifs with hin
  · rw [getElem?_append_left (by rw [length_append]; omega), getElem?_append_right (by omega), hslot]
  · by_cases hj : j < slot
    · rw [append_assoc, getElem?_append_left (by omega), getElem?_take_of_lt hj]
    · rw [getElem?_append_right (by rw [length_append]; omega), getElem?_drop, length_append]
      congr 1
      omega

/-- Within one turn of the ring, a position past `first` is in a slot past that of `first`, or at the front. -/
theorem slot_add {cap : ℕ} (k : ℕ) (hk : k < cap) :
    (first + k) % cap = if first % cap + k < cap then first % cap + k else first % cap + k - cap := by
  have hlt : first % cap < cap := mod_lt _ (by omega)
  rw [add_mod, mod_eq_of_lt hk]
  split_ifs with hfit
  · exact mod_eq_of_lt hfit
  · rw [mod_eq_sub_mod (by omega), mod_eq_of_lt (by omega)]

section write

variable (hcap : 0 < ring.length) (hsource : source.length ≤ ring.length)
include hcap hsource

theorem length_write : (write ring first source).length = ring.length := by
  have hlt : first % ring.length < ring.length := mod_lt _ hcap
  have htake : first % ring.length + (source.take (min source.length (ring.length - first % ring.length))).length ≤ ring.length := by
    rw [length_take]
    omega
  unfold write
  rw [length_copyAt (by rw [length_copyAt htake, length_drop]; omega), length_copyAt htake]

theorem getElem?_write (j : ℕ) : (write ring first source)[j]? =
    if first % ring.length ≤ j ∧ j < first % ring.length + source.length ∧ j < ring.length then source[j - first % ring.length]?
    else if j + ring.length < first % ring.length + source.length then source[j + ring.length - first % ring.length]?
    else ring[j]? := by
  have hlt : first % ring.length < ring.length := mod_lt _ hcap
  have htake : first % ring.length + (source.take (min source.length (ring.length - first % ring.length))).length ≤ ring.length := by
    rw [length_take]
    omega
  unfold write
  rw [getElem?_copyAt (by rw [length_copyAt htake, length_drop]; omega), getElem?_copyAt htake, getElem?_drop,
    length_drop, length_take]
  split_ifs
  all_goals first | omega | rfl | skip
  · congr 1
    omega
  · rw [getElem?_take_of_lt (by omega)]

theorem getElem?_write_new {k : ℕ} (hk : k < source.length) :
    (write ring first source)[(first + k) % ring.length]? = source[k]? := by
  rw [getElem?_write hcap hsource, slot_add k (by omega)]
  split_ifs
  all_goals first | omega | skip
  · congr 1
    omega
  · congr 1
    omega

theorem getElem?_write_old {p : ℕ} (hp : p < first) (hturn : first + source.length ≤ p + ring.length) :
    (write ring first source)[p % ring.length]? = ring[p % ring.length]? := by
  have hlt : first % ring.length < ring.length := Nat.mod_lt _ hcap
  obtain ⟨k, rfl⟩ := Nat.exists_eq_add_of_lt hp
  rw [getElem?_write hcap hsource]
  rw [Nat.add_assoc] at hlt ⊢
  by_cases hk : k + 1 < ring.length
  · rw [slot_add (k + 1) hk]
    split_ifs <;> first | omega | rfl
  · have hnil : source.length = 0 := by omega
    split_ifs <;> first | omega | rfl

end write

theorem holds_nil (ring : List α) : Holds ring 0 0 [] := ⟨rfl, fun _ hp => absurd hp (not_lt_zero _)⟩

/-- What is written goes on the stream; where it is longer than the ring only its end is written. -/
theorem Holds.write (h : Holds ring head base stream) (hcap : 0 < ring.length) (source : List α) :
    Holds (write ring (head + (source.length - ring.length)) (source.drop (source.length - ring.length)))
      (head + source.length) base (stream ++ source) := by
  have hdrop : (source.drop (source.length - ring.length)).length ≤ ring.length := by
    rw [length_drop]
    omega
  refine ⟨by rw [length_append, h.length]; omega, fun p hp hwindow => ?_⟩
  rw [length_write hcap hdrop] at hwindow ⊢
  by_cases hnew : head + (source.length - ring.length) ≤ p
  · obtain ⟨k, rfl⟩ := Nat.exists_eq_add_of_le hnew
    rw [getElem?_write_new hcap hdrop (by rw [length_drop]; omega), getElem?_drop,
      getElem?_append_right (by rw [h.length]; omega), h.length]
    congr 1
    omega
  · rw [getElem?_write_old hcap hdrop (by omega) (by rw [length_drop]; omega), h.slots p (by omega) (by omega),
      getElem?_append_left (by rw [h.length]; omega)]

theorem Holds.read (h : Holds ring head base stream) (hhead : size ≤ head) (hsize : size ≤ ring.length) :
    read ring head size = stream.drop (stream.length - size) := by
  rcases Nat.eq_zero_or_pos size with rfl | hpos
  · simp [RingBuffer.read]
  have hlt : (head - size) % ring.length < ring.length := mod_lt _ (by omega)
  refine ext_getElem? fun j => ?_
  rw [getElem?_drop]
  by_cases hj : j < size
  · have hslot := h.slots (head - size + j) (by omega) (by omega)
    rw [slot_add j (by omega)] at hslot
    rw [h.length, show base + head - size + j = base + (head - size + j) by omega, ← hslot]
    unfold RingBuffer.read
    by_cases hfit : (head - size) % ring.length + j < ring.length
    · rw [if_pos hfit, getElem?_append_left (by rw [length_take, length_drop]; omega), getElem?_take_of_lt (by omega),
        getElem?_drop]
    · rw [if_neg hfit, getElem?_append_right (by rw [length_take]; omega),
        getElem?_take_of_lt (by rw [length_take, length_drop]; omega)]
      congr 1
      rw [length_take, length_drop]
      omega
  · rw [getElem?_eq_none (by unfold RingBuffer.read; simp; omega), getElem?_eq_none (by omega)]

/-- The ring is laid out anew with the end of the stream at its front. -/
theorem Holds.layout {kept rest : List α} (hkept : kept = stream.drop (stream.length - kept.length)) (hle : kept.length ≤ stream.length) :
    Holds (kept ++ rest) kept.length (stream.length - kept.length) stream := by
  refine ⟨by omega, fun p hp hwindow => ?_⟩
  rw [length_append] at hwindow ⊢
  rw [mod_eq_of_lt (by omega), getElem?_append_left hp, hkept, getElem?_drop, ← hkept]

end Kookr.Lib.RingBuffer
