import Mathlib.Algebra.BigOperators.Group.Finset.Basic
import Mathlib.Algebra.BigOperators.Intervals
import Mathlib.Tactic.Abel
import Kookr.Spec.Server.OutputOperations

/-! The fleet's count against the counts of its viewers. An operation of one viewer leaves
every other viewer as it is or disposed, since only a reservation reaches them and it
retires them. -/

namespace Kookr.Server

open Kookr.Lib List

namespace OutputFleet

variable {opts : FleetOptions} {w w' w'' : OutputFleet} {u v : ℕ} {q : TerminalOutputQueue}

@[simp] theorem put_queues_self : (w.put v q).queues v = q := Function.update_self ..

theorem put_queues_of_ne (h : u ≠ v) : (w.put v q).queues u = w.queues u := Function.update_of_ne h ..

def total (w : OutputFleet) : ℤ := ∑ v ∈ Finset.range w.opened, (w.queues v).reservedBytes

theorem total_put (h : v < w.opened) : (w.put v q).total = w.total - (w.queues v).reservedBytes + q.reservedBytes := by
  have hmem : v ∈ Finset.range w.opened := Finset.mem_range.2 h
  unfold total
  change ∑ u ∈ Finset.range w.opened, ((w.put v q).queues u).reservedBytes = _
  rw [← Finset.add_sum_erase _ _ hmem, ← Finset.add_sum_erase _ _ hmem, put_queues_self]
  have hrest : ∑ u ∈ (Finset.range w.opened).erase v, ((w.put v q).queues u).reservedBytes =
      ∑ u ∈ (Finset.range w.opened).erase v, (w.queues u).reservedBytes := by
    refine Finset.sum_congr rfl fun u hu => ?_
    rw [put_queues_of_ne (Finset.ne_of_mem_erase hu)]
  rw [hrest]
  abel

/-- What `dispose` leaves of a queue. -/
structure Gone (q : TerminalOutputQueue) : Prop where
  reserved : q.reservedBytes = 0
  pending : q.pending = []
  held : q.held = []

theorem gone_of_live (hlive : q.disposed = false) (hdisposed : q.disposed = true) : Gone q := by
  rw [hlive] at hdisposed
  cases hdisposed

structure Balanced (opts : FleetOptions) (w : OutputFleet) : Prop where
  sum : w.reservedBytes = w.total
  le : w.reservedBytes ≤ opts.limit
  nonneg : ∀ u, 0 ≤ (w.queues u).reservedBytes
  gone : ∀ u, (w.queues u).disposed = true → Gone (w.queues u)
  unopened : ∀ u, w.opened ≤ u → (w.queues u).disposed = true
  viewers : w.viewers.Nodup ∧ ∀ u ∈ w.viewers, (w.queues u).disposed = false

section

variable (h : Balanced opts w)
include h

theorem Balanced.lt_opened (hlive : (w.queues v).disposed = false) : v < w.opened := by
  by_contra hge
  rw [h.unopened v (Nat.le_of_not_lt hge)] at hlive
  cases hlive

/-- Every other viewer is as it was, or disposed. -/
structure Apart (v : ℕ) (w w' : OutputFleet) : Prop where
  opened : w'.opened = w.opened
  others : ∀ u, u ≠ v → w'.queues u = w.queues u ∨ (w'.queues u).disposed = true

omit h in
theorem Apart.refl (v : ℕ) (w : OutputFleet) : Apart v w w := ⟨rfl, fun _ _ => .inl rfl⟩

omit h in
theorem Apart.trans (h : Apart v w w') (h' : Apart v w' w'') : Apart v w w'' := by
  refine ⟨h'.opened.trans h.opened, fun u hu => ?_⟩
  rcases h'.others u hu with heq | hgone
  · rw [heq]
    exact h.others u hu
  · exact .inr hgone

omit h in
theorem Apart.put (h : Apart v w w') (q : TerminalOutputQueue) : Apart v w (w'.put v q) :=
  h.trans ⟨rfl, fun _ hu => .inl (put_queues_of_ne hu)⟩

theorem Balanced.put (hreserved : q.reservedBytes = (w.queues v).reservedBytes)
    (hdisposed : q.disposed = (w.queues v).disposed) (hgone : q.disposed = true → Gone q) : Balanced opts (w.put v q) := by
  have hsame : ∀ u, ((w.put v q).queues u).reservedBytes = (w.queues u).reservedBytes ∧
      ((w.put v q).queues u).disposed = (w.queues u).disposed := by
    intro u
    by_cases hu : u = v
    · subst hu
      rw [put_queues_self]
      exact ⟨hreserved, hdisposed⟩
    · rw [put_queues_of_ne hu]
      exact ⟨rfl, rfl⟩
  have htotal : (w.put v q).total = w.total := Finset.sum_congr rfl fun u _ => (hsame u).1
  refine ⟨h.sum.trans htotal.symm, h.le, ?_, ?_, ?_, h.viewers.1, ?_⟩
  · intro u
    rw [(hsame u).1]
    exact h.nonneg u
  · intro u hu
    by_cases huv : u = v
    · subst huv
      rw [put_queues_self] at hu ⊢
      exact hgone hu
    · rw [put_queues_of_ne huv] at hu ⊢
      exact h.gone u hu
  · intro u hu
    rw [(hsame u).2]
    exact h.unopened u hu
  · intro u hu
    rw [(hsame u).2]
    exact h.viewers.2 u hu

/-- The queues differ at most in what the fleet does not see. -/
structure SameStock (q q' : TerminalOutputQueue) : Prop where
  reserved : q'.reservedBytes = q.reservedBytes
  disposed : q'.disposed = q.disposed
  pending : q'.pending = q.pending
  held : q'.held = q.held

theorem Balanced.gone_same (hsame : SameStock (w.queues v) q) (hgone : q.disposed = true) : Gone q := by
  rw [hsame.disposed] at hgone
  have hold := h.gone v hgone
  exact ⟨hsame.reserved.trans hold.reserved, hsame.pending.trans hold.pending, hsame.held.trans hold.held⟩

theorem Balanced.put_release (hlive : (w.queues v).disposed = false) {bytes : ℤ}
    (hreserved : q.reservedBytes = (w.queues v).reservedBytes - bytes) (hbytes : 0 ≤ bytes)
    (hnonneg : 0 ≤ q.reservedBytes) (hgone : q.disposed = true → Gone q) : Balanced opts ((w.put v q).release v bytes) := by
  have htotal := total_put (w := w) (q := q) (h.lt_opened hlive)
  refine ⟨?_, ?_, ?_, ?_, ?_, ?_, ?_⟩
  · have hsum := h.sum
    change w.reservedBytes - bytes = (w.put v q).total
    omega
  · have hle := h.le
    change w.reservedBytes - bytes ≤ _
    omega
  · intro u
    change 0 ≤ ((w.put v q).queues u).reservedBytes
    by_cases huv : u = v
    · subst huv
      rw [put_queues_self]
      exact hnonneg
    · rw [put_queues_of_ne huv]
      exact h.nonneg u
  · intro u hu
    change ((w.put v q).queues u).disposed = true at hu
    change Gone ((w.put v q).queues u)
    by_cases huv : u = v
    · subst huv
      rw [put_queues_self] at hu ⊢
      exact hgone hu
    · rw [put_queues_of_ne huv] at hu ⊢
      exact h.gone u hu
  · intro u hu
    have hne : u ≠ v := by
      rintro rfl
      exact absurd (h.lt_opened hlive) (Nat.not_lt.2 hu)
    change ((w.put v q).queues u).disposed = true
    rw [put_queues_of_ne hne]
    exact h.unopened u hu
  · unfold release
    split
    · exact h.viewers.1.erase v
    · exact h.viewers.1
  · intro u hu
    change ((w.put v q).queues u).disposed = false
    have hcases : u ∈ w.viewers ∧ (u = v → q.reservedBytes ≠ 0) := by
      unfold release at hu
      rw [put_queues_self] at hu
      split at hu
      · have hmem := (List.Nodup.mem_erase_iff h.viewers.1).1 hu
        exact ⟨hmem.2, fun huv => absurd huv hmem.1⟩
      · rename_i hpos
        exact ⟨hu, fun _ => hpos⟩
    by_cases huv : u = v
    · subst huv
      rw [put_queues_self, Bool.eq_false_iff]
      exact fun hd => hcases.2 rfl (hgone hd).reserved
    · rw [put_queues_of_ne huv]
      exact h.viewers.2 u hcases.1

omit h in
theorem release_queues (w : OutputFleet) (v : ℕ) (bytes : ℤ) : (w.release v bytes).queues = w.queues := rfl

omit h in
theorem apart_put_release (w : OutputFleet) (v : ℕ) (q : TerminalOutputQueue) (bytes : ℤ) :
    Apart v w ((w.put v q).release v bytes) :=
  ⟨rfl, fun _ hu => .inl (put_queues_of_ne hu)⟩

theorem Balanced.dispose (v : ℕ) :
    Balanced opts (w.dispose v) ∧ Apart v w (w.dispose v) ∧ ((w.dispose v).queues v).disposed = true := by
  unfold OutputFleet.dispose
  dsimp only
  split
  · rename_i hgone
    exact ⟨h, .refl v w, hgone⟩
  · rename_i hlive
    rw [Bool.not_eq_true] at hlive
    refine ⟨h.put_release hlive (by simp) (h.nonneg v) le_rfl fun _ => ⟨rfl, rfl, rfl⟩, apart_put_release .., ?_⟩
    rw [release_queues, put_queues_self]

theorem Balanced.retire (v : ℕ) (reason : LagReason) : Balanced opts (w.retire v reason) ∧ Apart v w (w.retire v reason) ∧
      ((w.retire v reason).queues v).disposed = true := by
  unfold OutputFleet.retire
  split
  · rename_i hgone
    exact ⟨h, .refl v w, hgone⟩
  · obtain ⟨hbalanced, hapart, hgone⟩ := h.dispose v
    refine ⟨hbalanced.put rfl rfl (hbalanced.gone_same ⟨rfl, rfl, rfl, rfl⟩), hapart.put _, ?_⟩
    rw [put_queues_self]
    exact hgone

omit h in
theorem dispose_queues_of_ne (h : u ≠ v) : (w.dispose v).queues u = w.queues u := by
  unfold OutputFleet.dispose
  dsimp only
  split
  · rfl
  · rw [release_queues, put_queues_of_ne h]

omit h in
theorem retire_queues_of_ne (h : u ≠ v) (reason : LagReason) : (w.retire v reason).queues u = w.queues u := by
  unfold OutputFleet.retire
  split
  · rfl
  · rw [put_queues_of_ne h, dispose_queues_of_ne h]

theorem Balanced.discharge (hlive : (w.queues v).disposed = false) {bytes : ℕ} (hle : (bytes : ℤ) ≤ (w.queues v).reservedBytes) :
    Balanced opts (w.discharge v bytes) ∧ Apart v w (w.discharge v bytes) ∧ (w.discharge v bytes).queues v =
        { w.queues v with reservedBytes := (w.queues v).reservedBytes - bytes } := by
  unfold OutputFleet.discharge
  refine ⟨?_, apart_put_release .., ?_⟩
  · refine h.put_release hlive rfl (Int.natCast_nonneg bytes) (Int.sub_nonneg.2 hle) ?_
    exact gone_of_live hlive
  · rw [release_queues, put_queues_self]

theorem Balanced.releaseSegment (hlive : (w.queues v).disposed = false) (i : ℕ)
    (hle : (FRAME_BYTES : ℤ) ≤ (w.queues v).reservedBytes) :
    Balanced opts (w.releaseSegment v i) ∧ Apart v w (w.releaseSegment v i) ∧
      (w.releaseSegment v i).queues v = { w.queues v with
        held := (w.queues v).held.erase i
        reservedBytes := (w.queues v).reservedBytes - FRAME_BYTES } := by
  have hput : Balanced opts (w.put v { w.queues v with held := (w.queues v).held.erase i }) :=
    h.put rfl rfl (gone_of_live hlive)
  obtain ⟨hbalanced, hapart, heq⟩ := hput.discharge (by rw [put_queues_self]; exact hlive)
    (by rw [put_queues_self]; exact hle)
  rw [put_queues_self] at heq
  exact ⟨hbalanced, (Apart.put (.refl v w) _).trans hapart, heq⟩

end

theorem mem_of_largest (h : w.largest opts v = some u) : u ∈ w.viewers.filter (· ≠ v) :=
  (mem_insertionSort _).1 (mem_of_head? h)

theorem largest_ne (h : w.largest opts v = some u) : u ≠ v := by
  simpa using (mem_filter.1 (mem_of_largest h)).2

theorem retire_viewers (hlive : (w.queues u).disposed = false) (reason : LagReason) :
    (w.retire u reason).viewers = w.viewers.erase u := by
  unfold OutputFleet.retire OutputFleet.dispose OutputFleet.release
  simp only [hlive, Bool.false_eq_true, if_false, put_queues_self, if_true]
  rfl

/-- The fuel of the loop is enough: more of it changes nothing. -/
theorem reserveLoop_fuel (v bytes : ℕ) {fuel : ℕ} (h : Balanced opts w) (hfuel : (w.viewers.filter (· ≠ v)).length < fuel) :
    reserveLoop opts v bytes (fuel + 1) w = reserveLoop opts v bytes fuel w := by
  induction fuel generalizing w with
  | zero => exact absurd hfuel (Nat.not_lt_zero _)
  | succ fuel ih =>
    rw [reserveLoop, reserveLoop]
    split
    · split
      · rfl
      · rename_i u hu
        split
        · rfl
        · have hmem := mem_filter.1 (mem_of_largest hu)
          refine ih (h.retire u _).1 ?_
          rw [retire_viewers (h.viewers.2 u hmem.1), ← erase_filter]
          have hlen := length_erase_of_mem (mem_of_largest hu)
          have hpos := length_pos_of_mem (mem_of_largest hu)
          omega
    · rfl

theorem reserveLoop_spec (v bytes : ℕ) {fuel : ℕ} (h : Balanced opts w) (hlive : (w.queues v).disposed = false) :
    (∃ w', reserveLoop opts v bytes fuel w = (false, w') ∧ Balanced opts w' ∧ Apart v w w' ∧
        (w'.queues v).disposed = true) ∨
      ∃ w', Balanced opts w' ∧ Apart v w w' ∧ w'.queues v = w.queues v ∧
        (bytes : ℤ) ≤ opts.limit - w'.reservedBytes ∧
        reserveLoop opts v bytes fuel w = (true, { w' with
          viewers := if v ∈ w'.viewers then w'.viewers else w'.viewers ++ [v]
          reservedBytes := w'.reservedBytes + bytes }) := by
  induction fuel generalizing w with
  | zero => exact .inl ⟨_, rfl, h.retire v _⟩
  | succ fuel ih =>
    unfold reserveLoop
    split
    · split
      · exact .inl ⟨_, rfl, h.retire v _⟩
      · rename_i u hu
        split
        · exact .inl ⟨_, rfl, h.retire v _⟩
        · have hne := largest_ne hu
          have hown := retire_queues_of_ne (w := w) hne.symm .fleetBudget
          obtain ⟨hbalanced, hapart, hgone⟩ := h.retire u .fleetBudget
          -- the retired viewer is another one
          have hapart' : Apart v w (w.retire u .fleetBudget) := by
            refine ⟨hapart.opened, fun x hx => ?_⟩
            by_cases hxu : x = u
            · subst hxu
              exact .inr hgone
            · exact .inl (retire_queues_of_ne hxu _)
          rcases ih hbalanced (hown ▸ hlive) with ⟨w', heq, hw', hap, hd⟩ | ⟨w', hw', hap, hq, hle, heq⟩
          · exact .inl ⟨w', heq, hw', hapart'.trans hap, hd⟩
          · exact .inr ⟨w', hw', hapart'.trans hap, hq.trans hown, hle, heq⟩
    · rename_i hle
      exact .inr ⟨w, h, .refl v w, rfl, Int.not_lt.1 hle, rfl⟩

theorem Balanced.put_reserve (h : Balanced opts w) (hlive : (w.queues v).disposed = false) {bytes : ℕ}
    (hle : (bytes : ℤ) ≤ opts.limit - w.reservedBytes) :
    Balanced opts (({ w with
      viewers := if v ∈ w.viewers then w.viewers else w.viewers ++ [v]
      reservedBytes := w.reservedBytes + bytes }).put v
        { w.queues v with reservedBytes := (w.queues v).reservedBytes + bytes }) := by
  set q : TerminalOutputQueue := { w.queues v with reservedBytes := (w.queues v).reservedBytes + bytes }
  have hq : q.reservedBytes = (w.queues v).reservedBytes + bytes := rfl
  have hdisposed : ∀ u, ((w.put v q).queues u).disposed = (w.queues u).disposed := by
    intro u
    by_cases hu : u = v
    · subst hu
      rw [put_queues_self]
    · rw [put_queues_of_ne hu]
  have hreserved : ∀ u, u ≠ v → ((w.put v q).queues u).reservedBytes = (w.queues u).reservedBytes := by
    intro u hu
    rw [put_queues_of_ne hu]
  have hown : ((w.put v q).queues v).reservedBytes = (w.queues v).reservedBytes + bytes := by
    rw [put_queues_self]
  refine ⟨?_, ?_, ?_, ?_, ?_, ?_, ?_⟩
  · have hsum := h.sum
    have htotal := total_put (w := w) (q := q) (h.lt_opened hlive)
    change w.reservedBytes + bytes = (w.put v q).total
    omega
  · change w.reservedBytes + bytes ≤ _
    omega
  · intro u
    change 0 ≤ ((w.put v q).queues u).reservedBytes
    have hnonneg := h.nonneg u
    by_cases hu : u = v
    · subst hu
      omega
    · rw [hreserved u hu]
      exact hnonneg
  · intro u hu
    change ((w.put v q).queues u).disposed = true at hu
    rw [hdisposed] at hu
    have hne : u ≠ v := by
      rintro rfl
      rw [hlive] at hu
      cases hu
    rw [put_queues_of_ne hne]
    exact h.gone u hu
  · intro u hu
    exact (hdisposed u).trans (h.unopened u hu)
  · split
    · exact h.viewers.1
    · rename_i hnot
      refine nodup_append.2 ⟨h.viewers.1, nodup_singleton v, ?_⟩
      rintro a ha b hb rfl
      exact hnot (mem_singleton.1 hb ▸ ha)
  · intro u hu
    refine (hdisposed u).trans ?_
    split at hu
    · exact h.viewers.2 u hu
    · rcases mem_append.1 hu with hu | hu
      · exact h.viewers.2 u hu
      · rw [mem_singleton.1 hu]
        exact hlive

theorem charge_spec (h : Balanced opts w) (hlive : (w.queues v).disposed = false) (bytes : ℕ) :
    (∃ w', w.charge opts v bytes = (false, w') ∧ Balanced opts w' ∧ Apart v w w' ∧ (w'.queues v).disposed = true) ∨
      ∃ w', w.charge opts v bytes = (true, w') ∧ Balanced opts w' ∧ Apart v w w' ∧
        w'.queues v = { w.queues v with reservedBytes := (w.queues v).reservedBytes + bytes } := by
  unfold charge reserve
  rcases reserveLoop_spec v bytes h hlive with ⟨w', heq, hw', hap, hd⟩ | ⟨w', hw', hap, hq, hle, heq⟩
  · rw [heq]
    exact .inl ⟨w', rfl, hw', hap, hd⟩
  · rw [heq]
    refine .inr ⟨_, rfl, ?_, ⟨hap.opened, ?_⟩, ?_⟩
    · rw [← hq] at hlive
      exact hw'.put_reserve hlive hle
    · intro u hu
      rw [put_queues_of_ne hu]
      exact hap.others u hu
    · rw [put_queues_self, hq]

end OutputFleet

end Kookr.Server
