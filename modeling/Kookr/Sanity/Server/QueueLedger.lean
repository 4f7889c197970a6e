import Kookr.Lib.ListAt
import Kookr.Spec.Server.OutputOperations
import Mathlib.Data.List.Perm.Basic
import Mathlib.Data.List.Count
import Mathlib.Tactic.Ring

/-! Marked bytes under concatenation and cutting, and what a snapshot leaves of a range. -/

namespace Kookr.Server

/-- The source of what follows the first `n` bytes. -/
def shift (source : Option TerminalSourceRange) (n : ℕ) : Option TerminalSourceRange :=
  source.map fun s => { s with start := s.start + n }

variable (source : Option TerminalSourceRange) (bytes : List UInt8)

theorem shift_shift (n m : ℕ) : shift (shift source n) m = shift source (n + m) := by
  cases source with
  | none => rfl
  | some s =>
    simp only [shift, Option.map_some, Option.some.injEq, TerminalSourceRange.mk.injEq, and_true, true_and]
    omega

theorem shift_zero : shift source 0 = source := by
  cases source with
  | none => rfl
  | some s => simp [shift]

@[simp] theorem length_marked :
    (marked source bytes).length = bytes.length := List.length_mapIdx

@[simp] theorem marked_nil : marked source [] = [] := rfl

theorem marked_append (a b : List UInt8) : marked source (a ++ b) = marked source a ++ marked (shift source a.length) b := by
  unfold marked
  rw [List.mapIdx_append]
  congr 1
  refine List.mapIdx_eq_mapIdx_iff.2 fun n _ => ?_
  cases source with
  | none => rfl
  | some s =>
    simp only [shift, Option.map_some, TerminalSourceRange.mark, Prod.mk.injEq, Option.some.injEq,
      SourceMark.mk.injEq, true_and]
    omega

theorem marked_drop (n : ℕ) (h : n ≤ bytes.length) : (marked source bytes).drop n = marked (shift source n) (bytes.drop n) := by
  conv_lhs => rw [← List.take_append_drop n bytes, marked_append, List.length_take, min_eq_left h]
  rw [List.drop_left' (by rw [length_marked, List.length_take, min_eq_left h])]

theorem marked_take (n : ℕ) (h : n ≤ bytes.length) : (marked source bytes).take n = marked source (bytes.take n) := by
  conv_lhs => rw [← List.take_append_drop n bytes, marked_append]
  rw [List.take_left' (by rw [length_marked, List.length_take, min_eq_left h])]

theorem marked_stop (f : TerminalSourceRange → ℤ) (bytes : List UInt8) :
    marked (source.map fun s => { s with stop := f s }) bytes = marked source bytes := by
  cases source <;> rfl

theorem marked_cons (b : UInt8) (bytes : List UInt8) :
    marked source (b :: bytes) = (b, source.map fun s => s.mark 0) :: marked (shift source 1) bytes := by
  rw [← List.singleton_append, marked_append]
  rfl

theorem filter_isUnpositioned_none : (marked none bytes).filter isUnpositioned = marked none bytes := by
  refine List.filter_eq_self.2 fun b hb => ?_
  obtain ⟨n, hn, rfl⟩ := List.mem_mapIdx.1 hb
  rfl

theorem filter_isUnpositioned_some (s : TerminalSourceRange) (bytes : List UInt8) :
    (marked (some s) bytes).filter isUnpositioned = [] := by
  refine List.filter_eq_nil_iff.2 fun b hb => ?_
  obtain ⟨n, hn, rfl⟩ := List.mem_mapIdx.1 hb
  exact Bool.false_ne_true

theorem filter_isBeyond_none (stop : ℤ) (bytes : List UInt8) : (marked none bytes).filter (isBeyond stop) = [] := by
  refine List.filter_eq_nil_iff.2 fun b hb => ?_
  obtain ⟨n, hn, rfl⟩ := List.mem_mapIdx.1 hb
  exact Bool.false_ne_true

/-- A snapshot covers the first bytes of a range. -/
theorem filter_isBeyond_some (stop : ℤ) (s : TerminalSourceRange) (bytes : List UInt8) :
    (marked (some s) bytes).filter (isBeyond stop) = (marked (some s) bytes).drop (stop - s.start).toNat := by
  induction bytes generalizing s with
  | nil => simp
  | cons b bytes ih =>
    rw [marked_cons, List.filter_cons]
    have hrest := ih { s with start := s.start + (1 : ℕ) }
    change (marked (shift (some s) 1) bytes).filter (isBeyond stop) =
      (marked (shift (some s) 1) bytes).drop (stop - (s.start + (1 : ℕ))).toNat at hrest
    have hmark : isBeyond stop (b, Option.map (fun s => s.mark 0) (some s)) = decide (stop ≤ s.start) := by
      simp [isBeyond, TerminalSourceRange.mark]
    rw [hmark, hrest]
    by_cases hle : stop ≤ s.start
    · have hzero : (stop - s.start).toNat = 0 := by omega
      have hnext : (stop - (s.start + (1 : ℕ))).toNat = 0 := by omega
      rw [hzero, hnext, if_pos (decide_eq_true hle), List.drop_zero, List.drop_zero]
    · have hsucc : (stop - s.start).toNat = (stop - (s.start + (1 : ℕ))).toNat + 1 := by omega
      rw [hsucc, if_neg (by simpa using hle), List.drop_succ_cons]

theorem continuesFrom_nil (epoch : String) (start : ℤ) : ContinuesFrom epoch start [] := by
  intro n b h
  cases h

theorem continuesFrom_marked (s : TerminalSourceRange) (bytes : List UInt8) :
    ContinuesFrom s.epoch s.start (marked (some s) bytes) := by
  intro n b h
  unfold marked at h
  rw [List.getElem?_mapIdx] at h
  obtain ⟨x, -, rfl⟩ := Option.map_eq_some_iff.1 h
  exact ⟨s.mark n, rfl, rfl, rfl⟩

theorem ContinuesFrom.append {epoch : String} {start : ℤ} {a b : List MarkedByte} (ha : ContinuesFrom epoch start a)
    (hb : ContinuesFrom epoch (start + a.length) b) : ContinuesFrom epoch start (a ++ b) := by
  intro n x hx
  rcases lt_or_ge n a.length with hlt | hge
  · rw [List.getElem?_append_left hlt] at hx
    exact ha n x hx
  · rw [List.getElem?_append_right hge] at hx
    obtain ⟨mark, hmark, hepoch, hposition⟩ := hb (n - a.length) x hx
    refine ⟨mark, hmark, hepoch, ?_⟩
    omega

end Kookr.Server

/-! The books of one queue: its segments, what it holds and counts, and the callbacks it
waits for. The segments that are still to be sent are named by a list of their own, since a
seed takes them out of the queue for a while. -/

namespace Kookr.Server

open Kookr.Lib Callback List Nat Function

structure Ledger where
  segments : ℕ → Segment
  created : ℕ
  held : List ℕ
  outstandingBytes : ℤ
  reservedBytes : ℤ
  sent : ℕ
  acknowledged : ℕ
  callbacks : List Callback

def TerminalOutputQueue.ledger (q : TerminalOutputQueue) : Ledger :=
  ⟨q.segments, q.created, q.held, q.outstandingBytes, q.reservedBytes, q.sent, q.acknowledged, q.callbacks⟩

/-- The segments of the entries, in order. -/
def segmentIds (entries : List Entry) : List ℕ :=
  entries.filterMap fun entry => match entry with
    | .bytes i => some i
    | .control _ => none

def Segment.unsent (s : Segment) : List MarkedByte := (marked s.source s.data).drop s.offset

def bytesOf (segments : ℕ → Segment) (ids : List ℕ) : List MarkedByte := ids.flatMap fun i => (segments i).unsent

/-- The callback of a frame of the segment that has not been called. -/
def Callback.isOpenFrame (i : ℕ) (c : Callback) : Bool :=
  match c.payload with
  | .control _ => false
  | .frame j _ => j = i && !c.completed

def Callback.openControlBytes (c : Callback) : ℕ :=
  match c.payload with
  | .control bytes => if c.completed then 0 else bytes
  | .frame _ _ => 0

/-- The bytes of the controls in transmission. -/
def controlBytes (callbacks : List Callback) : ℕ := (callbacks.map openControlBytes).sum

/-- A segment that may still be sent. -/
structure Segment.Wf (s : Segment) : Prop where
  length : s.length = s.data.length
  offset : s.offset ≤ s.length
  size : s.length ≤ FRAME_BYTES
  sentEnd : s.sentEnd = none
  source : ∀ r, s.source = some r → r.stop = r.start + s.length

/-- The callback leaves bytes of the segment that are in transmission or not acknowledged. -/
def Callback.Needs (acknowledged i : ℕ) (c : Callback) : Prop :=
  ∃ n, c.payload = .frame i n ∧ (c.completed = false ∨ acknowledged < n)

structure LedgerOk (tight : Prop) (owed : ℕ) (ids : List ℕ) (L : Ledger) : Prop where
  nodup : ids.Nodup
  heldNodup : L.held.Nodup
  subset : ∀ i ∈ ids, i ∈ L.held
  created : ∀ i ∈ L.held, i < L.created
  wf : ∀ i ∈ ids, (L.segments i).Wf
  outstanding : L.outstandingBytes = (bytesOf L.segments ids).length + owed + L.sent - L.acknowledged
  acknowledged : L.acknowledged ≤ L.sent
  credit : L.sent ≤ L.acknowledged + CREDIT_BYTES
  reserved : L.reservedBytes = FRAME_BYTES * L.held.length + controlBytes L.callbacks
  budget : L.reservedBytes ≤ VIEWER_BYTES
  frames : ∀ c ∈ L.callbacks, ∀ i n, c.payload = .frame i n → i < L.created ∧ n ≤ L.sent ∧
    (i ∈ ids → 0 < (L.segments i).offset) ∧ ∀ e, (L.segments i).sentEnd = some e → n ≤ e
  transmitting : ∀ i, (L.segments i).transmitting = L.callbacks.countP (isOpenFrame i)
  holds : tight → ∀ c ∈ L.callbacks, ∀ i, c.Needs L.acknowledged i → i ∈ L.held

variable {tight : Prop} {owed i : ℕ} {ids ids' : List ℕ} {L : Ledger} {segments : ℕ → Segment} {s : Segment} {callbacks : List Callback}

@[simp] theorem bytesOf_nil : bytesOf segments [] = [] := rfl

@[simp] theorem bytesOf_cons : bytesOf segments (i :: ids) = (segments i).unsent ++ bytesOf segments ids := rfl

theorem bytesOf_append : bytesOf segments (ids ++ ids') = bytesOf segments ids ++ bytesOf segments ids' :=
  flatMap_append

theorem bytesOf_update_of_not_mem (h : i ∉ ids) : bytesOf (update segments i s) ids = bytesOf segments ids := by
  refine flatMap_congr fun j hj => ?_
  rw [update_of_ne]
  rintro rfl
  exact h hj

theorem bytesOf_length_perm (h : ids.Perm ids') : (bytesOf segments ids).length = (bytesOf segments ids').length :=
  (h.flatMap_right _).length_eq

theorem Segment.Wf.length_unsent (h : s.Wf) : s.unsent.length = s.length - s.offset := by
  rw [Segment.unsent, length_drop, length_marked, h.length]

section

variable (h : LedgerOk tight owed ids L)
include h

theorem LedgerOk.perm (hperm : ids.Perm ids') : LedgerOk tight owed ids' L := by
  refine ⟨hperm.nodup h.nodup, h.heldNodup, fun j hj => h.subset j (hperm.mem_iff.2 hj), h.created,
    fun j hj => h.wf j (hperm.mem_iff.2 hj), ?_, h.acknowledged, h.credit, h.reserved, h.budget, ?_, h.transmitting,
    h.holds⟩
  · rw [← bytesOf_length_perm hperm]
    exact h.outstanding
  · intro c hc j n hpayload
    obtain ⟨hlt, hsent, hoffset, hend⟩ := h.frames c hc j n hpayload
    exact ⟨hlt, hsent, fun hj => hoffset (hperm.mem_iff.2 hj), hend⟩

omit h in
theorem bytesOf_length_update (segments : ℕ → Segment) (s : Segment) (hnodup : ids.Nodup) (hi : i ∈ ids) :
    (bytesOf (update segments i s) ids).length + (segments i).unsent.length =
      (bytesOf segments ids).length + s.unsent.length := by
  have hperm := perm_cons_erase hi
  have hnot : i ∉ ids.erase i := hnodup.not_mem_erase
  rw [bytesOf_length_perm hperm, bytesOf_length_perm hperm, bytesOf_cons, bytesOf_cons, length_append,
    length_append, update_self, bytesOf_update_of_not_mem hnot]
  omega

/-- A segment changes, and the count of outstanding bytes with it. -/
theorem LedgerOk.update {owed' : ℕ} {outstanding : ℤ}
    (hwf : i ∈ ids → s.Wf) (htransmitting : s.transmitting = (L.segments i).transmitting)
    (hframes : ∀ c ∈ L.callbacks, ∀ n, c.payload = .frame i n →
      (i ∈ ids → 0 < s.offset) ∧ ∀ e, s.sentEnd = some e → n ≤ e)
    (houtstanding : outstanding =
      (bytesOf (update L.segments i s) ids).length + owed' + L.sent - L.acknowledged) :
    LedgerOk tight owed' ids { L with
      segments := update L.segments i s
      outstandingBytes := outstanding } := by
  refine ⟨h.nodup, h.heldNodup, h.subset, h.created, ?_, houtstanding, h.acknowledged, h.credit, h.reserved, h.budget,
    ?_, ?_, h.holds⟩
  all_goals dsimp only
  · intro j hj
    by_cases hji : j = i
    · subst hji
      rw [update_self]
      exact hwf hj
    · rw [update_of_ne hji]
      exact h.wf j hj
  · intro c hc j n hpayload
    obtain ⟨hlt, hsent, hoffset, hend⟩ := h.frames c hc j n hpayload
    by_cases hji : j = i
    · subst hji
      rw [update_self]
      exact ⟨hlt, hsent, hframes c hc n hpayload⟩
    · rw [update_of_ne hji]
      exact ⟨hlt, hsent, hoffset, hend⟩
  · intro j
    by_cases hji : j = i
    · subst hji
      rw [update_self, htransmitting]
      exact h.transmitting j
    · rw [update_of_ne hji]
      exact h.transmitting j

/-- Nothing of a segment with no offset has been sent. -/
theorem LedgerOk.no_frames (hi : i ∈ ids) (hoffset : (L.segments i).offset = 0)
    {c : Callback} (hc : c ∈ L.callbacks) (n : ℕ) : c.payload ≠ .frame i n := by
  intro hpayload
  have hpos := (h.frames c hc i n hpayload).2.2.1 hi
  omega

theorem LedgerOk.add (hbudget : L.reservedBytes + FRAME_BYTES ≤ VIEWER_BYTES)
    (source : Option TerminalSourceRange) (hsource : ∀ r, source = some r → r.stop = r.start) :
    LedgerOk tight owed (ids ++ [L.created]) { L with
      segments := Function.update L.segments L.created { TerminalOutputQueue.blankSegment with source }
      created := L.created + 1
      held := L.held ++ [L.created]
      reservedBytes := L.reservedBytes + FRAME_BYTES } ∧
    bytesOf (Function.update L.segments L.created { TerminalOutputQueue.blankSegment with source })
      (ids ++ [L.created]) = bytesOf L.segments ids := by
  have hfresh : L.created ∉ L.held := fun hmem => lt_irrefl _ (h.created _ hmem)
  have hnew : L.created ∉ ids := fun hmem => hfresh (h.subset _ hmem)
  have hbytes : bytesOf (Function.update L.segments L.created { TerminalOutputQueue.blankSegment with source })
      (ids ++ [L.created]) = bytesOf L.segments ids := by
    rw [bytesOf_append, bytesOf_update_of_not_mem hnew, bytesOf_cons]
    simp [Segment.unsent, TerminalOutputQueue.blankSegment]
  refine ⟨⟨?_, ?_, ?_, ?_, ?_, ?_, h.acknowledged, h.credit, ?_, hbudget, ?_, ?_, ?_⟩, hbytes⟩
  any_goals dsimp only
  · exact nodup_concat h.nodup hnew
  · exact nodup_concat h.heldNodup hfresh
  · intro j hj
    rcases mem_append.1 hj with hj | hj
    · exact mem_append_left _ (h.subset j hj)
    · exact mem_append_right _ hj
  · intro j hj
    rcases mem_concat_cases hj with hj | rfl
    · exact lt_succ_of_lt (h.created j hj)
    · exact lt_succ_self _
  · intro j hj
    rcases mem_concat_cases hj with hj | rfl
    · rw [Function.update_of_ne (by rintro rfl; exact hnew hj)]
      exact h.wf j hj
    · rw [update_self]
      exact ⟨rfl, le_rfl, zero_le _, rfl, fun r hr => (hsource r hr).trans (Int.add_zero _).symm⟩
  · rw [hbytes]
    exact h.outstanding
  · rw [h.reserved, length_append, length_singleton]
    push_cast
    ring
  · intro c hc j n hpayload
    obtain ⟨hlt, hsent, hoffset, hend⟩ := h.frames c hc j n hpayload
    rw [update_of_ne hlt.ne]
    refine ⟨lt_succ_of_lt hlt, hsent, fun hj => hoffset ?_, hend⟩
    exact (mem_append.1 hj).resolve_right fun hmem => hlt.ne (mem_singleton.1 hmem)
  · intro j
    by_cases hj : j = L.created
    · subst hj
      rw [update_self]
      -- no callback knows the new segment
      have hzero : L.callbacks.countP (isOpenFrame L.created) = 0 := by
        refine countP_eq_zero.2 fun c hc hopen => ?_
        unfold isOpenFrame at hopen
        split at hopen
        · cases hopen
        · rename_i k n hpayload
          have hlt := (h.frames c hc k n hpayload).1
          simp only [Bool.and_eq_true, decide_eq_true_eq] at hopen
          omega
      rw [hzero]
      rfl
    · rw [update_of_ne hj]
      exact h.transmitting j
  · intro htight c hc j hneeds
    exact mem_append_left _ (h.holds htight c hc j hneeds)

omit h in
theorem LedgerOk.owe (h : LedgerOk tight 0 ids L) (n : ℕ) :
    LedgerOk tight n ids { L with outstandingBytes := L.outstandingBytes + n } := by
  refine ⟨h.nodup, h.heldNodup, h.subset, h.created, h.wf, ?_, h.acknowledged, h.credit, h.reserved, h.budget, h.frames,
    h.transmitting, h.holds⟩
  have hout := h.outstanding
  dsimp only
  omega

omit h in
theorem LedgerOk.fill {chunk : List UInt8} (h : LedgerOk tight (owed + chunk.length) ids L) (hi : i ∈ ids)
    (hoffset : (L.segments i).offset = 0) (hsize : (L.segments i).length + chunk.length ≤ FRAME_BYTES)
    (hs : s = { L.segments i with
      data := (L.segments i).data ++ chunk
      length := (L.segments i).length + chunk.length
      source := (L.segments i).source.map fun r => { r with stop := r.stop + chunk.length } }) :
    LedgerOk tight owed ids { L with segments := Function.update L.segments i s } ∧
      s.unsent = (L.segments i).unsent ++ marked (shift (L.segments i).source (L.segments i).length) chunk := by
  have hwf := h.wf i hi
  have hunsent : s.unsent =
      (L.segments i).unsent ++ marked (shift (L.segments i).source (L.segments i).length) chunk := by
    rw [hs]
    unfold Segment.unsent
    dsimp only
    rw [hoffset, drop_zero, drop_zero, marked_stop, marked_append, ← hwf.length]
  refine ⟨h.update ?_ ?_ ?_ ?_, hunsent⟩
  · intro _
    rw [hs]
    refine ⟨?_, ?_, hsize, hwf.sentEnd, ?_⟩
    · simp [hwf.length]
    · exact hwf.offset.trans (le_add_right _ _)
    · intro r hr
      obtain ⟨r', hr', rfl⟩ := Option.map_eq_some_iff.1 hr
      have hstop := hwf.source r' hr'
      dsimp only
      push_cast
      omega
  · rw [hs]
  · intro c hc n hpayload
    exact absurd hpayload (h.no_frames hi hoffset hc n)
  · have hlength := bytesOf_length_update L.segments s h.nodup hi
    have hout := h.outstanding
    rw [hunsent, length_append, length_marked] at hlength
    omega

omit h in
/-- A segment is given up: its unsent bytes no longer count. -/
theorem LedgerOk.drop (h : LedgerOk tight owed (i :: ids) L) :
    LedgerOk tight owed ids { L with
      outstandingBytes := L.outstandingBytes - ((L.segments i).length - (L.segments i).offset : ℤ) } := by
  have hwf := h.wf i mem_cons_self
  refine ⟨h.nodup.of_cons, h.heldNodup, fun j hj => h.subset j (mem_cons_of_mem _ hj), h.created,
    fun j hj => h.wf j (mem_cons_of_mem _ hj), ?_, h.acknowledged, h.credit, h.reserved, h.budget, ?_,
    h.transmitting, h.holds⟩
  · have hout := h.outstanding
    have hlength := hwf.length_unsent
    have hoffset := hwf.offset
    rw [bytesOf_cons, length_append] at hout
    dsimp only
    omega
  · intro c hc j n hpayload
    obtain ⟨hlt, hsent, hoffset, hend⟩ := h.frames c hc j n hpayload
    exact ⟨hlt, hsent, fun hj => hoffset (mem_cons_of_mem _ hj), hend⟩

omit h in
theorem LedgerOk.remove (h : LedgerOk tight owed (i :: ids) L) (hend : (L.segments i).offset = (L.segments i).length) :
    LedgerOk tight owed ids L := by
  have hdrop := h.drop
  rw [hend, sub_self, sub_zero] at hdrop
  exact hdrop

theorem LedgerOk.setSentEnd (hi : i ∉ ids)
    (htransmitting : s.transmitting = (L.segments i).transmitting) (hend : s.sentEnd = some L.sent) :
    LedgerOk tight owed ids { L with segments := Function.update L.segments i s } := by
  refine h.update (fun hmem => absurd hmem hi) htransmitting ?_ ?_
  · intro c hc n hpayload
    refine ⟨fun hmem => absurd hmem hi, fun e he => ?_⟩
    obtain rfl := Option.some.inj (hend.symm.trans he)
    exact (h.frames c hc i n hpayload).2.1
  · rw [bytesOf_update_of_not_mem hi]
    exact h.outstanding

theorem LedgerOk.release (hi : i ∉ ids) (hheld : i ∈ L.held)
    (hfree : tight → ∀ c ∈ L.callbacks, ¬ c.Needs L.acknowledged i) :
    LedgerOk tight owed ids { L with
      held := L.held.erase i
      reservedBytes := L.reservedBytes - FRAME_BYTES } := by
  have hne : ∀ j ∈ L.held, j ≠ i → j ∈ L.held.erase i := fun j hj hji => (h.heldNodup.mem_erase_iff).2 ⟨hji, hj⟩
  refine ⟨h.nodup, h.heldNodup.erase i, ?_, fun j hj => h.created j (mem_of_mem_erase hj), h.wf, h.outstanding,
    h.acknowledged, h.credit, ?_, ?_, h.frames, h.transmitting, ?_⟩
  · intro j hj
    exact hne j (h.subset j hj) (by rintro rfl; exact hi hj)
  · have hlength := length_erase_of_mem hheld
    have hpos := length_pos_of_mem hheld
    rw [h.reserved, hlength, cast_sub hpos]
    ring
  · have hbudget := h.budget
    dsimp only
    omega
  · intro htight c hc j hneeds
    refine hne j (h.holds htight c hc j hneeds) ?_
    rintro rfl
    exact hfree htight c hc hneeds

theorem LedgerOk.skip (hi : i ∈ ids) {count : ℕ}
    (hcount : count ≤ (L.segments i).length - (L.segments i).offset)
    (hs : s = { L.segments i with offset := (L.segments i).offset + count }) :
    LedgerOk tight owed ids { L with
      segments := Function.update L.segments i s
      outstandingBytes := L.outstandingBytes - count } := by
  have hwf := h.wf i hi
  have hoffset := hwf.offset
  have hwf' : s.Wf := by
    rw [hs]
    exact ⟨hwf.length, by dsimp only; omega, hwf.size, hwf.sentEnd, hwf.source⟩
  refine h.update (fun _ => hwf') (by rw [hs]) ?_ ?_
  · intro c hc n hpayload
    obtain ⟨-, -, hpos, hend⟩ := h.frames c hc i n hpayload
    rw [hs]
    exact ⟨fun hmem => lt_of_lt_of_le (hpos hmem) (le_add_right _ _), hend⟩
  · have hlength := bytesOf_length_update L.segments s h.nodup hi
    have hold := hwf.length_unsent
    have hnew := hwf'.length_unsent
    have hout := h.outstanding
    have hslength : s.length = (L.segments i).length := by rw [hs]
    have hsoffset : s.offset = (L.segments i).offset + count := by rw [hs]
    omega

omit h in
theorem controlBytes_concat (callbacks : List Callback) (c : Callback) :
    controlBytes (callbacks ++ [c]) = controlBytes callbacks + c.openControlBytes := by
  simp [controlBytes]

theorem LedgerOk.sendControl (bytes : ℕ)
    (hbudget : L.reservedBytes + bytes ≤ VIEWER_BYTES) :
    LedgerOk tight owed ids { L with
      reservedBytes := L.reservedBytes + bytes
      callbacks := L.callbacks ++ [⟨.control bytes, false⟩] } := by
  refine ⟨h.nodup, h.heldNodup, h.subset, h.created, h.wf, h.outstanding, h.acknowledged, h.credit, ?_, hbudget, ?_, ?_,
    ?_⟩
  · have hreserved := h.reserved
    have hopen : (Callback.mk (.control bytes) false).openControlBytes = bytes := rfl
    dsimp only
    rw [controlBytes_concat]
    omega
  · intro c hc i n hpayload
    rcases mem_concat_cases hc with hc | rfl
    · exact h.frames c hc i n hpayload
    · cases hpayload
  · intro i
    rw [h.transmitting i]
    simp [Callback.isOpenFrame]
  · intro htight c hc i hneeds
    rcases mem_concat_cases hc with hc | rfl
    · exact h.holds htight c hc i hneeds
    · obtain ⟨n, hpayload, -⟩ := hneeds
      cases hpayload

omit h in
theorem LedgerOk.sendFrame (h : LedgerOk tight owed (i :: ids) L) {count : ℕ}
    (hcount : count ≤ (L.segments i).length - (L.segments i).offset) (hpos : 0 < count)
    (hcredit : count ≤ CREDIT_BYTES - (L.sent - L.acknowledged)) {finished : Bool}
    (hfinished : finished = decide ((L.segments i).offset + count = (L.segments i).length))
    (hs : s = { L.segments i with
      offset := (L.segments i).offset + count
      sentEnd := if finished then some (L.sent + count) else (L.segments i).sentEnd
      transmitting := (L.segments i).transmitting + 1 }) :
    LedgerOk tight owed (if finished then ids else i :: ids) { L with
      segments := Function.update L.segments i s
      sent := L.sent + count
      callbacks := L.callbacks ++ [⟨.frame i (L.sent + count), false⟩] } := by
  have hi : i ∈ i :: ids := mem_cons_self
  have hnot : i ∉ ids := (nodup_cons.1 h.nodup).1
  have hwf := h.wf i hi
  have hoffset := hwf.offset
  have hack := h.acknowledged
  have hold := h.credit
  have hsub : ∀ j ∈ (if finished then ids else i :: ids), j ∈ i :: ids := by
    intro j hj
    split at hj
    · exact mem_cons_of_mem _ hj
    · exact hj
  -- the segment stays in the queue only when it has more to send
  have hstays : i ∈ (if finished then ids else i :: ids) → s.Wf := by
    intro hmem
    cases finished with
    | true => exact absurd hmem hnot
    | false =>
      rw [hs]
      exact ⟨hwf.length, by dsimp only; omega, hwf.size, hwf.sentEnd, hwf.source⟩
  have hsent : ∀ e, s.sentEnd = some e → e = L.sent + count := by
    intro e he
    rw [hs] at he
    dsimp only at he
    split at he
    · exact (Option.some.inj he).symm
    · rw [hwf.sentEnd] at he
      cases he
  refine ⟨?_, h.heldNodup, fun j hj => h.subset j (hsub j hj), h.created, ?_, ?_, ?_, ?_, ?_, h.budget, ?_, ?_, ?_⟩
  any_goals dsimp only
  · split
    · exact h.nodup.of_cons
    · exact h.nodup
  · intro j hj
    by_cases hji : j = i
    · subst hji
      rw [update_self]
      exact hstays hj
    · rw [update_of_ne hji]
      exact h.wf j (hsub j hj)
  · have hout := h.outstanding
    have hlength := hwf.length_unsent
    rw [bytesOf_cons, length_append] at hout
    cases finished with
    | true =>
      have hend := of_decide_eq_true hfinished.symm
      rw [if_pos rfl, bytesOf_update_of_not_mem hnot]
      push_cast
      omega
    | false =>
      have hmore := (hstays (by simp)).length_unsent
      have hslength : s.length = (L.segments i).length := by rw [hs]
      have hsoffset : s.offset = (L.segments i).offset + count := by rw [hs]
      rw [if_neg Bool.false_ne_true, bytesOf_cons, length_append, update_self,
        bytesOf_update_of_not_mem hnot]
      push_cast
      omega
  · omega
  · omega
  · have hopen : (Callback.mk (.frame i (L.sent + count)) false).openControlBytes = 0 := rfl
    rw [controlBytes_concat, hopen, add_zero]
    exact h.reserved
  · intro c hc j n hpayload
    rcases mem_concat_cases hc with hc | rfl
    · obtain ⟨hlt, hn, hpos', hend⟩ := h.frames c hc j n hpayload
      refine ⟨hlt, hn.trans (le_add_right _ _), ?_⟩
      by_cases hji : j = i
      · subst hji
        rw [update_self]
        refine ⟨fun _ => by rw [hs]; dsimp only; omega, fun e he => ?_⟩
        rw [hsent e he]
        omega
      · rw [update_of_ne hji]
        exact ⟨fun hj => hpos' (hsub j hj), hend⟩
    · cases hpayload
      rw [update_self]
      refine ⟨h.created i (h.subset i hi), le_rfl, fun _ => by rw [hs]; dsimp only; omega, fun e he => ?_⟩
      exact (hsent e he).ge
  · intro j
    rw [countP_append]
    by_cases hji : j = i
    · subst hji
      have htransmitting := h.transmitting j
      rw [update_self, hs]
      dsimp only
      rw [htransmitting]
      simp [Callback.isOpenFrame]
    · rw [update_of_ne hji, h.transmitting j]
      simp [Callback.isOpenFrame, Ne.symm hji]
  · intro htight c hc j hneeds
    rcases mem_concat_cases hc with hc | rfl
    · exact h.holds htight c hc j hneeds
    · obtain ⟨n, hpayload, -⟩ := hneeds
      cases hpayload
      exact h.subset i hi

/-! The callbacks keep their payloads and are completed one by one. -/

omit h in
theorem mem_set_completed {k : ℕ} {c c' : Callback} (hk : callbacks[k]? = some c)
    (hc' : c' ∈ callbacks.set k { c with completed := true }) :
    ∃ c₀ ∈ callbacks, c'.payload = c₀.payload ∧ (c₀.completed = true → c'.completed = true) := by
  rcases mem_or_eq_of_mem_set hc' with hmem | rfl
  · exact ⟨c', hmem, rfl, id⟩
  · exact ⟨c, mem_of_getElem? hk, rfl, fun _ => rfl⟩

omit h in
theorem countP_set {k : ℕ} {c : Callback} (hk : callbacks[k]? = some c) (c' : Callback) (p : Callback → Bool) :
    (callbacks.set k c').countP p + (if p c then 1 else 0) = callbacks.countP p + (if p c' then 1 else 0) := by
  induction callbacks generalizing k with
  | nil => cases hk
  | cons c₀ callbacks ih =>
    cases k with
    | zero =>
      obtain rfl := Option.some.inj hk
      rw [set_cons_zero, countP_cons, countP_cons]
      omega
    | succ k =>
      have hrest := ih (k := k) hk
      rw [set_cons_succ, countP_cons, countP_cons]
      omega

omit h in
theorem controlBytes_set {k : ℕ} {c : Callback} (hk : callbacks[k]? = some c) (c' : Callback) :
    controlBytes (callbacks.set k c') + c.openControlBytes = controlBytes callbacks + c'.openControlBytes := by
  unfold controlBytes
  induction callbacks generalizing k with
  | nil => cases hk
  | cons c₀ callbacks ih =>
    cases k with
    | zero =>
      obtain rfl := Option.some.inj hk
      rw [set_cons_zero, map_cons, map_cons, sum_cons, sum_cons]
      omega
    | succ k =>
      have hrest := ih (k := k) hk
      rw [set_cons_succ, map_cons, map_cons, sum_cons, sum_cons]
      omega

theorem LedgerOk.completeControl {k bytes : ℕ}
    (hk : L.callbacks[k]? = some ⟨.control bytes, false⟩) :
    LedgerOk tight owed ids { L with
      reservedBytes := L.reservedBytes - bytes
      callbacks := L.callbacks.set k ⟨.control bytes, true⟩ } ∧ (bytes : ℤ) ≤ L.reservedBytes := by
  have hsum := controlBytes_set hk ⟨.control bytes, true⟩
  have hopen : (Callback.mk (.control bytes) false).openControlBytes = bytes := rfl
  have hdone : (Callback.mk (.control bytes) true).openControlBytes = 0 := rfl
  have hreserved := h.reserved
  have hbudget := h.budget
  have hheld : 0 ≤ (FRAME_BYTES : ℤ) * L.held.length := Int.mul_nonneg (Int.natCast_nonneg _) (Int.natCast_nonneg _)
  refine ⟨⟨h.nodup, h.heldNodup, h.subset, h.created, h.wf, h.outstanding, h.acknowledged, h.credit, ?_, ?_, ?_, ?_,
    ?_⟩, ?_⟩
  · dsimp only
    omega
  · dsimp only
    omega
  · intro c hc i n hpayload
    obtain ⟨c₀, hc₀, hsame, -⟩ := mem_set_completed hk hc
    exact h.frames c₀ hc₀ i n (hsame ▸ hpayload)
  · intro i
    have hcount := countP_set hk ⟨.control bytes, true⟩ (Callback.isOpenFrame i)
    rw [h.transmitting i]
    exact congrArg Nat.cast hcount.symm
  · intro htight c hc i hneeds
    obtain ⟨c₀, hc₀, hsame, hdone⟩ := mem_set_completed hk hc
    obtain ⟨n, hpayload, hopen⟩ := hneeds
    refine h.holds htight c₀ hc₀ i ⟨n, hsame ▸ hpayload, hopen.imp_left fun hfalse => ?_⟩
    rw [Bool.eq_false_iff] at hfalse ⊢
    exact fun htrue => hfalse (hdone htrue)
  · omega

theorem LedgerOk.completeFrame {k n : ℕ}
    (hk : L.callbacks[k]? = some ⟨.frame i n, false⟩)
    (hs : s = { L.segments i with transmitting := (L.segments i).transmitting - 1 }) :
    LedgerOk tight owed ids { L with
      segments := Function.update L.segments i s
      callbacks := L.callbacks.set k ⟨.frame i n, true⟩ } := by
  have hsame : ∀ j, (Function.update L.segments i s j).unsent = (L.segments j).unsent ∧
      (Function.update L.segments i s j).offset = (L.segments j).offset ∧
      (Function.update L.segments i s j).sentEnd = (L.segments j).sentEnd := by
    intro j
    by_cases hji : j = i
    · subst hji
      rw [update_self, hs]
      exact ⟨rfl, rfl, rfl⟩
    · rw [update_of_ne hji]
      exact ⟨rfl, rfl, rfl⟩
  have hbytes : bytesOf (Function.update L.segments i s) ids = bytesOf L.segments ids :=
    flatMap_congr fun j _ => (hsame j).1
  refine ⟨h.nodup, h.heldNodup, h.subset, h.created, ?_, ?_, h.acknowledged, h.credit, ?_, h.budget, ?_, ?_, ?_⟩
  all_goals dsimp only
  · intro j hj
    have hwf := h.wf j hj
    by_cases hji : j = i
    · subst hji
      rw [update_self, hs]
      exact ⟨hwf.length, hwf.offset, hwf.size, hwf.sentEnd, hwf.source⟩
    · rw [update_of_ne hji]
      exact hwf
  · rw [hbytes]
    exact h.outstanding
  · have hsum := controlBytes_set hk ⟨.frame i n, true⟩
    simp only [openControlBytes, add_zero] at hsum
    rw [hsum]
    exact h.reserved
  · intro c hc j m hpayload
    obtain ⟨c₀, hc₀, hpay, -⟩ := mem_set_completed hk hc
    rw [(hsame j).2.1, (hsame j).2.2]
    exact h.frames c₀ hc₀ j m (hpay ▸ hpayload)
  · intro j
    have hcount := countP_set hk ⟨.frame i n, true⟩ (isOpenFrame j)
    have htransmitting := h.transmitting j
    by_cases hji : j = i
    · subst hji
      simp [isOpenFrame] at hcount
      rw [update_self, hs]
      dsimp only
      omega
    · simp [isOpenFrame, Ne.symm hji] at hcount
      rw [update_of_ne hji]
      omega
  · intro htight c hc j hneeds
    obtain ⟨c₀, hc₀, hpay, hdone⟩ := mem_set_completed hk hc
    obtain ⟨m, hpayload, hopen⟩ := hneeds
    refine h.holds htight c₀ hc₀ j ⟨m, hpay ▸ hpayload, hopen.imp_left fun hfalse => ?_⟩
    rw [Bool.eq_false_iff] at hfalse ⊢
    exact fun htrue => hfalse (hdone htrue)

theorem LedgerOk.acknowledge (bytes : ℕ) (hge : L.acknowledged ≤ bytes)
    (hle : bytes ≤ L.sent) :
    LedgerOk tight owed ids { L with
      outstandingBytes := L.outstandingBytes - ((bytes : ℤ) - L.acknowledged)
      acknowledged := bytes } := by
  have hout := h.outstanding
  have hcredit := h.credit
  refine ⟨h.nodup, h.heldNodup, h.subset, h.created, h.wf, ?_, hle, ?_, h.reserved, h.budget, h.frames, h.transmitting,
    ?_⟩
  · dsimp only
    omega
  · dsimp only
    omega
  · intro htight c hc i hneeds
    obtain ⟨n, hpayload, hopen⟩ := hneeds
    exact h.holds htight c hc i ⟨n, hpayload, hopen.imp_right hge.trans_lt⟩

/-- A segment that is wholly sent and acknowledged and not in transmission is not needed. -/
theorem LedgerOk.not_needs {e : ℕ} (htransmitting : (L.segments i).transmitting = 0)
    (hend : (L.segments i).sentEnd = some e) (hle : e ≤ L.acknowledged) : ∀ c ∈ L.callbacks, ¬ c.Needs L.acknowledged i := by
  rintro c hc ⟨n, hpayload, hopen⟩
  have hn := (h.frames c hc i n hpayload).2.2.2 e hend
  have hzero := h.transmitting i
  rw [htransmitting] at hzero
  have hcount := countP_eq_zero.1 (cast_eq_zero.1 hzero.symm) c hc
  rcases hopen with hfalse | hlt
  · exact hcount (by simp [isOpenFrame, hpayload, hfalse])
  · omega

end

end Kookr.Server
