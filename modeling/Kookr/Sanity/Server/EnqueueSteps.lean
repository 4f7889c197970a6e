import Kookr.Sanity.Server.FleetBalance
import Kookr.Sanity.Server.QueueLedger

/-! Releasing segments, enqueueing bytes and controls: what each leaves in the books of its
queue and in its stream. A list of segments that a seed has taken aside goes along. -/

namespace Kookr.Server

open Kookr.Lib TerminalOutputQueue List Function

/-- The fleet is balanced and the other viewers are as they were or disposed. -/
structure Served (opts : FleetOptions) (v : ℕ) (w w' : OutputFleet) : Prop where
  balanced : w'.Balanced opts
  apart : OutputFleet.Apart v w w'

variable {opts : FleetOptions}

theorem Served.refl {w : OutputFleet} (h : w.Balanced opts) (v : ℕ) : Served opts v w w :=
  ⟨h, .refl v w⟩

theorem Served.trans {v : ℕ} {w w' w'' : OutputFleet} (h : Served opts v w w')
    (h' : Served opts v w' w'') : Served opts v w w'' :=
  ⟨h'.balanced, h.apart.trans h'.apart⟩

theorem Served.put {v : ℕ} {w w' : OutputFleet} (h : Served opts v w w') {q : TerminalOutputQueue}
    (hreserved : q.reservedBytes = (w'.queues v).reservedBytes) (hdisposed : q.disposed = (w'.queues v).disposed)
    (hgone : q.disposed = true → OutputFleet.Gone q) : Served opts v w (w'.put v q) :=
  ⟨h.balanced.put hreserved hdisposed hgone, h.apart.put q⟩

theorem Served.put_same {v : ℕ} {w w' : OutputFleet} (h : Served opts v w w') {q : TerminalOutputQueue}
    (hsame : OutputFleet.SameStock (w'.queues v) q) : Served opts v w (w'.put v q) :=
  h.put hsame.reserved hsame.disposed (h.balanced.gone_same hsame)

theorem Served.retire {v : ℕ} {w w' : OutputFleet} (h : Served opts v w w') (reason : LagReason) :
    Served opts v w (w'.retire v reason) ∧ ((w'.retire v reason).queues v).disposed = true := by
  obtain ⟨hbalanced, hapart, hgone⟩ := h.balanced.retire v reason
  exact ⟨⟨hbalanced, h.apart.trans hapart⟩, hgone⟩

/-- What is recorded of the queue is the same. -/
structure SameRecord (q q' : TerminalOutputQueue) : Prop where
  history : q'.history = q.history
  generation : q'.generation = q.generation

theorem SameRecord.refl (q : TerminalOutputQueue) : SameRecord q q := ⟨rfl, rfl⟩

theorem SameRecord.trans {q q' q'' : TerminalOutputQueue} (h : SameRecord q q') (h' : SameRecord q' q'') : SameRecord q q'' :=
  ⟨h'.history.trans h.history, h'.generation.trans h.generation⟩

@[simp] theorem segmentIds_nil : segmentIds [] = [] := rfl

@[simp] theorem segmentIds_bytes (i : ℕ) (rest : List Entry) : segmentIds (.bytes i :: rest) = i :: segmentIds rest := rfl

@[simp] theorem segmentIds_control (text : List Char) (rest : List Entry) :
    segmentIds (.control text :: rest) = segmentIds rest := rfl

@[simp] theorem segmentIds_append (a b : List Entry) : segmentIds (a ++ b) = segmentIds a ++ segmentIds b :=
  filterMap_append

theorem schedule_eq (q : TerminalOutputQueue) : ∃ scheduled, q.schedule = { q with scheduled } := by
  unfold schedule
  split
  · exact ⟨_, rfl⟩
  · split
    · exact ⟨_, rfl⟩
    · split <;> exact ⟨_, rfl⟩
    · exact ⟨_, rfl⟩

theorem Served.schedule {v : ℕ} {w w' : OutputFleet} (h : Served opts v w w') :
    Served opts v w (w'.put v (w'.queues v).schedule) := by
  obtain ⟨scheduled, heq⟩ := schedule_eq (w'.queues v)
  rw [heq]
  exact h.put_same ⟨rfl, rfl, rfl, rfl⟩

namespace OutputFleet

variable {opts : FleetOptions} {w w' : OutputFleet} {v i : ℕ} {tight : Prop} {owed : ℕ} {ids aside : List ℕ}
  {source : Option TerminalSourceRange} {q q' : TerminalOutputQueue}

theorem releaseSegment_spec (h : Balanced opts w) (hlive : (w.queues v).disposed = false)
    (hok : LedgerOk tight owed ids (w.queues v).ledger) (hi : i ∉ ids) (hheld : i ∈ (w.queues v).held)
    (hfree : tight → ∀ c ∈ (w.queues v).callbacks, ¬ c.Needs (w.queues v).acknowledged i) :
    Served opts v w (w.releaseSegment v i) ∧
      (w.releaseSegment v i).queues v = { w.queues v with
        held := (w.queues v).held.erase i
        reservedBytes := (w.queues v).reservedBytes - FRAME_BYTES } ∧
      LedgerOk tight owed ids ((w.releaseSegment v i).queues v).ledger := by
  have hle : (FRAME_BYTES : ℤ) ≤ (w.queues v).reservedBytes := by
    have hreserved := hok.reserved
    have hpos : (1 : ℤ) ≤ (w.queues v).held.length := by exact_mod_cast length_pos_of_mem hheld
    have hmul := Int.mul_le_mul_of_nonneg_left hpos (Int.natCast_nonneg FRAME_BYTES)
    change (w.queues v).reservedBytes = FRAME_BYTES * (w.queues v).held.length + controlBytes (w.queues v).callbacks
      at hreserved
    omega
  obtain ⟨hbalanced, hapart, heq⟩ := h.releaseSegment hlive i hle
  refine ⟨⟨hbalanced, hapart⟩, heq, ?_⟩
  rw [heq]
  exact hok.release hi hheld hfree

/-- Whether the loop of `releaseAcknowledged` releases the segment. -/
def isDone (q : TerminalOutputQueue) (i : ℕ) : Bool :=
  (q.segments i).transmitting = 0 && (match (q.segments i).sentEnd with
    | none => false
    | some sentEnd => sentEnd ≤ q.acknowledged)

/-- The queue differs at most in what it holds and counts. -/
def SameButHeld (q q' : TerminalOutputQueue) : Prop := ∃ held reservedBytes, q' = { q with held, reservedBytes }

theorem foldl_release_spec (hlive : (w.queues v).disposed = false) {rest : List ℕ} (hnodup : rest.Nodup)
    (hheld : ∀ j ∈ rest, j ∈ (w'.queues v).held) (hserved : Served opts v w w')
    (hsame : SameButHeld (w.queues v) (w'.queues v)) (hok : LedgerOk tight owed ids (w'.queues v).ledger) :
    ∃ w'', rest.foldl (fun w i => if isDone (w.queues v) i then w.releaseSegment v i else w) w' = w'' ∧
      Served opts v w w'' ∧ SameButHeld (w.queues v) (w''.queues v) ∧ LedgerOk tight owed ids (w''.queues v).ledger := by
  induction rest generalizing w' with
  | nil => exact ⟨w', rfl, hserved, hsame, hok⟩
  | cons j rest ih =>
    rw [nodup_cons] at hnodup
    rw [foldl_cons]
    split
    · rename_i hdone
      unfold isDone at hdone
      rw [Bool.and_eq_true, decide_eq_true_eq] at hdone
      obtain ⟨htransmitting, hend⟩ := hdone
      split at hend
      · cases hend
      · rename_i e he
        rw [decide_eq_true_eq] at hend
        obtain ⟨held, reservedBytes, heq⟩ := hsame
        have hlive' : (w'.queues v).disposed = false := by
          rw [heq]
          exact hlive
        -- what is still to be sent has no end yet
        have hnot : j ∉ ids := by
          intro hmem
          have hnone := (hok.wf j hmem).sentEnd
          cases hnone.symm.trans he
        obtain ⟨hserved', heq', hok'⟩ := releaseSegment_spec hserved.balanced hlive' hok hnot
          (hheld j mem_cons_self) fun _ => hok.not_needs htransmitting he hend
        refine ih hnodup.2 ?_ (hserved.trans hserved') ?_ hok'
        · intro k hk
          rw [heq']
          have hne : k ≠ j := by
            rintro rfl
            exact hnodup.1 hk
          exact (mem_erase_of_ne hne).2 (hheld k (mem_cons_of_mem _ hk))
        · rw [heq', heq]
          exact ⟨_, _, rfl⟩
    · exact ih hnodup.2 (fun k hk => hheld k (mem_cons_of_mem _ hk)) hserved hsame hok

theorem releaseAcknowledged_spec (h : Balanced opts w) (hlive : (w.queues v).disposed = false)
    (hok : LedgerOk tight owed ids (w.queues v).ledger) :
    Served opts v w (w.releaseAcknowledged v) ∧ SameButHeld (w.queues v) ((w.releaseAcknowledged v).queues v) ∧
      LedgerOk tight owed ids ((w.releaseAcknowledged v).queues v).ledger := by
  obtain ⟨w', heq, hspec⟩ := foldl_release_spec hlive hok.heldNodup (fun _ hj => hj) (.refl h v) ⟨_, _, rfl⟩ hok
  have hrelease : w.releaseAcknowledged v = w' := heq
  rw [hrelease]
  exact hspec

/-- The bytes from `offset` on have their positions where the segment goes on. -/
def GoesOn (s : Segment) (source : Option TerminalSourceRange) (offset : ℕ) : Prop :=
  ∀ chunk, marked (shift s.source s.length) chunk = marked (shift source offset) chunk

theorem marked_shift_congr {a b : TerminalSourceRange} {n m : ℕ} (hepoch : a.epoch = b.epoch)
    (hrevision : a.geometryRevision = b.geometryRevision) (hcols : a.cols = b.cols) (hrows : a.rows = b.rows)
    (hstart : a.start + n = b.start + m) (chunk : List UInt8) :
    marked (shift (some a) n) chunk = marked (shift (some b) m) chunk := by
  unfold marked
  simp [shift, TerminalSourceRange.mark, hepoch, hrevision, hcols, hrows, hstart]

theorem goesOn_of_sameSource {s : Segment} {offset : ℕ} (hwf : s.Wf)
    (h : sameSource s.source source offset = true) : GoesOn s source offset := by
  intro chunk
  have hstop := hwf.source
  revert h hstop
  cases s.source <;> cases source <;> simp only [sameSource]
  · intro _ _
    rfl
  · intro h
    cases h
  · intro h
    cases h
  · rename_i a b
    intro h hstop
    simp only [Bool.and_eq_true, decide_eq_true_eq] at h
    obtain ⟨⟨⟨⟨hepoch, hrevision⟩, hcols⟩, hrows⟩, hend⟩ := h
    exact marked_shift_congr hepoch hrevision hcols hrows (by rw [← hend, hstop a rfl]) chunk

/-- The queue with one segment ready for the bytes from `offset` on. -/
structure Ready (tight : Prop) (owed : ℕ) (aside : List ℕ) (q q' : TerminalOutputQueue)
    (source : Option TerminalSourceRange) (offset i : ℕ) : Prop where
  live : q'.disposed = false
  record : SameRecord q q'
  ok : LedgerOk tight owed (segmentIds q'.pending ++ aside) q'.ledger
  last : ∃ pre, segmentIds q'.pending = pre ++ [i]
  untouched : (q'.segments i).offset = 0
  room : (q'.segments i).length < FRAME_BYTES
  goesOn : GoesOn (q'.segments i) source offset
  bytes : bytesOf q'.segments (segmentIds q'.pending) = bytesOf q.segments (segmentIds q.pending)
  aside : ∀ j ∈ aside, q'.segments j = q.segments j

theorem openSegment_ready {q : TerminalOutputQueue} {offset : ℕ}
    (hlive : q.disposed = false) (hok : LedgerOk tight owed (segmentIds q.pending ++ aside) q.ledger)
    (hopen : q.openSegment source offset = some i) : Ready tight owed aside q q source offset i := by
  unfold TerminalOutputQueue.openSegment at hopen
  split at hopen
  · rename_i j hlast
    dsimp only at hopen
    split at hopen
    · rename_i hfits
      obtain rfl := Option.some.inj hopen
      simp only [Bool.and_eq_true, decide_eq_true_eq] at hfits
      obtain ⟨⟨hoffset, hroom⟩, hsource⟩ := hfits
      obtain ⟨pre, hpre⟩ := getLast?_eq_some_iff.1 hlast
      have hids : segmentIds q.pending = segmentIds pre ++ [j] := by
        rw [hpre, segmentIds_append]
        rfl
      have hmem : j ∈ segmentIds q.pending ++ aside := by simp [hids]
      exact ⟨hlive, .refl q, hok, ⟨_, hids⟩, hoffset, hroom, goesOn_of_sameSource (hok.wf j hmem) hsource, rfl,
        fun _ _ => rfl⟩
    · cases hopen
  · cases hopen

theorem addSegment_ready (source : Option TerminalSourceRange) (offset : ℕ)
    (hlive : q.disposed = false) (hok : LedgerOk tight owed (segmentIds q.pending ++ aside) q.ledger)
    (hbudget : q.reservedBytes + FRAME_BYTES ≤ VIEWER_BYTES)
    (hq' : q' = { q with reservedBytes := q.reservedBytes + FRAME_BYTES }) :
    Ready tight owed aside q (q'.addSegment source offset) source offset q'.created := by
  have hadd := hok.add hbudget (source.map fun s => { s with start := s.start + offset, stop := s.start + offset })
    (by
      intro r hr
      obtain ⟨s, -, rfl⟩ := Option.map_eq_some_iff.1 hr
      rfl)
  have hfresh : q.created ∉ segmentIds q.pending ++ aside := fun hmem =>
    lt_irrefl _ (hok.created _ (hok.subset _ hmem))
  rw [mem_append, not_or] at hfresh
  subst hq'
  have hids : segmentIds (q.pending ++ [.bytes q.created]) = segmentIds q.pending ++ [q.created] := by
    rw [segmentIds_append]
    rfl
  refine ⟨hlive, ⟨rfl, rfl⟩, ?_, ⟨_, hids⟩, ?_, ?_, ?_, ?_, ?_⟩
  · refine hadd.1.perm ?_
    change (segmentIds q.pending ++ aside ++ [q.created]).Perm (segmentIds (q.pending ++ [.bytes q.created]) ++ aside)
    rw [hids, append_assoc, append_assoc]
    exact perm_append_comm.append_left _
  · change (update q.segments q.created _ q.created).offset = 0
    rw [update_self]
    rfl
  · change (update q.segments q.created _ q.created).length < FRAME_BYTES
    rw [update_self]
    exact Nat.zero_lt_succ _
  · intro chunk
    change marked (shift (update q.segments q.created _ q.created).source
      (update q.segments q.created _ q.created).length) chunk = _
    rw [update_self]
    cases source with
    | none => rfl
    | some s =>
      exact marked_shift_congr (a := { s with start := s.start + offset, stop := s.start + offset }) (n := 0)
        (b := s) (m := offset) rfl rfl rfl rfl (Int.add_zero _) chunk
  · change bytesOf (update q.segments q.created _) (segmentIds (q.pending ++ [.bytes q.created])) = _
    rw [hids, bytesOf_append, bytesOf_update_of_not_mem hfresh.1, bytesOf_cons]
    simp [Segment.unsent, blankSegment]
  · intro j hj
    refine update_of_ne ?_ _ _
    rintro rfl
    exact hfresh.2 hj

theorem segmentFor_spec (h : Balanced opts w) (hlive : (w.queues v).disposed = false)
    (hok : LedgerOk tight owed (segmentIds (w.queues v).pending ++ aside) (w.queues v).ledger)
    (source : Option TerminalSourceRange) (offset : ℕ) :
    (∃ w', w.segmentFor opts v source offset = (none, w') ∧ Served opts v w w' ∧ (w'.queues v).disposed = true) ∨
      ∃ i w', w.segmentFor opts v source offset = (some i, w') ∧ Served opts v w w' ∧
        Ready tight owed aside (w.queues v) (w'.queues v) source offset i := by
  unfold segmentFor
  dsimp only
  split
  · rename_i i hopen
    exact .inr ⟨i, w, rfl, .refl h v, openSegment_ready hlive hok hopen⟩
  · split
    · exact .inl ⟨_, rfl, (Served.refl h v).retire _⟩
    · rename_i hbudget
      rcases charge_spec h hlive FRAME_BYTES with ⟨w', heq, hbal, hap, hgone⟩ | ⟨w', heq, hbal, hap, hq⟩
      · rw [heq]
        exact .inl ⟨w', rfl, ⟨hbal, hap⟩, hgone⟩
      · rw [heq]
        have hready := addSegment_ready source offset hlive hok (Int.not_lt.1 hbudget) hq
        refine .inr ⟨_, _, rfl, Served.put ⟨hbal, hap⟩ rfl rfl (gone_of_live hready.live), ?_⟩
        rw [put_queues_self]
        exact hready

/-- The queue after bytes have gone into its last segments. -/
structure Extended (tight : Prop) (owed : ℕ) (aside : List ℕ) (q q' : TerminalOutputQueue) (added : List MarkedByte) :
    Prop where
  live : q'.disposed = false
  record : SameRecord q q'
  ok : LedgerOk tight owed (segmentIds q'.pending ++ aside) q'.ledger
  bytes : bytesOf q'.segments (segmentIds q'.pending) = bytesOf q.segments (segmentIds q.pending) ++ added
  aside : ∀ j ∈ aside, q'.segments j = q.segments j

theorem Extended.trans {q q' q'' : TerminalOutputQueue} {owed' : ℕ} {added added' : List MarkedByte}
    (h : Extended tight owed aside q q' added) (h' : Extended tight owed' aside q' q'' added') :
    Extended tight owed' aside q q'' (added ++ added') := by
  refine ⟨h'.live, h.record.trans h'.record, h'.ok, ?_, fun j hj => (h'.aside j hj).trans (h.aside j hj)⟩
  rw [h'.bytes, h.bytes, append_assoc]

theorem Ready.fill {offset count : ℕ}
    {bytes : List UInt8} {q'' : TerminalOutputQueue} (h : Ready tight (bytes.length - offset) aside q q' source offset i)
    (hoffset : offset < bytes.length) (hfill : q'.fillSegment i bytes offset = (count, q'')) :
    0 < count ∧ offset + count ≤ bytes.length ∧ Extended tight (bytes.length - (offset + count)) aside q q''
        (marked (shift source offset) ((bytes.drop offset).take count)) := by
  obtain ⟨pre, hlast⟩ := h.last
  have hroom := h.room
  have hcount : count = min (FRAME_BYTES - (q'.segments i).length) (bytes.length - offset) := congrArg Prod.fst hfill.symm
  have hq'' : q'' = q'.setSegment i { q'.segments i with
      data := (q'.segments i).data ++ (bytes.drop offset).take count
      length := (q'.segments i).length + count
      source := (q'.segments i).source.map fun s => { s with stop := s.stop + count } } := by
    rw [hcount]
    exact congrArg Prod.snd hfill.symm
  have hchunk : ((bytes.drop offset).take count).length = count := by
    rw [length_take, length_drop]
    omega
  have hmem : i ∈ segmentIds q'.pending ++ aside := by simp [hlast]
  have hnot : i ∉ pre ∧ i ∉ aside := by
    have hnodup := h.ok.nodup
    rw [hlast, append_assoc, nodup_append] at hnodup
    obtain ⟨-, hright, hdisjoint⟩ := hnodup
    exact ⟨fun hpre => hdisjoint i hpre i (by simp) rfl, (nodup_cons.1 hright).1⟩
  have howed : bytes.length - offset = bytes.length - (offset + count) + ((bytes.drop offset).take count).length := by
    omega
  obtain ⟨hok, hunsent⟩ := LedgerOk.fill (howed ▸ h.ok) hmem h.untouched (by rw [hchunk]; change (q'.segments i).length + count ≤ _; omega) rfl
  rw [hchunk] at hok hunsent
  subst hq''
  refine ⟨by omega, by omega, h.live, ⟨h.record.history, h.record.generation⟩, hok, ?_, ?_⟩
  · change bytesOf (update q'.segments i _) (segmentIds q'.pending) = _
    rw [← h.bytes, hlast, bytesOf_append, bytesOf_append, bytesOf_update_of_not_mem hnot.1, bytesOf_cons, bytesOf_cons,
      update_self, append_assoc]
    congr 1
    rw [bytesOf_nil, bytesOf_nil, append_nil, append_nil]
    exact hunsent.trans (congrArg _ (h.goesOn _))
  · intro j hj
    refine (update_of_ne ?_ _ _).trans (h.aside j hj)
    rintro rfl
    exact hnot.2 hj

theorem enqueueLoop_spec (bytes : List UInt8) (source : Option TerminalSourceRange) (fuel : ℕ) {offset : ℕ}
    (h : Balanced opts w) (hlive : (w.queues v).disposed = false) (hoffset : offset ≤ bytes.length)
    (hfuel : bytes.length ≤ offset + fuel)
    (hok : LedgerOk tight (bytes.length - offset) (segmentIds (w.queues v).pending ++ aside) (w.queues v).ledger) :
    (∃ w', enqueueLoop opts v bytes source fuel offset w = (false, w') ∧ Served opts v w w' ∧ (w'.queues v).disposed = true) ∨
      ∃ w', enqueueLoop opts v bytes source fuel offset w = (true, w') ∧ Served opts v w w' ∧
        Extended tight 0 aside (w.queues v) (w'.queues v) (marked (shift source offset) (bytes.drop offset)) := by
  induction fuel generalizing offset w with
  | zero =>
    have hend : offset = bytes.length := by omega
    subst hend
    refine .inr ⟨w, rfl, .refl h v, hlive, .refl _, ?_, ?_, fun _ _ => rfl⟩
    · rw [← Nat.sub_self]
      exact hok
    · rw [drop_length, marked_nil, append_nil]
  | succ fuel ih =>
    unfold enqueueLoop
    split
    · rename_i hlt
      rcases segmentFor_spec h hlive hok source offset with ⟨w', heq, hserved, hgone⟩ | ⟨i, w', heq, hserved, hready⟩
      · rw [heq]
        exact .inl ⟨w', rfl, hserved, hgone⟩
      · rw [heq]
        dsimp only
        generalize hfill : (w'.queues v).fillSegment i bytes offset = filled
        obtain ⟨count, q⟩ := filled
        obtain ⟨hpos, hle, hext⟩ := hready.fill hlt hfill
        have hq : q.reservedBytes = (w'.queues v).reservedBytes :=
          congrArg (fun filled => filled.2.reservedBytes) hfill.symm
        have hputs : Served opts v w (w'.put v q) :=
          hserved.put hq (hext.live.trans hready.live.symm) (gone_of_live hext.live)
        have hnext : (w'.put v q).queues v = q := put_queues_self
        rcases ih (w := w'.put v q) hputs.balanced (by rw [hnext]; exact hext.live) hle (by omega)
          (by rw [hnext]; exact hext.ok) with ⟨w'', heq', hserved', hgone⟩ | ⟨w'', heq', hserved', hext'⟩
        · exact .inl ⟨w'', heq', hputs.trans hserved', hgone⟩
        · refine .inr ⟨w'', heq', hputs.trans hserved', ?_⟩
          rw [hnext] at hext'
          have hsplit : marked (shift source offset) (bytes.drop offset) =
              marked (shift source offset) ((bytes.drop offset).take count) ++
                marked (shift source (offset + count)) (bytes.drop (offset + count)) := by
            conv_lhs => rw [← take_append_drop count (bytes.drop offset), marked_append, shift_shift]
            rw [length_take, length_drop, drop_drop, Nat.min_eq_left (by omega)]
          rw [hsplit]
          exact hext.trans hext'
    · have hend : offset = bytes.length := by omega
      subst hend
      refine .inr ⟨w, rfl, .refl h v, hlive, .refl _, ?_, ?_, fun _ _ => rfl⟩
      · rw [← Nat.sub_self]
        exact hok
      · rw [drop_length, marked_nil, append_nil]

theorem Extended.schedule {added : List MarkedByte}
    (h : Extended tight owed aside q q' added) : Extended tight owed aside q q'.schedule added := by
  obtain ⟨scheduled, heq⟩ := schedule_eq q'
  rw [heq]
  exact ⟨h.live, ⟨h.record.history, h.record.generation⟩, h.ok, h.bytes, h.aside⟩

/-- A call that is refused changes nothing or ends the viewer. -/
theorem enqueue_spec (h : Balanced opts w) (hlive : (w.queues v).disposed = false)
    (hok : LedgerOk tight 0 (segmentIds (w.queues v).pending ++ aside) (w.queues v).ledger) (bytes : List UInt8)
    (source : Option TerminalSourceRange) : (∃ w', w.enqueue opts v bytes source = (false, w') ∧ Served opts v w w' ∧
        ((w'.queues v).disposed = true ∨ mismatched bytes source = true ∧ w' = w)) ∨
      ∃ w', w.enqueue opts v bytes source = (true, w') ∧ Served opts v w w' ∧
        Extended tight 0 aside (w.queues v) (w'.queues v) (marked source bytes) := by
  unfold enqueue
  dsimp only
  rw [if_neg (by rw [hlive]; exact Bool.false_ne_true)]
  split
  · obtain ⟨hserved, hgone⟩ := (Served.refl h v).retire .viewerBudget
    exact .inl ⟨_, rfl, hserved, .inl hgone⟩
  split
  · rename_i hmismatch
    exact .inl ⟨w, rfl, .refl h v, .inr ⟨hmismatch, rfl⟩⟩
  generalize hw₁ : w.put v { w.queues v with outstandingBytes := (w.queues v).outstandingBytes + bytes.length } = w₁
  have hserved₁ : Served opts v w w₁ := by
    rw [← hw₁]
    exact (Served.refl h v).put rfl rfl (gone_of_live hlive)
  have hq₁ : w₁.queues v = { w.queues v with outstandingBytes := (w.queues v).outstandingBytes + bytes.length } := by
    rw [← hw₁, put_queues_self]
  have hlive₁ : (w₁.queues v).disposed = false := by
    rw [hq₁]
    exact hlive
  have hok₁ : LedgerOk tight (bytes.length - 0) (segmentIds (w₁.queues v).pending ++ aside) (w₁.queues v).ledger := by
    rw [hq₁]
    exact hok.owe bytes.length
  rcases enqueueLoop_spec bytes source bytes.length hserved₁.balanced hlive₁ (Nat.zero_le _) (by omega) hok₁
    with ⟨w', heq, hserved, hgone⟩ | ⟨w', heq, hserved, hext⟩
  · rw [heq]
    exact .inl ⟨w', rfl, hserved₁.trans hserved, .inl hgone⟩
  · rw [heq]
    refine .inr ⟨_, rfl, (hserved₁.trans hserved).schedule, ?_⟩
    rw [shift_zero, hq₁] at hext
    rw [put_queues_self]
    exact Extended.schedule ⟨hext.live, ⟨hext.record.history, hext.record.generation⟩, hext.ok, hext.bytes, hext.aside⟩

theorem control_spec (h : Balanced opts w) (hlive : (w.queues v).disposed = false)
    (hok : LedgerOk tight 0 (segmentIds (w.queues v).pending ++ aside) (w.queues v).ledger) (message : List (String × Json)) :
    (∃ w', w.control v message = (false, w') ∧ Served opts v w w' ∧ (w'.queues v).disposed = true) ∨
      ∃ w', w.control v message = (true, w') ∧ Served opts v w w' ∧ Extended tight 0 aside (w.queues v) (w'.queues v) [] := by
  unfold control
  rw [if_neg (by rw [hlive]; exact Bool.false_ne_true)]
  split
  · exact .inl ⟨_, rfl, (Served.refl h v).retire .controlBudget⟩
  · generalize hq : ({ w.queues v with
        pending := (w.queues v).pending ++ [Entry.control (Json.stringify (.obj message))]
        controlCount := (w.queues v).controlCount + 1 } : TerminalOutputQueue) = q
    have hids : segmentIds q.pending = segmentIds (w.queues v).pending := by
      rw [← hq, segmentIds_append, segmentIds_control, segmentIds_nil, append_nil]
    have hext : Extended tight 0 aside (w.queues v) q [] := by
      refine ⟨?_, ?_, ?_, ?_, ?_⟩
      · rw [← hq]
        exact hlive
      · rw [← hq]
        exact ⟨rfl, rfl⟩
      · rw [hids, ← hq]
        exact hok
      · rw [hids, ← hq, append_nil]
      · rw [← hq]
        exact fun _ _ => rfl
    obtain ⟨scheduled, heq⟩ := schedule_eq q
    refine .inr ⟨_, rfl, ?_, ?_⟩
    · rw [heq]
      exact (Served.refl h v).put (by rw [← hq]) (by rw [← hq]) (gone_of_live hext.live)
    · rw [put_queues_self]
      exact hext.schedule

end OutputFleet

end Kookr.Server
