import Kookr.Sanity.Server.EnqueueSteps

/-! Discarding and seeding: what the two loops over the pending entries keep, release and
move. A seed without replay releases every unpositioned segment, also one that has been
sent in part; the books stay right, but such a segment is held only when nothing of it is in
transmission or unacknowledged. -/

namespace Kookr.Server

open Kookr.Lib TerminalOutputQueue List

/-- The unsent bytes of a segment, where its offset is in its source. -/
theorem Segment.Wf.unsent_eq {s : Segment} (h : s.Wf) : s.unsent = marked (shift s.source s.offset) (s.data.drop s.offset) := by
  unfold Segment.unsent
  rw [marked_drop _ _ _ (h.length ▸ h.offset)]

theorem unsent_of_unpositioned {s : Segment} (hwf : s.Wf) (hnone : s.source = none) (stop : ℤ) :
    s.unsent.filter isUnpositioned = s.unsent ∧ s.unsent.filter (isBeyond stop) = [] := by
  rw [hwf.unsent_eq, hnone]
  exact ⟨filter_isUnpositioned_none _, filter_isBeyond_none _ _⟩

theorem unsent_of_positioned {s : Segment} (hwf : s.Wf) {source : TerminalSourceRange} (hsome : s.source = some source)
    (snapshot : TerminalSourceRange) : s.unsent.filter isUnpositioned = [] ∧
      s.unsent.filter (isBeyond snapshot.stop) = s.unsent.drop (skipped snapshot s source) := by
  have heq := hwf.unsent_eq
  rw [hsome] at heq
  have hlength := hwf.length_unsent
  refine ⟨?_, ?_⟩
  · rw [heq]
    exact filter_isUnpositioned_some _ _
  · have hfilter := filter_isBeyond_some snapshot.stop { source with start := source.start + s.offset }
      (s.data.drop s.offset)
    change (marked (shift (some source) s.offset) (s.data.drop s.offset)).filter (isBeyond snapshot.stop) =
      (marked (shift (some source) s.offset) (s.data.drop s.offset)).drop
        (snapshot.stop - (source.start + s.offset)).toNat at hfilter
    rw [← heq] at hfilter
    rw [hfilter]
    unfold skipped
    rcases Nat.le_total (s.length - s.offset) (snapshot.stop - (source.start + s.offset)).toNat with hle | hle
    · rw [drop_eq_nil_of_le (by omega), drop_eq_nil_of_le (by omega)]
    · rw [Nat.min_eq_right hle]

namespace OutputFleet

variable {opts : FleetOptions} {w w' : OutputFleet} {v i : ℕ} {tight : Prop} {ids aside : List ℕ}

/-- The viewer lives on with its record, and its books are right for these segments. -/
structure Kept (opts : FleetOptions) (tight : Prop) (v : ℕ) (ids : List ℕ) (w w' : OutputFleet) : Prop where
  served : Served opts v w w'
  live : (w'.queues v).disposed = false
  record : SameRecord (w.queues v) (w'.queues v)
  ok : LedgerOk tight 0 ids (w'.queues v).ledger

theorem Kept.put (h : Kept opts tight v ids w w') {q : TerminalOutputQueue} {ids' : List ℕ}
    (hreserved : q.reservedBytes = (w'.queues v).reservedBytes) (hdisposed : q.disposed = (w'.queues v).disposed)
    (hrecord : SameRecord (w'.queues v) q) (hok : LedgerOk tight 0 ids' q.ledger) : Kept opts tight v ids' w (w'.put v q) := by
  refine ⟨h.served.put hreserved hdisposed (gone_of_live (hdisposed.trans h.live)), ?_, ?_, ?_⟩ <;> rw [put_queues_self]
  · exact hdisposed.trans h.live
  · exact h.record.trans hrecord
  · exact hok

theorem Kept.releaseSegment (h : Kept opts tight v ids w w') (hi : i ∉ ids) (hheld : i ∈ (w'.queues v).held)
    (hfree : tight → ∀ c ∈ (w'.queues v).callbacks, ¬ c.Needs (w'.queues v).acknowledged i) :
    Kept opts tight v ids w (w'.releaseSegment v i) ∧
      (w'.releaseSegment v i).queues v = { w'.queues v with
        held := (w'.queues v).held.erase i
        reservedBytes := (w'.queues v).reservedBytes - FRAME_BYTES } := by
  obtain ⟨hserved, heq, hok⟩ := releaseSegment_spec h.served.balanced h.live h.ok hi hheld hfree
  refine ⟨⟨h.served.trans hserved, ?_, ?_, hok⟩, heq⟩ <;> rw [heq]
  · exact h.live
  · exact ⟨h.record.history, h.record.generation⟩

theorem Kept.releaseAcknowledged (h : Kept opts tight v ids w w') : Kept opts tight v ids w (w'.releaseAcknowledged v) ∧
      SameButHeld (w'.queues v) ((w'.releaseAcknowledged v).queues v) := by
  obtain ⟨hserved, hsame, hok⟩ := releaseAcknowledged_spec h.served.balanced h.live h.ok
  refine ⟨⟨h.served.trans hserved, ?_, ?_, hok⟩, hsame⟩ <;> obtain ⟨held, reservedBytes, heq⟩ := hsame <;> rw [heq]
  · exact h.live
  · exact ⟨h.record.history, h.record.generation⟩

theorem not_needs_of_no_frames {acknowledged : ℕ} {callbacks : List Callback}
    (h : ∀ c ∈ callbacks, ∀ n, c.payload ≠ .frame i n) : ∀ c ∈ callbacks, ¬ c.Needs acknowledged i := by
  rintro c hc ⟨n, hpayload, -⟩
  exact h c hc n hpayload

theorem discardEntry_kept {entry : Entry} {rest : List Entry} (h : Kept opts tight v (segmentIds (entry :: rest)) w w') :
    Kept opts tight v (segmentIds rest) w (discardEntry v w' entry) := by
  cases entry with
  | control text => exact h
  | bytes i =>
    have hok := h.ok
    have hnot : i ∉ segmentIds rest := (nodup_cons.1 hok.nodup).1
    have hheld : i ∈ (w'.queues v).held := hok.subset i mem_cons_self
    have hput : Kept opts tight v (segmentIds rest) w (w'.put v ((w'.queues v).dropUnsent i)) :=
      h.put rfl rfl ⟨rfl, rfl⟩ hok.drop
    unfold discardEntry
    dsimp only
    split
    · rename_i hoffset
      refine (hput.releaseSegment hnot ?_ fun _ => not_needs_of_no_frames fun c hc => ?_).1
      · rw [put_queues_self]
        exact hheld
      · rw [put_queues_self] at hc
        exact hok.no_frames mem_cons_self hoffset hc
    · exact h.put rfl rfl ⟨rfl, rfl⟩ (hok.drop.setSentEnd hnot rfl rfl)

theorem foldl_discardEntry_kept {entries : List Entry} (h : Kept opts tight v (segmentIds entries) w w') :
    Kept opts tight v [] w (entries.foldl (discardEntry v) w') := by
  induction entries generalizing w' with
  | nil => exact h
  | cons entry rest ih => exact ih (discardEntry_kept h)

theorem discardUnsent_spec (h : Balanced opts w) (hlive : (w.queues v).disposed = false)
    (hok : LedgerOk tight 0 (segmentIds (w.queues v).pending) (w.queues v).ledger) :
    Kept opts tight v [] w (w.discardUnsent v) ∧ ((w.discardUnsent v).queues v).pending = [] := by
  have hstart : Kept opts tight v (segmentIds (w.queues v).pending) w w := ⟨.refl h v, hlive, .refl _, hok⟩
  have hloop := foldl_discardEntry_kept hstart
  unfold discardUnsent
  generalize (w.queues v).pending.foldl (discardEntry v) w = w₁ at hloop ⊢
  have hclear : Kept opts tight v [] w (w₁.put v { w₁.queues v with pending := [], controlCount := 0 }) :=
    hloop.put rfl rfl ⟨rfl, rfl⟩ hloop.ok
  obtain ⟨hkept, held, reservedBytes, heq⟩ := hclear.releaseAcknowledged
  refine ⟨hkept, ?_⟩
  rw [heq, put_queues_self]

/-- What the first loop accepts continues the snapshot without a gap. -/
theorem seedAccepts_continues {q : TerminalOutputQueue} {snapshot : TerminalSourceRange} {entries : List Entry}
    {expected : ℤ} (hwf : ∀ i ∈ segmentIds entries, (q.segments i).Wf) (h : q.seedAccepts snapshot entries expected = true) :
    ContinuesFrom snapshot.epoch expected ((bytesOf q.segments (segmentIds entries)).filter (isBeyond snapshot.stop)) := by
  induction entries generalizing expected with
  | nil => exact continuesFrom_nil _ _
  | cons entry rest ih =>
    cases entry with
    | control text => cases h
    | bytes i =>
      have hi := hwf i (by simp)
      have hrest : ∀ j ∈ segmentIds rest, (q.segments j).Wf := fun j hj => hwf j (by simp [hj])
      rw [segmentIds_bytes, bytesOf_cons, filter_append]
      unfold seedAccepts at h
      split at h
      · rename_i hnone
        rw [(unsent_of_unpositioned hi hnone _).2]
        exact ih hrest h
      · rename_i source hsome
        have hcut := (unsent_of_positioned hi hsome snapshot).2
        have hstop := hi.source source hsome
        have hlength := hi.length_unsent
        have hoffset := hi.offset
        unfold skipped at hcut
        split at h
        · cases h
        rename_i hepoch
        rw [not_not] at hepoch
        split at h
        · -- the snapshot covers the whole segment
          rw [hcut, drop_eq_nil_of_le (by omega)]
          exact ih hrest h
        · split at h
          · cases h
          · have hnext := ih hrest h
            set count := min ((q.segments i).length - (q.segments i).offset)
              (snapshot.stop - (source.start + (q.segments i).offset)).toNat with hcount
            have hstart : source.start + ((q.segments i).offset + count : ℕ) = expected := by omega
            have hmarks : ContinuesFrom snapshot.epoch expected
                ((q.segments i).unsent.filter (isBeyond snapshot.stop)) := by
              have hle : count ≤ ((q.segments i).data.drop (q.segments i).offset).length := by
                rw [length_drop, ← hi.length]
                omega
              rw [hcut, hi.unsent_eq, hsome, marked_drop _ _ _ hle, shift_shift, ← hstart, ← hepoch]
              exact continuesFrom_marked { source with start := source.start + ((q.segments i).offset + count : ℕ) } _
            have hend : expected + ((q.segments i).unsent.filter (isBeyond snapshot.stop)).length = source.stop := by
              rw [hcut, length_drop]
              omega
            exact hmarks.append (hend ▸ hnext)

/-- No unpositioned segment among the entries has bytes in transmission or unacknowledged. -/
def UnpositionedFree (q : TerminalOutputQueue) (entries : List Entry) : Prop :=
  ∀ i ∈ segmentIds entries, (q.segments i).source = none → ∀ c ∈ q.callbacks, ¬ c.Needs q.acknowledged i

/-- The second loop, with the entries it has seen and those before it. -/
structure SeedLoop (opts : FleetOptions) (tight : Prop) (v : ℕ) (snapshot : TerminalSourceRange) (useAttachReplay : Bool)
    (w : OutputFleet) (seen rest : List Entry) (acc : SeedProgress) : Prop where
  kept : Kept opts tight v (segmentIds rest ++ (segmentIds acc.replay ++ segmentIds acc.live)) w acc.fleet
  callbacks : (acc.fleet.queues v).callbacks = (w.queues v).callbacks
  acknowledged : (acc.fleet.queues v).acknowledged = (w.queues v).acknowledged
  untouched : ∀ i ∈ segmentIds rest, (acc.fleet.queues v).segments i = (w.queues v).segments i
  live : bytesOf (acc.fleet.queues v).segments (segmentIds acc.live) =
    (bytesOf (w.queues v).segments (segmentIds seen)).filter (isBeyond snapshot.stop)
  replay : bytesOf (acc.fleet.queues v).segments (segmentIds acc.replay) =
    if useAttachReplay then (bytesOf (w.queues v).segments (segmentIds seen)).filter isUnpositioned else []

section Loop

variable {snapshot : TerminalSourceRange} {useAttachReplay : Bool} {seen rest : List Entry} {acc : SeedProgress}

theorem bytesOf_seen (segments : ℕ → Segment) (p : MarkedByte → Bool) :
    (bytesOf segments (segmentIds (seen ++ [.bytes i]))).filter p =
      (bytesOf segments (segmentIds seen)).filter p ++ (segments i).unsent.filter p := by
  simp [bytesOf_append]

section

variable (h : SeedLoop opts tight v snapshot useAttachReplay w seen (.bytes i :: rest) acc)
include h

theorem seedEntry_unpositioned (hnone : ((acc.fleet.queues v).segments i).source = none)
    (hfree : tight → useAttachReplay = false → ∀ c ∈ (w.queues v).callbacks, ¬ c.Needs (w.queues v).acknowledged i) :
    SeedLoop opts tight v snapshot useAttachReplay w (seen ++ [.bytes i]) rest
      (seedEntry v snapshot useAttachReplay acc (.bytes i)) := by
  have hkept := h.kept
  rw [segmentIds_bytes] at hkept
  have hwf := hkept.ok.wf i mem_cons_self
  have hsame := h.untouched i (by simp)
  have hcut := unsent_of_unpositioned hwf hnone snapshot.stop
  change ((acc.fleet.queues v).segments i).unsent.filter _ = ((acc.fleet.queues v).segments i).unsent ∧
    ((acc.fleet.queues v).segments i).unsent.filter _ = [] at hcut
  have hlive : bytesOf (acc.fleet.queues v).segments (segmentIds acc.live) =
      (bytesOf (w.queues v).segments (segmentIds (seen ++ [.bytes i]))).filter (isBeyond snapshot.stop) := by
    rw [bytesOf_seen, ← hsame, hcut.2, append_nil]
    exact h.live
  unfold seedEntry
  dsimp only
  rw [hnone]
  cases useAttachReplay with
  | true =>
    rw [if_pos rfl]
    refine ⟨⟨hkept.served, hkept.live, hkept.record, hkept.ok.perm ?_⟩, h.callbacks, h.acknowledged,
      fun j hj => h.untouched j (by simp [hj]), hlive, ?_⟩
    · rw [segmentIds_append, segmentIds_bytes]
      refine List.Perm.trans perm_middle.symm (List.Perm.append_left (segmentIds rest) ?_)
      rw [append_assoc]
      exact perm_middle.symm
    · rw [segmentIds_append, bytesOf_append, h.replay, bytesOf_seen, ← hsame, hcut.1]
      simp
  | false =>
    rw [if_neg Bool.false_ne_true]
    have hnot := (nodup_cons.1 hkept.ok.nodup).1
    have hput : Kept opts tight v (segmentIds rest ++ (segmentIds acc.replay ++ segmentIds acc.live)) w
        (acc.fleet.put v ((acc.fleet.queues v).dropUnsent i)) := hkept.put rfl rfl ⟨rfl, rfl⟩ hkept.ok.drop
    obtain ⟨hrelease, heq⟩ := hput.releaseSegment hnot
      (by rw [put_queues_self]; exact hkept.ok.subset i mem_cons_self)
      (by
        rw [put_queues_self]
        change tight → ∀ c ∈ (acc.fleet.queues v).callbacks, ¬ c.Needs (acc.fleet.queues v).acknowledged i
        rw [h.callbacks, h.acknowledged]
        exact fun htight => hfree htight rfl)
    rw [put_queues_self] at heq
    refine ⟨hrelease, ?_, ?_, ?_, ?_, ?_⟩ <;> dsimp only <;> rw [heq]
    · exact h.callbacks
    · exact h.acknowledged
    · exact fun j hj => h.untouched j (by simp [hj])
    · exact hlive
    · exact h.replay

theorem seedEntry_positioned {source : TerminalSourceRange} (hsome : ((acc.fleet.queues v).segments i).source = some source) :
    SeedLoop opts tight v snapshot useAttachReplay w (seen ++ [.bytes i]) rest
      (seedEntry v snapshot useAttachReplay acc (.bytes i)) := by
  have hkept := h.kept
  rw [segmentIds_bytes, cons_append] at hkept
  have hsame := h.untouched i (by simp)
  have hnot := (nodup_cons.1 hkept.ok.nodup).1
  have hmem : i ∉ segmentIds rest ∧ i ∉ segmentIds acc.replay ∧ i ∉ segmentIds acc.live := by
    simpa only [mem_append, not_or] using hnot
  have hwf : ((acc.fleet.queues v).segments i).Wf := hkept.ok.wf i mem_cons_self
  have hcut := unsent_of_positioned hwf hsome snapshot
  have hlength := hwf.length_unsent
  have hle : skipped snapshot ((acc.fleet.queues v).segments i) source ≤
      ((acc.fleet.queues v).segments i).length - ((acc.fleet.queues v).segments i).offset := Nat.min_le_left _ _
  unfold seedEntry
  dsimp only
  rw [hsome]
  dsimp only
  generalize skipped snapshot ((acc.fleet.queues v).segments i) source = count at hcut hle ⊢
  have hskip : LedgerOk tight 0 (i :: (segmentIds rest ++ (segmentIds acc.replay ++ segmentIds acc.live)))
      ((acc.fleet.queues v).skipBytes i count).ledger := hkept.ok.skip mem_cons_self hle rfl
  have hmoved : ((acc.fleet.queues v).skipBytes i count).segments i = { (acc.fleet.queues v).segments i with
      offset := ((acc.fleet.queues v).segments i).offset + count } := Function.update_self ..
  -- the lists taken aside do not have this segment yet
  have hreplay : bytesOf ((acc.fleet.queues v).skipBytes i count).segments (segmentIds acc.replay) =
      if useAttachReplay then (bytesOf (w.queues v).segments (segmentIds (seen ++ [.bytes i]))).filter isUnpositioned
      else [] := by
    rw [bytesOf_seen, ← hsame, hcut.1, append_nil]
    exact (bytesOf_update_of_not_mem hmem.2.1).trans h.replay
  have hlive : (bytesOf (w.queues v).segments (segmentIds (seen ++ [.bytes i]))).filter (isBeyond snapshot.stop) =
      bytesOf ((acc.fleet.queues v).skipBytes i count).segments (segmentIds acc.live) ++
        ((acc.fleet.queues v).segments i).unsent.drop count := by
    rw [bytesOf_seen, ← hsame, hcut.2, ← h.live]
    exact congrArg (· ++ _) (bytesOf_update_of_not_mem hmem.2.2).symm
  have huntouched : ∀ j ∈ segmentIds rest, ((acc.fleet.queues v).skipBytes i count).segments j = (w.queues v).segments j := by
    intro j hj
    refine (Function.update_of_ne ?_ _ _).trans (h.untouched j (by simp [hj]))
    rintro rfl
    exact hmem.1 hj
  split
  · rename_i hend
    have hnone : ((acc.fleet.queues v).segments i).unsent.drop count = [] := drop_eq_nil_of_le (by omega)
    rw [hnone, append_nil] at hlive
    have hremoved := hskip.remove (by
      change (((acc.fleet.queues v).skipBytes i count).segments i).offset =
        (((acc.fleet.queues v).skipBytes i count).segments i).length
      rw [hmoved]
      exact hend)
    have hput : Kept opts tight v (segmentIds rest ++ (segmentIds acc.replay ++ segmentIds acc.live)) w
        (acc.fleet.put v ((acc.fleet.queues v).skipBytes i count)) := hkept.put rfl rfl ⟨rfl, rfl⟩ hremoved
    split
    · rename_i hzero
      obtain ⟨hrelease, heq⟩ := hput.releaseSegment hnot
        (by rw [put_queues_self]; exact hkept.ok.subset i mem_cons_self)
        (by
          rw [put_queues_self]
          exact fun _ => not_needs_of_no_frames fun c hc => hkept.ok.no_frames mem_cons_self hzero hc)
      rw [put_queues_self] at heq
      refine ⟨hrelease, ?_, ?_, ?_, ?_, ?_⟩ <;> dsimp only <;> rw [heq]
      · exact h.callbacks
      · exact h.acknowledged
      · exact huntouched
      · exact hlive.symm
      · exact hreplay
    · have hset : ∀ j, j ≠ i → (((acc.fleet.queues v).skipBytes i count).setSentEnd i).segments j =
          ((acc.fleet.queues v).skipBytes i count).segments j := fun j hj => Function.update_of_ne hj ..
      refine ⟨hkept.put rfl rfl ⟨rfl, rfl⟩ (hremoved.setSentEnd hnot rfl rfl), ?_, ?_, ?_, ?_, ?_⟩ <;>
        dsimp only <;> rw [put_queues_self]
      · exact h.callbacks
      · exact h.acknowledged
      · intro j hj
        rw [hset j (by rintro rfl; exact hmem.1 hj)]
        exact huntouched j hj
      · exact (bytesOf_update_of_not_mem hmem.2.2).trans hlive.symm
      · exact (bytesOf_update_of_not_mem hmem.2.1).trans hreplay
  · have hperm : (i :: (segmentIds rest ++ (segmentIds acc.replay ++ segmentIds acc.live))).Perm
        (segmentIds rest ++ (segmentIds acc.replay ++ segmentIds (acc.live ++ [.bytes i]))) := by
      rw [segmentIds_append, segmentIds_bytes]
      refine List.Perm.trans perm_middle.symm (List.Perm.append_left (segmentIds rest) ?_)
      exact perm_middle.symm.trans (List.Perm.append_left _ (perm_append_singleton _ _).symm)
    refine ⟨hkept.put rfl rfl ⟨rfl, rfl⟩ (hskip.perm hperm), ?_, ?_, ?_, ?_, ?_⟩ <;> dsimp only <;> rw [put_queues_self]
    · exact h.callbacks
    · exact h.acknowledged
    · exact huntouched
    · rw [segmentIds_append, bytesOf_append, hlive, segmentIds_bytes, segmentIds_nil, bytesOf_cons, bytesOf_nil,
        append_nil, hmoved]
      unfold Segment.unsent
      rw [drop_drop]
    · exact hreplay

end

theorem foldl_seedEntry (h : SeedLoop opts tight v snapshot useAttachReplay w seen rest acc)
    (hfree : tight → useAttachReplay = false → UnpositionedFree (w.queues v) rest) :
    SeedLoop opts tight v snapshot useAttachReplay w (seen ++ rest) []
      (rest.foldl (seedEntry v snapshot useAttachReplay) acc) := by
  induction rest generalizing seen acc with
  | nil =>
    rw [append_nil]
    exact h
  | cons entry rest ih =>
    have hrest : tight → useAttachReplay = false → UnpositionedFree (w.queues v) rest := by
      intro htight hfalse j hj
      refine hfree htight hfalse j ?_
      cases entry <;> simp [hj]
    have hstep : SeedLoop opts tight v snapshot useAttachReplay w (seen ++ [entry]) rest
        (seedEntry v snapshot useAttachReplay acc entry) := by
      cases entry with
      | control text =>
        have hseen : segmentIds (seen ++ [.control text]) = segmentIds seen := by simp
        refine ⟨h.kept, h.callbacks, h.acknowledged, h.untouched, ?_, ?_⟩ <;> rw [hseen]
        · exact h.live
        · exact h.replay
      | bytes i =>
        have hsame := h.untouched i (by simp)
        cases hsource : ((acc.fleet.queues v).segments i).source with
        | none =>
          refine seedEntry_unpositioned h hsource fun htight hfalse => hfree htight hfalse i (by simp) ?_
          rw [← hsame]
          exact hsource
        | some source => exact seedEntry_positioned h hsource
    rw [append_cons]
    exact ih hstep hrest

end Loop

/-- Entries that were taken aside come back. -/
theorem pushPending_extended (h : Balanced opts w) (hlive : (w.queues v).disposed = false) (entries : List Entry)
    (hok : LedgerOk tight 0 (segmentIds (w.queues v).pending ++ (segmentIds entries ++ aside)) (w.queues v).ledger) :
    Served opts v w (w.pushPending v entries) ∧ Extended tight 0 aside (w.queues v) ((w.pushPending v entries).queues v)
        (bytesOf (w.queues v).segments (segmentIds entries)) := by
  refine ⟨(Served.refl h v).put rfl rfl (gone_of_live hlive), ?_⟩
  unfold pushPending
  rw [put_queues_self]
  refine ⟨hlive, ⟨rfl, rfl⟩, ?_, ?_, fun _ _ => rfl⟩
  · rw [segmentIds_append, append_assoc]
    exact hok
  · rw [segmentIds_append, bytesOf_append]

theorem bytesOf_congr {segments segments' : ℕ → Segment} (h : ∀ j ∈ ids, segments' j = segments j) :
    bytesOf segments' ids = bytesOf segments ids :=
  flatMap_congr fun j hj => congrArg Segment.unsent (h j hj)

theorem seedInsert_spec (h : Balanced opts w) (hlive : (w.queues v).disposed = false) (bytes : List UInt8)
    (before after : List (String × Json)) (live replay : List Entry) (hempty : (w.queues v).pending = [])
    (hok : LedgerOk tight 0 (segmentIds replay ++ segmentIds live) (w.queues v).ledger) :
    (∃ w', seedInsert opts w v bytes before after live replay = (false, w') ∧ Served opts v w w' ∧
        (w'.queues v).disposed = true) ∨
      ∃ w', seedInsert opts w v bytes before after live replay = (true, w') ∧ Served opts v w w' ∧
        Extended tight 0 [] (w.queues v) (w'.queues v) (marked none bytes ++
          bytesOf (w.queues v).segments (segmentIds replay) ++ bytesOf (w.queues v).segments (segmentIds live)) := by
  unfold seedInsert
  have hok₀ : LedgerOk tight 0 (segmentIds (w.queues v).pending ++ (segmentIds replay ++ segmentIds live))
      (w.queues v).ledger := by
    rw [hempty]
    exact hok
  rcases control_spec h hlive hok₀ before with ⟨w₁, heq, hserved, hgone⟩ | ⟨w₁, heq, hserved₁, hext₁⟩
  · rw [heq]
    exact .inl ⟨w₁, rfl, hserved, hgone⟩
  rw [heq]
  dsimp only
  rcases enqueue_spec hserved₁.balanced hext₁.live hext₁.ok bytes none with ⟨w₂, heq, hserved, hgone⟩ | ⟨w₂, heq, hserved₂, hext₂⟩
  · rw [heq]
    refine .inl ⟨w₂, rfl, hserved₁.trans hserved, hgone.resolve_right ?_⟩
    rintro ⟨hmismatch, -⟩
    cases hmismatch
  rw [heq]
  dsimp only
  have hext₀₂ := hext₁.trans hext₂
  obtain ⟨hserved₃, hext₃⟩ := pushPending_extended hserved₂.balanced hext₂.live replay hext₂.ok
  rcases control_spec hserved₃.balanced hext₃.live hext₃.ok after with ⟨w₄, heq, hserved, hgone⟩ | ⟨w₄, heq, hserved₄, hext₄⟩
  · rw [heq]
    exact .inl ⟨w₄, rfl, ((hserved₁.trans hserved₂).trans hserved₃).trans hserved, hgone⟩
  rw [heq]
  have hok₄ : LedgerOk tight 0 (segmentIds (w₄.queues v).pending ++ (segmentIds live ++ [])) (w₄.queues v).ledger := by
    rw [append_nil]
    exact hext₄.ok
  obtain ⟨hserved₅, hext₅⟩ := pushPending_extended hserved₄.balanced hext₄.live live hok₄
  refine .inr ⟨_, rfl, (((hserved₁.trans hserved₂).trans hserved₃).trans hserved₄).trans hserved₅, ?_⟩
  have hreplay : bytesOf (w₂.queues v).segments (segmentIds replay) = bytesOf (w.queues v).segments (segmentIds replay) :=
    bytesOf_congr fun j hj => hext₀₂.aside j (mem_append_left _ hj)
  have hlives : bytesOf (w₄.queues v).segments (segmentIds live) = bytesOf (w.queues v).segments (segmentIds live) :=
    bytesOf_congr fun j hj => by
      rw [hext₄.aside j hj, hext₃.aside j hj, hext₀₂.aside j (mem_append_right _ hj)]
  refine ⟨hext₅.live, ((hext₀₂.record.trans hext₃.record).trans hext₄.record).trans hext₅.record, hext₅.ok, ?_,
    fun j hj => absurd hj not_mem_nil⟩
  rw [hext₅.bytes, hext₄.bytes, hext₃.bytes, hext₀₂.bytes, hreplay, hlives]
  simp

/-- A seed is refused, ends the viewer, or puts the snapshot before what it leaves. -/
theorem seed_spec (h : Balanced opts w) (hok : (w.queues v).disposed = false →
      LedgerOk tight 0 (segmentIds (w.queues v).pending) (w.queues v).ledger) (snapshot : TerminalSourceRange)
    (bytes : List UInt8) (before after : List (String × Json)) (useAttachReplay : Bool)
    (hfree : tight → (w.queues v).paused = true →
      (w.queues v).seedAccepts snapshot (w.queues v).pending snapshot.stop = true → useAttachReplay = false →
      UnpositionedFree (w.queues v) (w.queues v).pending) :
    w.seed opts v snapshot bytes before after useAttachReplay = (false, w) ∨
      (∃ w', w.seed opts v snapshot bytes before after useAttachReplay = (false, w') ∧ Served opts v w w' ∧
        (w'.queues v).disposed = true) ∨
      ∃ w', w.seed opts v snapshot bytes before after useAttachReplay = (true, w') ∧ Served opts v w w' ∧
        (w'.queues v).disposed = false ∧ SameRecord (w.queues v) (w'.queues v) ∧
        LedgerOk tight 0 (segmentIds (w'.queues v).pending) (w'.queues v).ledger ∧
        bytesOf (w'.queues v).segments (segmentIds (w'.queues v).pending) = receive
          (bytesOf (w.queues v).segments (segmentIds (w.queues v).pending)) (.seeded snapshot bytes useAttachReplay) ∧
        ContinuesFrom snapshot.epoch snapshot.stop
          ((bytesOf (w.queues v).segments (segmentIds (w.queues v).pending)).filter (isBeyond snapshot.stop)) := by
  unfold seed
  dsimp only
  split
  · exact .inl rfl
  rename_i hpaused
  simp only [Bool.or_eq_true, Bool.not_eq_true', not_or, Bool.not_eq_true, Bool.not_eq_false] at hpaused
  split
  · exact .inl rfl
  rename_i haccepts
  rw [Bool.not_eq_true', Bool.not_eq_false] at haccepts
  refine .inr ?_
  have hlive := hpaused.1
  have hok := hok hlive
  have hstart : SeedLoop opts tight v snapshot useAttachReplay w [] (w.queues v).pending ⟨w, [], []⟩ := by
    refine ⟨⟨.refl h v, hlive, .refl _, ?_⟩, rfl, rfl, fun _ _ => rfl, rfl, ?_⟩
    · simpa using hok
    · simp
  have hloop := foldl_seedEntry hstart fun htight => hfree htight hpaused.2 haccepts
  generalize (w.queues v).pending.foldl (seedEntry v snapshot useAttachReplay) ⟨w, [], []⟩ = done at hloop ⊢
  have hkept := hloop.kept
  have hclear : Kept opts tight v (segmentIds done.replay ++ segmentIds done.live) w
      (done.fleet.put v { done.fleet.queues v with pending := [] }) := hkept.put rfl rfl ⟨rfl, rfl⟩ hkept.ok
  obtain ⟨hreleased, held, reservedBytes, heq⟩ := hclear.releaseAcknowledged
  rw [put_queues_self] at heq
  rcases seedInsert_spec hreleased.served.balanced hreleased.live bytes before after done.live done.replay
      (by rw [heq]) hreleased.ok with ⟨w', heq', hserved, hgone⟩ | ⟨w', heq', hserved, hext⟩
  · exact .inl ⟨w', heq', hreleased.served.trans hserved, hgone⟩
  · refine .inr ⟨w', heq', hreleased.served.trans hserved, hext.live, hreleased.record.trans hext.record, ?_, ?_, ?_⟩
    · simpa using hext.ok
    · have hbytes := hext.bytes
      rw [heq] at hbytes
      rw [hbytes]
      rw [hloop.live, hloop.replay, segmentIds_nil, bytesOf_nil]
      rfl
    · exact seedAccepts_continues hok.wf haccepts

end OutputFleet

end Kookr.Server
