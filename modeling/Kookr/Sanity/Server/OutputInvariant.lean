import Kookr.Sanity.Server.SendSteps

/-! The invariant of the fleet: every live viewer has right books and has been sent what its
history says. One lemma for each operation, then the step. -/

namespace Kookr.Server

open Kookr.Lib TerminalOutputQueue List

theorem unsentAfter_concat (history : List OutputEvent) (e : OutputEvent) :
    unsentAfter (history ++ [e]) = receive (unsentAfter history) e := by
  unfold unsentAfter
  rw [foldl_append]
  rfl

structure QueueGood (tight : Prop) (q : TerminalOutputQueue) : Prop where
  ok : LedgerOk tight 0 (segmentIds q.pending) q.ledger
  bytes : bytesOf q.segments (segmentIds q.pending) = unsentAfter q.history
  frames : Along (FrameFits q.generation) q.history
  seeds : Along SeedFits q.history

variable {tight : Prop} {q q' : TerminalOutputQueue} {e : OutputEvent}

section

variable (h : QueueGood tight q)
include h

theorem QueueGood.same (hrecord : SameRecord q q') (hok : LedgerOk tight 0 (segmentIds q'.pending) q'.ledger)
    (hbytes : bytesOf q'.segments (segmentIds q'.pending) = bytesOf q.segments (segmentIds q.pending)) : QueueGood tight q' := by
  refine ⟨hok, ?_, ?_, ?_⟩ <;> rw [hrecord.history]
  · rw [hbytes, h.bytes]
  · rw [hrecord.generation]
    exact h.frames
  · exact h.seeds

theorem QueueGood.concat (hhistory : q'.history = q.history ++ [e])
    (hgeneration : q'.generation = q.generation) (hok : LedgerOk tight 0 (segmentIds q'.pending) q'.ledger)
    (hbytes : bytesOf q'.segments (segmentIds q'.pending) = receive (bytesOf q.segments (segmentIds q.pending)) e)
    (hframe : FrameFits q.generation q.history e) (hseed : SeedFits q.history e) : QueueGood tight q' := by
  refine ⟨hok, ?_, ?_, ?_⟩ <;> rw [hhistory]
  · rw [unsentAfter_concat, hbytes, h.bytes]
  · rw [hgeneration]
    exact h.frames.concat hframe
  · exact h.seeds.concat hseed

theorem QueueGood.record (hrecord : SameRecord q q') (hok : LedgerOk tight 0 (segmentIds q'.pending) q'.ledger) (e : OutputEvent)
    (hbytes : bytesOf q'.segments (segmentIds q'.pending) = receive (bytesOf q.segments (segmentIds q.pending)) e)
    (hframe : FrameFits q.generation q.history e) (hseed : SeedFits q.history e) : QueueGood tight (q'.record e) := by
  refine h.concat ?_ hrecord.generation hok hbytes hframe hseed
  exact congrArg (· ++ [e]) hrecord.history

omit h in
theorem frameFits_of_ne {generation : String} {past : List OutputEvent}
    (h : ∀ bytes, e ≠ .frame bytes) : FrameFits generation past e := fun bytes he => absurd he (h bytes)

omit h in
theorem seedFits_of_ne {past : List OutputEvent}
    (h : ∀ snapshot bytes useAttachReplay, e ≠ .seeded snapshot bytes useAttachReplay) : SeedFits past e :=
  fun snapshot bytes useAttachReplay he => absurd he (h snapshot bytes useAttachReplay)

/-- A message goes out between the bytes. -/
theorem QueueGood.waits {text : List Char} (hwaits : Waits tight [.control text] q q') : QueueGood tight q' := by
  refine h.concat hwaits.history hwaits.generation hwaits.ok ?_ (frameFits_of_ne (by simp)) (seedFits_of_ne (by simp))
  rw [hwaits.bytes, hwaits.pending]
  rfl

/-- Bytes go out; with a position, the message before them has named it. -/
theorem QueueGood.frameSent {frame : List UInt8} {source : Option TerminalSourceRange}
    (hsent : OutputFleet.FrameSent tight frame source q q') (hnonempty : frame ≠ [])
    (hsource : ∀ s, source = some s → q.history.getLast? =
      some (.control (sourceText q.generation s s.start (s.start + frame.length)))) : QueueGood tight q' := by
  have hbytes := hsent.bytes
  refine h.concat hsent.history hsent.generation hsent.ok ?_ ?_ (seedFits_of_ne (by simp))
  · rw [hbytes]
    exact (drop_left' (length_marked _ _)).symm
  · intro bytes he
    obtain rfl := OutputEvent.frame.inj he
    -- the range of the frame ends with its bytes
    refine ⟨hnonempty, source.map fun s => { s with stop := s.start + frame.length }, ?_, ?_⟩
    · rw [marked_stop, ← h.bytes, hbytes]
      exact prefix_append _ _
    · intro s hs
      obtain ⟨s', hs', rfl⟩ := Option.map_eq_some_iff.1 hs
      exact ⟨rfl, hsource s' hs'⟩

end

namespace OutputFleet

variable {opts : FleetOptions} {w w' : OutputFleet} {v : ℕ}

theorem flushOne_good (h : Balanced opts w) (hlive : (w.queues v).disposed = false)
    (hgood : QueueGood tight (w.queues v)) (control frame : SendOutcome) :
    ∃ threw w', w.flushOne opts v control frame = (threw, w') ∧ Served opts v w w' ∧
      ((w'.queues v).disposed = false → threw = false → QueueGood tight (w'.queues v)) := by
  unfold flushOne
  dsimp only
  split
  · exact ⟨false, w, rfl, .refl h v, fun _ _ => hgood⟩
  · rename_i text rest hpending
    generalize hw₁ : w.put v _ = w₁
    have hserved₁ : Served opts v w w₁ := by
      rw [← hw₁]
      exact (Served.refl h v).put rfl rfl (gone_of_live hlive)
    have hgood₁ : QueueGood tight (w₁.queues v) := by
      rw [← hw₁, put_queues_self]
      have hids : segmentIds (w.queues v).pending = segmentIds rest := by rw [hpending, segmentIds_control]
      refine hgood.same ⟨rfl, rfl⟩ ?_ ?_
      · rw [← hids]
        exact hgood.ok
      · rw [← hids]
    have hlive₁ : (w₁.queues v).disposed = false := by
      rw [← hw₁, put_queues_self]
      exact hlive
    rcases sendControl_spec hserved₁.balanced hlive₁ hgood₁.ok text control
      with ⟨w₂, heq, hserved⟩ | ⟨w₂, heq, hserved, hgone⟩ | ⟨w₂, heq, hserved, hlive₂, hwaits⟩
    · rw [heq]
      refine ⟨_, _, rfl, hserved₁.trans hserved, ?_⟩
      intro _ hthrew
      cases hthrew
    · rw [heq]
      refine ⟨_, _, rfl, hserved₁.trans hserved, ?_⟩
      intro hlive₂
      rw [hgone] at hlive₂
      cases hlive₂
    · rw [heq]
      exact ⟨_, _, rfl, hserved₁.trans hserved, fun _ _ => hgood₁.waits hwaits⟩
  · rename_i i rest hpending
    generalize hcount : min (((w.queues v).segments i).length - ((w.queues v).segments i).offset)
      (CREDIT_BYTES - ((w.queues v).sent - (w.queues v).acknowledged)) = count
    split
    · exact ⟨false, w, rfl, .refl h v, fun _ _ => hgood⟩
    rename_i hpos
    split
    · rename_i hnone
      obtain ⟨threw, w', heq, hserved, hsent⟩ := sendFrame_spec h hlive hgood.ok hpending (Nat.pos_of_ne_zero hpos)
        (by omega) (by omega) frame
      refine ⟨threw, w', heq, hserved, fun hlive' hthrew => ?_⟩
      obtain ⟨bytes, hlength, hframe⟩ := hsent hlive' hthrew
      rw [hnone] at hframe
      refine hgood.frameSent hframe ?_ nofun
      rintro rfl
      exact hpos hlength.symm
    · rename_i source hsome
      rcases sendControl_spec h hlive hgood.ok (sourceText (w.queues v).generation source
          (source.start + ((w.queues v).segments i).offset) (source.start + ((w.queues v).segments i).offset + count)) control
        with ⟨w₂, heq, hserved⟩ | ⟨w₂, heq, hserved, hgone⟩ | ⟨w₂, heq, hserved₂, hlive₂, hwaits⟩
      · rw [heq]
        refine ⟨_, _, rfl, hserved, ?_⟩
        intro _ hthrew
        cases hthrew
      · rw [heq]
        refine ⟨_, _, rfl, hserved, ?_⟩
        intro hlive₂
        rw [hgone] at hlive₂
        cases hlive₂
      · rw [heq]
        have hcontent := hwaits.content i
        obtain ⟨threw, w', heq', hserved', hsent⟩ := sendFrame_spec hserved₂.balanced hlive₂ hwaits.ok
          (hwaits.pending.trans hpending) (Nat.pos_of_ne_zero hpos) (by rw [hcontent.length, hcontent.offset]; omega)
          (by rw [hwaits.sent, hwaits.acknowledged]; omega) frame
        refine ⟨threw, w', heq', hserved₂.trans hserved', fun hlive' hthrew => ?_⟩
        obtain ⟨bytes, hlength, hframe⟩ := hsent hlive' hthrew
        rw [hcontent.source, hcontent.offset, hsome] at hframe
        refine (hgood.waits hwaits).frameSent hframe ?_ ?_
        · rintro rfl
          exact hpos hlength.symm
        · intro s hs
          cases hs
          rw [hwaits.history, getLast?_concat, hlength, hwaits.generation]
          rfl

structure FleetGood (opts : FleetOptions) (tight : Prop) (w : OutputFleet) : Prop where
  balanced : Balanced opts w
  queues : ∀ v, (w.queues v).disposed = false → QueueGood tight (w.queues v)

section

variable (h : FleetGood opts tight w)
include h

theorem FleetGood.of_served (hserved : Served opts v w w')
    (hown : (w'.queues v).disposed = false → QueueGood tight (w'.queues v)) : FleetGood opts tight w' := by
  refine ⟨hserved.balanced, fun u hlive => ?_⟩
  by_cases hu : u = v
  · subst hu
    exact hown hlive
  · rcases hserved.apart.others u hu with heq | hgone
    · rw [heq] at hlive ⊢
      exact h.queues u hlive
    · rw [hgone] at hlive
      cases hlive

theorem FleetGood.of_gone (hserved : Served opts v w w') (hgone : (w'.queues v).disposed = true) : FleetGood opts tight w' := by
  refine h.of_served hserved fun hlive => ?_
  rw [hgone] at hlive
  cases hlive

theorem FleetGood.put {q : TerminalOutputQueue} (hsame : SameStock (w.queues v) q)
    (hgood : QueueGood tight (w.queues v) → QueueGood tight q) : FleetGood opts tight (w.put v q) := by
  refine h.of_served ((Served.refl h.balanced v).put_same hsame) fun hlive => ?_
  rw [put_queues_self] at hlive ⊢
  exact hgood (h.queues v (hsame.disposed ▸ hlive))

theorem FleetGood.schedule (v : ℕ) : FleetGood opts tight (w.put v (w.queues v).schedule) := by
  obtain ⟨scheduled, heq⟩ := schedule_eq (w.queues v)
  rw [heq]
  exact h.put ⟨rfl, rfl, rfl, rfl⟩ fun hgood => hgood.same ⟨rfl, rfl⟩ hgood.ok rfl

omit h in
theorem FleetGood.initial (opts : FleetOptions) (tight : Prop) : FleetGood opts tight .initial := by
  refine ⟨⟨rfl, Int.natCast_nonneg _, fun _ => le_rfl, fun _ _ => ⟨rfl, rfl, rfl⟩, fun _ _ => rfl, nodup_nil,
    fun u hu => absurd hu not_mem_nil⟩, fun v hlive => ?_⟩
  cases hlive

omit h in
theorem QueueGood.new (tight : Prop) (id generation : String) (now : ℤ) :
    QueueGood tight (TerminalOutputQueue.new id generation now) := by
  refine ⟨⟨nodup_nil, nodup_nil, ?_, ?_, ?_, rfl, le_rfl, Nat.zero_le _, rfl, Int.natCast_nonneg _, ?_, ?_, ?_⟩,
    rfl, along_nil, along_nil⟩
  · exact fun _ hi => absurd hi not_mem_nil
  · exact fun _ hi => absurd hi not_mem_nil
  · exact fun _ hi => absurd hi not_mem_nil
  · exact fun _ hc => absurd hc not_mem_nil
  · exact fun _ => rfl
  · exact fun _ _ hc => absurd hc not_mem_nil

theorem FleetGood.open (id generation : String) (now : ℤ) : FleetGood opts tight (w.open id generation now) := by
  have hgone := h.balanced.unopened w.opened le_rfl
  have hsame : ∀ u, u ≠ w.opened → (w.open id generation now).queues u = w.queues u := fun u hu => put_queues_of_ne hu
  have hnew : (w.open id generation now).queues w.opened = .new id generation now := put_queues_self
  refine ⟨⟨?_, h.balanced.le, ?_, ?_, ?_, h.balanced.viewers.1, ?_⟩, ?_⟩
  · have hsum := h.balanced.sum
    change w.reservedBytes = ∑ u ∈ Finset.range (w.opened + 1), ((w.open id generation now).queues u).reservedBytes
    have hold : ∑ u ∈ Finset.range w.opened, ((w.open id generation now).queues u).reservedBytes = w.total := by
      refine Finset.sum_congr rfl fun u hu => ?_
      rw [hsame u (Finset.mem_range.1 hu).ne]
    rw [Finset.sum_range_succ, hnew, hsum, hold]
    exact (Int.add_zero _).symm
  · intro u
    by_cases hu : u = w.opened
    · rw [hu, hnew]
      exact le_rfl
    · rw [hsame u hu]
      exact h.balanced.nonneg u
  · intro u hdisposed
    by_cases hu : u = w.opened
    · rw [hu, hnew] at hdisposed ⊢
      cases hdisposed
    · rw [hsame u hu] at hdisposed ⊢
      exact h.balanced.gone u hdisposed
  · intro u hu
    change w.opened + 1 ≤ u at hu
    rw [hsame u (by omega)]
    exact h.balanced.unopened u (by omega)
  · intro u hu
    have hlive := h.balanced.viewers.2 u hu
    have hne : u ≠ w.opened := by
      rintro rfl
      rw [hgone] at hlive
      cases hlive
    rw [hsame u hne]
    exact hlive
  · intro u hlive
    by_cases hu : u = w.opened
    · rw [hu, hnew]
      exact QueueGood.new tight id generation now
    · rw [hsame u hu] at hlive ⊢
      exact h.queues u hlive

theorem FleetGood.recorded (hserved : Served opts v w w') (e : OutputEvent)
    (hown : (w'.queues v).disposed = false → QueueGood tight ((w'.queues v).record e)) :
    FleetGood opts tight (recordIf v e (true, w')) := by
  change FleetGood opts tight (w'.put v ((w'.queues v).record e))
  refine h.of_served (hserved.put_same ⟨rfl, rfl, rfl, rfl⟩) fun hlive => ?_
  rw [put_queues_self] at hlive ⊢
  exact hown hlive

theorem FleetGood.enqueue (v : ℕ) (bytes : List UInt8) (source : Option TerminalSourceRange) :
    FleetGood opts tight (recordIf v (.enqueued bytes source) (w.enqueue opts v bytes source)) := by
  cases hlive : (w.queues v).disposed with
  | true =>
    unfold OutputFleet.enqueue
    rw [if_pos hlive]
    exact h
  | false =>
    have hgood := h.queues v hlive
    have hok : LedgerOk tight 0 (segmentIds (w.queues v).pending ++ []) (w.queues v).ledger := by
      rw [append_nil]
      exact hgood.ok
    rcases enqueue_spec h.balanced hlive hok bytes source with ⟨w', heq, hserved, hgone | ⟨-, rfl⟩⟩ | ⟨w', heq, hserved, hext⟩
    · rw [heq]
      exact h.of_gone hserved hgone
    · rw [heq]
      exact h
    · rw [heq]
      refine h.recorded hserved _ fun _ => ?_
      have hok' := hext.ok
      rw [append_nil] at hok'
      exact hgood.record hext.record hok' _ hext.bytes (frameFits_of_ne (by simp)) (seedFits_of_ne (by simp))

theorem FleetGood.control (v : ℕ) (message : List (String × Json)) : FleetGood opts tight (w.control v message).2 := by
  cases hlive : (w.queues v).disposed with
  | true =>
    unfold OutputFleet.control
    rw [if_pos hlive]
    exact h
  | false =>
    have hgood := h.queues v hlive
    have hok : LedgerOk tight 0 (segmentIds (w.queues v).pending ++ []) (w.queues v).ledger := by
      rw [append_nil]
      exact hgood.ok
    rcases control_spec h.balanced hlive hok message with ⟨w', heq, hserved, hgone⟩ | ⟨w', heq, hserved, hext⟩
    · rw [heq]
      exact h.of_gone hserved hgone
    · rw [heq]
      have hok' := hext.ok
      rw [append_nil] at hok'
      exact h.of_served hserved fun _ => hgood.same hext.record hok' (hext.bytes.trans (append_nil _))

theorem FleetGood.setPaused (v : ℕ) (paused : Bool) : FleetGood opts tight (w.put v ((w.queues v).setPaused paused)) := by
  have hput : ∃ scheduled, (w.queues v).setPaused paused = { w.queues v with paused, scheduled } := by
    unfold TerminalOutputQueue.setPaused
    split
    · exact ⟨_, rfl⟩
    · obtain ⟨scheduled, heq⟩ := schedule_eq { w.queues v with paused }
      exact ⟨scheduled, heq⟩
  obtain ⟨scheduled, heq⟩ := hput
  rw [heq]
  exact h.put ⟨rfl, rfl, rfl, rfl⟩ fun hgood => hgood.same ⟨rfl, rfl⟩ hgood.ok rfl

omit h in
theorem discardUnsent_of_gone (hgone : Gone (w.queues v)) :
    w.discardUnsent v = w.put v { w.queues v with pending := [], controlCount := 0 } := by
  unfold OutputFleet.discardUnsent
  rw [hgone.pending]
  unfold releaseAcknowledged
  dsimp only [foldl_nil]
  rw [put_queues_self]
  dsimp only
  rw [hgone.held]
  rfl

theorem FleetGood.discardUnsent (v : ℕ) : FleetGood opts tight (recordIf v .discarded (true, w.discardUnsent v)) := by
  cases hlive : (w.queues v).disposed with
  | true =>
    have hgone := h.balanced.gone v hlive
    have hserved : Served opts v w (w.discardUnsent v) := by
      rw [discardUnsent_of_gone hgone]
      exact (Served.refl h.balanced v).put rfl rfl fun _ => ⟨hgone.reserved, rfl, hgone.held⟩
    refine h.recorded hserved _ fun hlive' => ?_
    rw [discardUnsent_of_gone hgone, put_queues_self, hlive] at hlive'
    cases hlive'
  | false =>
    have hgood := h.queues v hlive
    obtain ⟨hkept, hempty⟩ := discardUnsent_spec h.balanced hlive hgood.ok
    refine h.recorded hkept.served _ fun _ => ?_
    refine hgood.record hkept.record ?_ _ ?_ (frameFits_of_ne (by simp)) (seedFits_of_ne (by simp))
    · rw [hempty]
      exact hkept.ok
    · rw [hempty]
      rfl

/-- No seed without replay meets an unpositioned segment with bytes in transmission or
unacknowledged. -/
def SeedSafe (w : OutputFleet) : Action → Prop
  | .seed v snapshot _ _ _ false =>
    (w.queues v).disposed = false → (w.queues v).paused = true →
      (w.queues v).seedAccepts snapshot (w.queues v).pending snapshot.stop = true →
      UnpositionedFree (w.queues v) (w.queues v).pending
  | _ => True

theorem FleetGood.seed (v : ℕ) (snapshot : TerminalSourceRange) (bytes : List UInt8)
    (before after : List (String × Json)) (useAttachReplay : Bool)
    (hsafe : tight → SeedSafe w (.seed v snapshot bytes before after useAttachReplay)) :
    FleetGood opts tight (recordIf v (.seeded snapshot bytes useAttachReplay)
      (w.seed opts v snapshot bytes before after useAttachReplay)) := by
  cases hlive : (w.queues v).disposed with
  | true =>
    unfold OutputFleet.seed
    rw [if_pos (by rw [hlive]; rfl)]
    exact h
  | false =>
    have hgood := h.queues v hlive
    rcases seed_spec h.balanced (fun _ => hgood.ok) snapshot bytes before after useAttachReplay
        (fun htight hpaused haccepts hfalse => by
          subst hfalse
          exact hsafe htight hlive hpaused haccepts)
      with heq | ⟨w', heq, hserved, hgone⟩ | ⟨w', heq, hserved, -, hrecord, hok, hbytes, hcontinues⟩
    · rw [heq]
      exact h
    · rw [heq]
      exact h.of_gone hserved hgone
    · rw [heq]
      refine h.recorded hserved _ fun _ => ?_
      refine hgood.record hrecord hok _ hbytes (frameFits_of_ne (by simp)) ?_
      intro snapshot' bytes' useAttachReplay' he
      cases he
      rw [← hgood.bytes]
      exact hcontinues

theorem FleetGood.acknowledge (v : ℕ) (generation : String) (bytes now : ℤ) :
    FleetGood opts tight (w.acknowledge v generation bytes now).2 := by
  unfold OutputFleet.acknowledge
  dsimp only
  split
  · exact h
  rename_i hvalid
  simp only [Bool.or_eq_true, decide_eq_true_eq, not_or, Bool.not_eq_true] at hvalid
  obtain ⟨⟨⟨⟨hlive, -⟩, -⟩, hnonneg⟩, hle⟩ := hvalid
  split
  · exact h
  have hgood := h.queues v hlive
  have hstart : Kept opts tight v (segmentIds (w.queues v).pending) w w := ⟨.refl h.balanced v, hlive, .refl _, hgood.ok⟩
  have hcast : (bytes.toNat : ℤ) = bytes := Int.toNat_of_nonneg (by omega)
  have hacked := hgood.ok.acknowledge bytes.toNat (by
    change (w.queues v).acknowledged ≤ _
    omega) (by
    change _ ≤ (w.queues v).sent
    omega)
  generalize hq : ({ w.queues v with
      outstandingBytes := (w.queues v).outstandingBytes - (bytes - (w.queues v).acknowledged)
      acknowledged := bytes.toNat
      lastProgressAt := now } : TerminalOutputQueue) = q
  have hput : Kept opts tight v (segmentIds (w.queues v).pending) w (w.put v q) := by
    refine hstart.put ?_ ?_ ?_ ?_ <;> rw [← hq]
    · exact ⟨rfl, rfl⟩
    · rw [hcast] at hacked
      exact hacked
  obtain ⟨hkept, held, reservedBytes, heq⟩ := hput.releaseAcknowledged
  rw [put_queues_self] at heq
  generalize (w.put v q).releaseAcknowledged v = w₁ at hkept heq ⊢
  rw [← hq] at heq
  have hgood₁ : QueueGood tight (w₁.queues v) := by
    have hok := hkept.ok
    rw [heq] at hok ⊢
    exact hgood.same ⟨rfl, rfl⟩ hok rfl
  obtain ⟨stallTimer, harm⟩ := armStallTimer_eq (w₁.queues v) true
  obtain ⟨scheduled, hschedule⟩ := schedule_eq { w₁.queues v with stallTimer }
  rw [harm, hschedule]
  exact (h.of_served hkept.served fun _ => hgood₁).put ⟨rfl, rfl, rfl, rfl⟩ fun hg => hg.same ⟨rfl, rfl⟩ hg.ok rfl

/-- The viewer is unchanged or has sent events that carry no bytes. -/
theorem FleetGood.complete (v k : ℕ) (error : Bool) : FleetGood opts tight (w.complete v k error) := by
  have hwaits := complete_waitsOn h.balanced (fun hlive => (h.queues v hlive).ok) k error
  refine h.of_served hwaits.served fun hlive => ?_
  have hw := hwaits.waits hlive
  have hgood : QueueGood tight (w.queues v) := by
    refine h.queues v ?_
    rw [Bool.eq_false_iff]
    intro hgone
    rw [hwaits.gone hgone] at hlive
    cases hlive
  refine hgood.same ⟨?_, hw.generation⟩ hw.ok ?_
  · exact hw.history.trans (append_nil _)
  · rw [hw.bytes, hw.pending]

theorem FleetGood.retire (v : ℕ) (reason : LagReason) : FleetGood opts tight (w.retire v reason) := by
  obtain ⟨hserved, hgone⟩ := (Served.refl h.balanced v).retire reason
  exact h.of_gone hserved hgone

theorem FleetGood.dispose (v : ℕ) : FleetGood opts tight (w.dispose v) := by
  obtain ⟨hbalanced, hapart, hgone⟩ := h.balanced.dispose v
  exact h.of_gone ⟨hbalanced, hapart⟩ hgone

theorem FleetGood.flush (v : ℕ) (control frame : SendOutcome) : FleetGood opts tight (w.flush opts v control frame) := by
  unfold OutputFleet.flush
  dsimp only
  generalize hw₁ : w.put v _ = w₁
  have hgood₁ : FleetGood opts tight w₁ := by
    rw [← hw₁]
    exact h.put ⟨rfl, rfl, rfl, rfl⟩ fun hgood => hgood.same ⟨rfl, rfl⟩ hgood.ok rfl
  split
  · exact hgood₁
  rename_i hopen
  simp only [Bool.or_eq_true, not_or, Bool.not_eq_true] at hopen
  obtain ⟨threw, w₂, heq, hserved, hgood⟩ := flushOne_good hgood₁.balanced hopen.1 (hgood₁.queues v hopen.1) control frame
  rw [heq]
  refine FleetGood.schedule ?_ v
  cases threw with
  | true =>
    obtain ⟨hretired, hgone⟩ := hserved.retire .sendFailed
    exact hgood₁.of_gone hretired hgone
  | false => exact hgood₁.of_served hserved fun hlive => hgood hlive rfl

theorem FleetGood.step {a : Action} (hsafe : tight → SeedSafe w a)
    (hstep : step opts w a = some w') : FleetGood opts tight w' := by
  cases a with
  | «open» id generation now =>
    cases hstep
    exact h.open id generation now
  | enqueue v bytes source =>
    cases hstep
    exact h.enqueue v bytes source
  | control v message =>
    cases hstep
    exact h.control v message
  | setPaused v paused =>
    cases hstep
    exact h.setPaused v paused
  | seed v snapshot bytes before after useAttachReplay =>
    cases hstep
    exact h.seed v snapshot bytes before after useAttachReplay hsafe
  | discardUnsent v =>
    cases hstep
    exact h.discardUnsent v
  | acknowledge v generation bytes now =>
    cases hstep
    exact h.acknowledge v generation bytes now
  | flush v control frame =>
    change (if (w.queues v).scheduled then some (w.flush opts v control frame) else none) = some w' at hstep
    split at hstep
    · cases hstep
      exact h.flush v control frame
    · cases hstep
  | complete v k error =>
    cases hstep
    exact h.complete v k error
  | stall v =>
    change (if (w.queues v).stallTimer then some (w.retire v .ackStalled) else none) = some w' at hstep
    split at hstep
    · cases hstep
      exact h.retire v .ackStalled
    · cases hstep
  | dispose v =>
    cases hstep
    exact h.dispose v

end

end OutputFleet

end Kookr.Server
