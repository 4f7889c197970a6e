import Kookr.Sanity.Server.SeedSteps

/-! Sending and what comes back: completions, whenever they are reported, and the deferred
flush. A completion changes neither what is pending nor what has been sent. -/

namespace Kookr.Server

open Kookr.Lib TerminalOutputQueue List

/-- The two segments have the same bytes in the same state. -/
structure SameContent (s s' : Segment) : Prop where
  data : s'.data = s.data
  length : s'.length = s.length
  offset : s'.offset = s.offset
  source : s'.source = s.source

theorem SameContent.refl (s : Segment) : SameContent s s := ⟨rfl, rfl, rfl, rfl⟩

theorem SameContent.trans {s s' s'' : Segment} (h : SameContent s s') (h' : SameContent s' s'') : SameContent s s'' :=
  ⟨h'.data.trans h.data, h'.length.trans h.length, h'.offset.trans h.offset, h'.source.trans h.source⟩

theorem SameContent.unsent {s s' : Segment} (h : SameContent s s') : s'.unsent = s.unsent := by
  unfold Segment.unsent
  rw [h.data, h.offset, h.source]

/-- The queue has handed over these events, and waits for the same bytes and credit. -/
structure Waits (tight : Prop) (events : List OutputEvent) (q q' : TerminalOutputQueue) : Prop where
  history : q'.history = q.history ++ events
  generation : q'.generation = q.generation
  pending : q'.pending = q.pending
  sent : q'.sent = q.sent
  acknowledged : q'.acknowledged = q.acknowledged
  content : ∀ i, SameContent (q.segments i) (q'.segments i)
  ok : LedgerOk tight 0 (segmentIds q'.pending) q'.ledger

theorem Waits.trans {tight : Prop} {events events' : List OutputEvent} {q q' q'' : TerminalOutputQueue}
    (h : Waits tight events q q') (h' : Waits tight events' q' q'') : Waits tight (events ++ events') q q'' := by
  refine ⟨?_, h'.generation.trans h.generation, h'.pending.trans h.pending, h'.sent.trans h.sent,
    h'.acknowledged.trans h.acknowledged, fun i => (h.content i).trans (h'.content i), h'.ok⟩
  rw [h'.history, h.history, append_assoc]

theorem Waits.bytes {tight : Prop} {events : List OutputEvent} {q q' : TerminalOutputQueue} (h : Waits tight events q q')
    (ids : List ℕ) : bytesOf q'.segments ids = bytesOf q.segments ids :=
  flatMap_congr fun i _ => (h.content i).unsent

namespace OutputFleet

variable {opts : FleetOptions} {w w' : OutputFleet} {v i : ℕ} {tight : Prop} {events : List OutputEvent}

/-- The viewer waits on, or is gone. -/
structure WaitsOn (opts : FleetOptions) (tight : Prop) (events : List OutputEvent) (v : ℕ) (w w' : OutputFleet) : Prop where
  served : Served opts v w w'
  gone : (w.queues v).disposed = true → (w'.queues v).disposed = true
  waits : (w'.queues v).disposed = false → Waits tight events (w.queues v) (w'.queues v)

theorem WaitsOn.trans {w'' : OutputFleet} {events' : List OutputEvent} (h : WaitsOn opts tight events v w w')
    (h' : WaitsOn opts tight events' v w' w'') : WaitsOn opts tight (events ++ events') v w w'' := by
  refine ⟨h.served.trans h'.served, fun hgone => h'.gone (h.gone hgone), fun hlive => ?_⟩
  have hlive' : (w'.queues v).disposed = false := by
    rw [Bool.eq_false_iff]
    intro hgone
    rw [h'.gone hgone] at hlive
    cases hlive
  exact (h.waits hlive').trans (h'.waits hlive)

theorem WaitsOn.of_gone (hserved : Served opts v w w') (hgone : (w'.queues v).disposed = true) :
    WaitsOn opts tight events v w w' := by
  refine ⟨hserved, fun _ => hgone, fun hlive => ?_⟩
  rw [hgone] at hlive
  cases hlive

section

variable (h : Balanced opts w)
include h

theorem WaitsOn.refl (hok : (w.queues v).disposed = false →
    LedgerOk tight 0 (segmentIds (w.queues v).pending) (w.queues v).ledger) : WaitsOn opts tight [] v w w :=
  ⟨.refl h v, id, fun hlive => ⟨(append_nil _).symm, rfl, rfl, rfl, rfl, fun _ => .refl _, hok hlive⟩⟩

omit h in
theorem WaitsOn.retire_if (h : WaitsOn opts tight events v w w') (error : Bool) (reason : LagReason) :
    WaitsOn opts tight events v w (if error then w'.retire v reason else w') := by
  split
  · obtain ⟨hserved, hgone⟩ := h.served.retire reason
    exact .of_gone hserved hgone
  · exact h

theorem complete_waitsOn (hok : (w.queues v).disposed = false →
      LedgerOk tight 0 (segmentIds (w.queues v).pending) (w.queues v).ledger) (k : ℕ) (error : Bool) :
    WaitsOn opts tight [] v w (w.complete v k error) := by
  unfold complete
  dsimp only
  split
  · exact .refl h hok
  rename_i callback hk
  split
  · exact .refl h hok
  rename_i hopen
  simp only [Bool.or_eq_true, not_or, Bool.not_eq_true] at hopen
  obtain ⟨hfalse, hlive⟩ := hopen
  have hok := hok hlive
  obtain ⟨payload, completed⟩ := callback
  subst hfalse
  cases payload with
  | control bytes =>
    obtain ⟨hdone, hle⟩ := hok.completeControl hk
    refine WaitsOn.retire_if ?_ error .sendFailed
    generalize hw₁ : w.put v _ = w₁
    have hserved₁ : Served opts v w w₁ := by
      rw [← hw₁]
      exact (Served.refl h v).put rfl rfl (gone_of_live hlive)
    have hq₁ := put_queues_self (w := w) (v := v) |>.symm.trans (congrArg (fun x => x.queues v) hw₁)
    obtain ⟨hbalanced, hapart, heq⟩ := hserved₁.balanced.discharge (v := v) (by rw [← hq₁]; exact hlive)
      (by rw [← hq₁]; exact hle)
    rw [← hq₁] at heq
    refine ⟨hserved₁.trans ⟨hbalanced, hapart⟩, fun hgone => ?_, fun _ => ?_⟩
    · rw [hlive] at hgone
      cases hgone
    · rw [heq]
      exact ⟨(append_nil _).symm, rfl, rfl, rfl, rfl, fun _ => .refl _, hdone⟩
  | frame i sentTo =>
    dsimp only
    have hdone := hok.completeFrame hk rfl
    generalize hq : TerminalOutputQueue.setSegment _ i _ = q
    have hstart : Kept opts tight v (segmentIds (w.queues v).pending) w w := ⟨.refl h v, hlive, .refl _, hok⟩
    have hput : Kept opts tight v (segmentIds (w.queues v).pending) w (w.put v q) := by
      rw [← hq]
      exact hstart.put rfl rfl ⟨rfl, rfl⟩ hdone
    have hwaits : Waits tight [] (w.queues v) q := by
      rw [← hq]
      refine ⟨(append_nil _).symm, rfl, rfl, rfl, rfl, fun j => ?_, hdone⟩
      change SameContent _ (Function.update (w.queues v).segments i _ j)
      by_cases hj : j = i
      · subst hj
        rw [Function.update_self]
        exact ⟨rfl, rfl, rfl, rfl⟩
      · rw [Function.update_of_ne hj]
        exact .refl _
    split
    · obtain ⟨hserved, hgone⟩ := hput.served.retire .sendFailed
      exact .of_gone hserved hgone
    · obtain ⟨hkept, held, reservedBytes, heq⟩ := hput.releaseAcknowledged
      rw [put_queues_self] at heq
      refine ⟨hkept.served, fun hgone => ?_, fun _ => ?_⟩
      · rw [hlive] at hgone
        cases hgone
      · have hok' := hkept.ok
        rw [heq] at hok' ⊢
        exact ⟨hwaits.history, hwaits.generation, hwaits.pending, hwaits.sent, hwaits.acknowledged, hwaits.content,
          hwaits.pending ▸ hok'⟩

theorem foldl_complete_waitsOn (hok : (w.queues v).disposed = false →
      LedgerOk tight 0 (segmentIds (w.queues v).pending) (w.queues v).ledger) (k : ℕ) (completions : List Bool) :
    WaitsOn opts tight [] v w (completions.foldl (fun w error => w.complete v k error) w) := by
  induction completions generalizing w with
  | nil => exact .refl h hok
  | cons error completions ih =>
    have hfirst := complete_waitsOn h hok k error
    exact hfirst.trans (ih hfirst.served.balanced fun hlive => (hfirst.waits hlive).ok)

/-- The books are right with the callback that `send` is given. -/
theorem send_waitsOn (hlive : (w.queues v).disposed = false) (payload : Payload)
    (hok : LedgerOk tight 0 (segmentIds (w.queues v).pending)
      { (w.queues v).ledger with callbacks := (w.queues v).callbacks ++ [⟨payload, false⟩] })
    (event : OutputEvent) (outcome : SendOutcome) : (w.send v payload event outcome).1 = outcome.throws ∧
      WaitsOn opts tight [event] v w (w.send v payload event outcome).2 := by
  unfold send
  dsimp only
  generalize hq : TerminalOutputQueue.record _ event = q
  have hwaits : Waits tight [event] (w.queues v) q := by
    rw [← hq]
    exact ⟨rfl, rfl, rfl, rfl, rfl, fun _ => .refl _, hok⟩
  have hput : WaitsOn opts tight [event] v w (w.put v q) := by
    refine ⟨?_, fun hgone => ?_, fun _ => ?_⟩
    · rw [← hq]
      exact (Served.refl h v).put rfl rfl (gone_of_live hlive)
    · rw [hlive] at hgone
      cases hgone
    · rw [put_queues_self]
      exact hwaits
  refine ⟨rfl, ?_⟩
  exact hput.trans (foldl_complete_waitsOn hput.served.balanced (fun hl => (hput.waits hl).ok) _ _)

/-- `sendControl` throws, refuses with the viewer gone, or has handed the text over. -/
theorem sendControl_spec (hlive : (w.queues v).disposed = false)
    (hok : LedgerOk tight 0 (segmentIds (w.queues v).pending) (w.queues v).ledger) (text : List Char) (outcome : SendOutcome) :
    (∃ w', w.sendControl opts v text outcome = (none, w') ∧ Served opts v w w') ∨
      (∃ w', w.sendControl opts v text outcome = (some false, w') ∧ Served opts v w w' ∧ (w'.queues v).disposed = true) ∨
      ∃ w', w.sendControl opts v text outcome = (some true, w') ∧ Served opts v w w' ∧
        (w'.queues v).disposed = false ∧ Waits tight [.control text] (w.queues v) (w'.queues v) := by
  unfold sendControl
  dsimp only
  split
  · exact .inr (.inl ⟨_, rfl, (Served.refl h v).retire _⟩)
  split
  · exact .inr (.inl ⟨_, rfl, (Served.refl h v).retire _⟩)
  rcases charge_spec h hlive (byteLength text) with ⟨w₁, heq, hbal, hap, hgone⟩ | ⟨w₁, heq, hbal, hap, hq₁⟩
  · rw [heq]
    exact .inr (.inl ⟨w₁, rfl, ⟨hbal, hap⟩, hgone⟩)
  rw [heq]
  dsimp only
  generalize hw₂ : w₁.put v _ = w₂
  have hserved₂ : Served opts v w w₂ := by
    rw [← hw₂]
    refine Served.put ⟨hbal, hap⟩ rfl rfl (gone_of_live ?_)
    rw [hq₁]
    exact hlive
  have hq₂ : w₂.queues v = { w.queues v with
      reservedBytes := (w.queues v).reservedBytes + byteLength text
      transmittingControls := (w.queues v).transmittingControls + 1 } := by
    rw [← hw₂, put_queues_self, hq₁]
  have hsent := hok.sendControl (byteLength text) (by
    change (w.queues v).reservedBytes + _ ≤ _
    omega)
  obtain ⟨hthrows, hwaits⟩ := send_waitsOn hserved₂.balanced (by rw [hq₂]; exact hlive)
    (.control (byteLength text)) (by rw [hq₂]; exact hsent) (.control text) outcome
  generalize hsend : w₂.send v (.control (byteLength text)) (.control text) outcome = result at hthrows hwaits ⊢
  obtain ⟨threw, w₃⟩ := result
  have hserved := hserved₂.trans hwaits.served
  cases threw with
  | true => exact .inl ⟨w₃, rfl, hserved⟩
  | false =>
    cases hgone : (w₃.queues v).disposed with
    | true => exact .inr (.inl ⟨w₃, by simp [hgone], hserved, hgone⟩)
    | false =>
      have hw := hwaits.waits hgone
      rw [hq₂] at hw
      exact .inr (.inr ⟨w₃, by simp [hgone], hserved, hgone, hw.history, hw.generation, hw.pending, hw.sent,
        hw.acknowledged, hw.content, hw.ok⟩)

/-- The queue has handed over the next bytes of its first segment. -/
structure FrameSent (tight : Prop) (frame : List UInt8) (source : Option TerminalSourceRange)
    (q q' : TerminalOutputQueue) : Prop where
  history : q'.history = q.history ++ [.frame frame]
  generation : q'.generation = q.generation
  bytes : bytesOf q.segments (segmentIds q.pending) = marked source frame ++ bytesOf q'.segments (segmentIds q'.pending)
  ok : LedgerOk tight 0 (segmentIds q'.pending) q'.ledger

omit h in
theorem armStallTimer_eq (q : TerminalOutputQueue) (progress : Bool) :
    ∃ stallTimer, q.armStallTimer progress = { q with stallTimer } := by
  unfold armStallTimer
  split <;> exact ⟨_, rfl⟩

omit h in
theorem sendFrame_books {q q' : TerminalOutputQueue} (hok : LedgerOk tight 0 (segmentIds q.pending) q.ledger)
    {rest : List Entry} (hpending : q.pending = .bytes i :: rest) {count : ℕ} (hpos : 0 < count)
    (hcount : count ≤ (q.segments i).length - (q.segments i).offset)
    (hcredit : count ≤ CREDIT_BYTES - (q.sent - q.acknowledged)) {finished : Bool}
    (hfinished : finished = decide ((q.segments i).offset + count = (q.segments i).length))
    (hq' : q' = ({ q with
      sent := q.sent + count
      pending := if finished then q.pending.tail else q.pending }).setSegment i { q.segments i with
        offset := (q.segments i).offset + count
        sentEnd := if finished then some (q.sent + count) else (q.segments i).sentEnd
        transmitting := (q.segments i).transmitting + 1 }) :
    LedgerOk tight 0 (segmentIds q'.pending)
        { q'.ledger with callbacks := q'.callbacks ++ [⟨.frame i (q.sent + count), false⟩] } ∧
      bytesOf q.segments (segmentIds q.pending) =
        marked (shift (q.segments i).source (q.segments i).offset) (((q.segments i).data.drop (q.segments i).offset).take count) ++
          bytesOf q'.segments (segmentIds q'.pending) := by
  have hids : segmentIds q.pending = i :: segmentIds rest := by rw [hpending, segmentIds_bytes]
  rw [hids] at hok
  have hids' : segmentIds q'.pending = if finished then segmentIds rest else i :: segmentIds rest := by
    rw [hq', hpending]
    cases finished <;> rfl
  have hwf : (q.segments i).Wf := hok.wf i mem_cons_self
  have hnot := (nodup_cons.1 hok.nodup).1
  refine ⟨?_, ?_⟩
  · rw [hids', hq']
    exact hok.sendFrame hcount hpos hcredit hfinished rfl
  · have hle : count ≤ ((q.segments i).data.drop (q.segments i).offset).length := by
      rw [length_drop, ← hwf.length]
      exact hcount
    have hsplit : (q.segments i).unsent = marked (shift (q.segments i).source (q.segments i).offset)
        (((q.segments i).data.drop (q.segments i).offset).take count) ++ (q.segments i).unsent.drop count := by
      conv_lhs => rw [← take_append_drop count (q.segments i).unsent]
      rw [hwf.unsent_eq, marked_take _ _ _ hle]
    have hlength := hwf.length_unsent
    rw [hids', hids, bytesOf_cons, hsplit, append_assoc, hq']
    congr 1
    cases finished with
    | true =>
      have hend := of_decide_eq_true hfinished.symm
      rw [if_pos rfl, drop_eq_nil_of_le (by omega), nil_append]
      exact (bytesOf_update_of_not_mem hnot).symm
    | false =>
      change _ = bytesOf (Function.update q.segments i _) (i :: segmentIds rest)
      rw [bytesOf_cons, Function.update_self, bytesOf_update_of_not_mem hnot]
      unfold Segment.unsent
      rw [drop_drop]

theorem sendFrame_spec (hlive : (w.queues v).disposed = false)
    (hok : LedgerOk tight 0 (segmentIds (w.queues v).pending) (w.queues v).ledger) {rest : List Entry}
    (hpending : (w.queues v).pending = .bytes i :: rest) {count : ℕ} (hpos : 0 < count)
    (hcount : count ≤ ((w.queues v).segments i).length - ((w.queues v).segments i).offset)
    (hcredit : count ≤ CREDIT_BYTES - ((w.queues v).sent - (w.queues v).acknowledged)) (outcome : SendOutcome) :
    ∃ threw w', w.sendFrame v i count outcome = (threw, w') ∧ Served opts v w w' ∧
      ((w'.queues v).disposed = false → threw = false → ∃ frame, frame.length = count ∧
        FrameSent tight frame (shift ((w.queues v).segments i).source ((w.queues v).segments i).offset)
          (w.queues v) (w'.queues v)) := by
  unfold sendFrame
  dsimp only
  generalize hq₁ : TerminalOutputQueue.setSegment _ i _ = q₁
  obtain ⟨hbooks, hbytes⟩ := sendFrame_books hok hpending hpos hcount hcredit rfl hq₁.symm
  have hlive₁ : q₁.disposed = false := by
    rw [← hq₁]
    exact hlive
  have hput : Served opts v w (w.put v q₁) :=
    (Served.refl h v).put (by rw [← hq₁]; rfl) (hlive₁.trans hlive.symm) (gone_of_live hlive₁)
  obtain ⟨-, hwaits⟩ := send_waitsOn hput.balanced (by rw [put_queues_self]; exact hlive₁)
    (.frame i ((w.queues v).sent + count)) (by rw [put_queues_self]; exact hbooks)
    (.frame ((((w.queues v).segments i).data.drop ((w.queues v).segments i).offset).take count)) outcome
  generalize (w.put v q₁).send v _ _ outcome = result at hwaits ⊢
  obtain ⟨threw, w₂⟩ := result
  have hserved : Served opts v w w₂ := hput.trans hwaits.served
  cases threw with
  | true =>
    refine ⟨true, w₂, rfl, hserved, ?_⟩
    intro _ hfalse
    cases hfalse
  | false =>
    obtain ⟨stallTimer, harm⟩ := armStallTimer_eq (w₂.queues v) false
    refine ⟨false, _, rfl, ?_, ?_⟩
    · rw [harm]
      exact hserved.put_same ⟨rfl, rfl, rfl, rfl⟩
    · intro hlive₂ _
      rw [put_queues_self, harm] at hlive₂ ⊢
      have hw := hwaits.waits hlive₂
      rw [put_queues_self] at hw
      refine ⟨(((w.queues v).segments i).data.drop ((w.queues v).segments i).offset).take count, ?_, ⟨?_, ?_, ?_, ?_⟩⟩
      · have hwf : ((w.queues v).segments i).Wf := hok.wf i (by rw [hpending]; simp)
        have hlength := hwf.length
        rw [length_take, length_drop]
        omega
      · rw [hw.history, ← hq₁]
        rfl
      · rw [hw.generation, ← hq₁]
        rfl
      · rw [hbytes]
        rw [hw.bytes, hw.pending]
      · exact hw.ok

end

end OutputFleet

end Kookr.Server
