import Kookr.Sanity.Server.OutputInvariant
import Mathlib.Algebra.Order.BigOperators.Group.Finset

/-! The accounts of the output queues and of their fleet, over every interleaving of the
viewers. A seed without replay gives up the buffer of an unpositioned segment whatever has
been sent of it; apart from such seeds every count is exact. -/

namespace Kookr.Server

open Kookr.Lib TerminalOutputQueue

def unsentBytes (q : TerminalOutputQueue) (entries : List Entry) : ℤ :=
  (entries.map fun entry => match entry with
    | .bytes i => ((q.segments i).length - (q.segments i).offset : ℤ)
    | .control _ => 0).sum

structure ViewerBooks (q : TerminalOutputQueue) : Prop where
  outstanding : q.outstandingBytes = unsentBytes q q.pending + (q.sent - q.acknowledged : ℤ)
  acknowledged : 0 ≤ (q.sent - q.acknowledged : ℤ)
  credit : (q.sent - q.acknowledged : ℤ) ≤ CREDIT_BYTES
  distinct : q.held.Nodup
  reserved : q.reservedBytes = FRAME_BYTES * q.held.length + controlBytes q.callbacks
  budget : q.reservedBytes ≤ VIEWER_BYTES
  holds : ∀ c ∈ q.callbacks, ∀ i, c.Needs q.acknowledged i → i ∈ q.held

structure FleetBooks (opts : FleetOptions) (w : OutputFleet) : Prop where
  viewers : ∀ v, (w.queues v).disposed = false → ViewerBooks (w.queues v)
  sum : w.reservedBytes = ∑ v ∈ Finset.range w.opened, (w.queues v).reservedBytes
  nonneg : 0 ≤ w.reservedBytes
  limit : w.reservedBytes ≤ opts.limit

theorem unsentBytes_eq {q : TerminalOutputQueue} {entries : List Entry} (h : ∀ i ∈ segmentIds entries, (q.segments i).Wf) :
    unsentBytes q entries = (bytesOf q.segments (segmentIds entries)).length := by
  induction entries with
  | nil => rfl
  | cons entry entries ih =>
    cases entry with
    | control text =>
      rw [segmentIds_control, ← ih h]
      exact Int.zero_add _
    | bytes i =>
      have hwf := h i List.mem_cons_self
      have hlength := hwf.length_unsent
      have hoffset := hwf.offset
      have hrest := ih fun j hj => h j (List.mem_cons_of_mem _ hj)
      have hcons : unsentBytes q (.bytes i :: entries) =
          ((q.segments i).length - (q.segments i).offset : ℤ) + unsentBytes q entries := rfl
      rw [segmentIds_bytes, bytesOf_cons, List.length_append, hcons]
      omega

theorem QueueGood.books {q : TerminalOutputQueue} (h : QueueGood True q) : ViewerBooks q := by
  have hacknowledged : q.acknowledged ≤ q.sent := h.ok.acknowledged
  have hcredit : q.sent ≤ q.acknowledged + CREDIT_BYTES := h.ok.credit
  refine ⟨?_, by omega, by omega, h.ok.heldNodup, h.ok.reserved, h.ok.budget, h.ok.holds trivial⟩
  have houtstanding := h.ok.outstanding
  change q.outstandingBytes = (bytesOf q.segments (segmentIds q.pending)).length + (0 : ℕ) + q.sent - q.acknowledged
    at houtstanding
  rw [unsentBytes_eq h.ok.wf]
  omega

namespace OutputFleet

variable {opts : FleetOptions} {w : OutputFleet}

theorem FleetGood.books (h : FleetGood opts True w) : FleetBooks opts w := by
  refine ⟨fun v hlive => (h.queues v hlive).books, h.balanced.sum, ?_, h.balanced.le⟩
  rw [h.balanced.sum]
  exact Finset.sum_nonneg fun v _ => h.balanced.nonneg v

/-- In every run whose seeds without replay give up no buffer that is still owed to a send
or to an acknowledgement, every count is exact. -/
theorem accounts_exact (opts : FleetOptions) {events : List Action}
    (hsafe : StepsMeet (step opts) SeedSafe .initial events) (hrun : exec (step opts) .initial events = some w) :
    FleetBooks opts w := by
  have hinitial : FleetGood opts True .initial := FleetGood.initial opts True
  exact (exec_invariant (fun _ _ _ h hok hstep => h.step (fun _ => hok) hstep) hinitial hsafe hrun).books

instance (acknowledged i : ℕ) (c : Callback) : Decidable (c.Needs acknowledged i) :=
  match hc : c.payload with
  | .control _ => isFalse (by rintro ⟨n, hn, -⟩; rw [hc] at hn; cases hn)
  | .frame j n => decidable_of_iff (j = i ∧ (c.completed = false ∨ acknowledged < n)) (by
      constructor
      · rintro ⟨rfl, h⟩
        exact ⟨n, hc, h⟩
      · rintro ⟨n', hn', h⟩
        rw [hc] at hn'
        cases hn'
        exact ⟨rfl, h⟩)

instance (q : TerminalOutputQueue) (entries : List Entry) : Decidable (UnpositionedFree q entries) :=
  inferInstanceAs (Decidable (∀ i ∈ segmentIds entries, _ → ∀ c ∈ q.callbacks, ¬ _))

instance (w : OutputFleet) : (a : Action) → Decidable (SeedSafe w a)
  | .seed v _ _ _ _ false => inferInstanceAs (Decidable (_ → _ → _ → UnpositionedFree (w.queues v) _))
  | .seed _ _ _ _ _ true => isTrue trivial
  | .open .. => isTrue trivial
  | .enqueue .. => isTrue trivial
  | .control .. => isTrue trivial
  | .setPaused .. => isTrue trivial
  | .discardUnsent _ => isTrue trivial
  | .acknowledge .. => isTrue trivial
  | .flush .. => isTrue trivial
  | .complete .. => isTrue trivial
  | .stall _ => isTrue trivial
  | .dispose _ => isTrue trivial

def quiet : SendOutcome := ⟨[], false⟩

def fleetOptions : FleetOptions := ⟨32 * 1024 * 1024, fun _ _ => 0⟩

def emptySnapshot : TerminalSourceRange := ⟨"epoch", 0, 0, 0, 80, 24⟩

/-- The one byte sent is acknowledged and its send has ended before the seed. -/
def settledRun : List Action :=
  [.open "viewer" "generation" 0, .enqueue 0 [65] none, .flush 0 quiet quiet, .complete 0 0 false,
    .acknowledge 0 "generation" 1 5, .setPaused 0 true, .enqueue 0 [66] none, .seed 0 emptySnapshot [67] [] [] false]

set_option maxRecDepth 100000 in
theorem accounts_exact_settledRun : ∃ w, exec (step fleetOptions) .initial settledRun = some w ∧
    (w.queues 0).held = [2] ∧ FleetBooks fleetOptions w := by
  have hsafe : StepsMeet (step fleetOptions) SeedSafe .initial settledRun := by decide +kernel
  have hheld : (exec (step fleetOptions) .initial settledRun).map (fun w => (w.queues 0).held) = some [2] := by
    decide +kernel
  obtain ⟨w, hrun, hw⟩ := Option.map_eq_some_iff.1 hheld
  exact ⟨w, hrun, hw, accounts_exact fleetOptions hsafe hrun⟩

/-- Seventeen writes fill the credit in the middle of the last segment, whose end is still
to be sent when the viewer is seeded. -/
def splitRun : List Action :=
  [.open "viewer" "generation" 0] ++
    (List.replicate 17 [Action.enqueue 0 (List.replicate 8000 0) none, .flush 0 quiet quiet]).flatten ++
    [.setPaused 0 true, .seed 0 emptySnapshot [] [] [] false]

set_option maxRecDepth 100000 in
theorem unheld_after_split_seed : ∃ w, exec (step fleetOptions) .initial splitRun = some w ∧
    (w.queues 0).disposed = false ∧ ¬ FleetBooks fleetOptions w := by
  have hleak : (exec (step fleetOptions) .initial splitRun).map (fun w =>
      ((w.queues 0).disposed, (w.queues 0).held, (w.queues 0).callbacks[16]?)) =
        some (false, List.range 16, some ⟨.frame 16 131072, false⟩) := by
    decide +kernel
  obtain ⟨w, hrun, hw⟩ := Option.map_eq_some_iff.1 hleak
  obtain ⟨hlive, hw'⟩ := Prod.mk.inj hw
  obtain ⟨hheld, hcallback⟩ := Prod.mk.inj hw'
  refine ⟨w, hrun, hlive, fun hbooks => ?_⟩
  have hmem := (hbooks.viewers 0 hlive).holds _ (List.mem_of_getElem? hcallback) 16 ⟨131072, rfl, .inl rfl⟩
  rw [hheld] at hmem
  exact absurd (List.mem_range.1 hmem) (lt_irrefl 16)

end OutputFleet

end Kookr.Server

/-! What a viewer is sent is its stream: every frame is the next bytes of it, with their
positions named right before, and what the queue still has to send is the rest. A seed puts
the snapshot before the bytes that are kept, and those without a position before those with
one. -/

namespace Kookr.Server

open Kookr.Lib TerminalOutputQueue

structure StreamFaithful (q : TerminalOutputQueue) : Prop where
  frames : Along (FrameFits q.generation) q.history
  seeds : Along SeedFits q.history
  unsent : bytesOf q.segments (segmentIds q.pending) = unsentAfter q.history

theorem QueueGood.faithful {tight : Prop} {q : TerminalOutputQueue} (h : QueueGood tight q) : StreamFaithful q :=
  ⟨h.frames, h.seeds, h.bytes⟩

namespace OutputFleet

/-- The stream of every live viewer is sent in order, without loss and without repetition. -/
theorem frames_follow_stream (opts : FleetOptions) {events : List Action} {w : OutputFleet}
    (hrun : exec (step opts) .initial events = some w) (v : ℕ) (hlive : (w.queues v).disposed = false) :
    StreamFaithful (w.queues v) := by
  have hinitial : FleetGood opts False .initial := FleetGood.initial opts False
  have hgood := exec_preserves (fun _ _ _ h hstep => h.step nofun hstep) hinitial hrun
  exact (hgood.queues v hlive).faithful

/-- The sends end at once, without an error. -/
def prompt : SendOutcome := ⟨[false], false⟩

def streamOptions : FleetOptions := ⟨32 * 1024 * 1024, fun _ _ => 0⟩

def rangeAt (start stop : ℤ) : TerminalSourceRange := ⟨"epoch", start, stop, 0, 80, 24⟩

def flushes (n : ℕ) : List Action := List.replicate n (.flush 0 prompt prompt)

/-- A positioned byte and then one without a position wait when the snapshot comes. -/
def replayRun : List Action :=
  [.open "viewer" "generation" 0, .setPaused 0 true, .enqueue 0 [65] (some (rangeAt 0 1)), .enqueue 0 [67] none,
    .seed 0 (rangeAt 0 0) [66] [] [] true, .setPaused 0 false] ++ flushes 5

/-- The first positioned byte after the snapshot comes later, from another position. -/
def lateRun : List Action :=
  [.open "viewer" "generation" 0, .setPaused 0 true, .seed 0 (rangeAt 0 0) [66] [] [] false, .setPaused 0 false,
    .enqueue 0 [65] (some (rangeAt 7 8))] ++ flushes 4

def blankControl : OutputEvent := .control ['{', '}']

def sourceControl (start stop : ℤ) : OutputEvent := .control (sourceText "generation" (rangeAt start stop) start stop)

set_option maxRecDepth 100000 in
theorem replayRun_history : (exec (step streamOptions) .initial replayRun).map (fun w =>
    ((w.queues 0).disposed, (w.queues 0).history)) = some (false, [.enqueued [65] (some (rangeAt 0 1)), .enqueued [67] none,
      .seeded (rangeAt 0 0) [66] true, blankControl, .frame [66], .frame [67], blankControl, sourceControl 0 1,
      .frame [65]]) := by
  decide +kernel

theorem frames_follow_stream_replayRun : ∃ w, exec (step streamOptions) .initial replayRun = some w ∧
    (w.queues 0).disposed = false ∧ StreamFaithful (w.queues 0) := by
  obtain ⟨w, hrun, hw⟩ := Option.map_eq_some_iff.1 replayRun_history
  have hlive : (w.queues 0).disposed = false := (Prod.mk.inj hw).1
  exact ⟨w, hrun, hlive, frames_follow_stream streamOptions hrun 0 hlive⟩

/-- The stream if a seed left the bytes it keeps in the order they came. -/
def receiveInOrder (unsent : List MarkedByte) : OutputEvent → List MarkedByte
  | .seeded snapshot bytes useAttachReplay => marked none bytes ++
      unsent.filter fun b => isBeyond snapshot.stop b || (useAttachReplay && isUnpositioned b)
  | e => receive unsent e

/-- Every frame is the next bytes of the stream in the order they came. -/
def FramesInOrder (history : List OutputEvent) : Prop :=
  Along (fun past e => ∀ bytes, e = .frame bytes → bytes <+: (past.foldl receiveInOrder []).map Prod.fst) history

set_option maxRecDepth 100000 in
/-- A seed changes the order of what it keeps, and the first position after it need not be
the snapshot's end. -/
theorem seed_reorders_and_skips : (∃ w, exec (step streamOptions) .initial replayRun = some w ∧ (w.queues 0).disposed = false ∧
      ¬ FramesInOrder (w.queues 0).history) ∧
    ∃ w, exec (step streamOptions) .initial lateRun = some w ∧ (w.queues 0).disposed = false ∧
      (w.queues 0).history = [.seeded (rangeAt 0 0) [66] false, .enqueued [65] (some (rangeAt 7 8)), blankControl,
        .frame [66], blankControl, sourceControl 7 8, .frame [65]] := by
  constructor
  · obtain ⟨w, hrun, hw⟩ := Option.map_eq_some_iff.1 replayRun_history
    obtain ⟨hlive, hhistory⟩ := Prod.mk.inj hw
    refine ⟨w, hrun, hlive, fun hin => ?_⟩
    rw [hhistory] at hin
    have hnext := hin [.enqueued [65] (some (rangeAt 0 1)), .enqueued [67] none, .seeded (rangeAt 0 0) [66] true,
      blankControl, .frame [66]] (.frame [67]) [blankControl, sourceControl 0 1, .frame [65]] rfl [67] rfl
    exact absurd hnext (by decide +kernel)
  · have hlate : (exec (step streamOptions) .initial lateRun).map (fun w =>
        ((w.queues 0).disposed, (w.queues 0).history)) = some (false, [.seeded (rangeAt 0 0) [66] false,
          .enqueued [65] (some (rangeAt 7 8)), blankControl, .frame [66], blankControl, sourceControl 7 8, .frame [65]]) := by
      decide +kernel
    obtain ⟨w, hrun, hw⟩ := Option.map_eq_some_iff.1 hlate
    obtain ⟨hlive, hhistory⟩ := Prod.mk.inj hw
    exact ⟨w, hrun, hlive, hhistory⟩

end OutputFleet

end Kookr.Server
