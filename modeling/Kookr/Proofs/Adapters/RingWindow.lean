import Kookr.Lib.ListAt
import Kookr.Spec.Adapters.DtachRingStore
import Mathlib.Data.List.DropRight

/-! A ring retains the end of a stream of bytes, through every new layout, and its file holds what it retains. -/

namespace Kookr.Adapters.DtachRingState

open Kookr.Lib RingBuffer List

variable {ν : Type}

/-- The ring holds the end of the stream. -/
def EndOf (state : DtachRingState ν) (stream : Bytes) : Prop := ∃ base, RingBuffer.Holds state.ringBuffer state.ringHead base stream

variable {state : DtachRingState ν} {stream : Bytes}

theorem EndOf.create (id : String) (capacity : ℕ) : (create id capacity : DtachRingState ν).EndOf [] := ⟨0, holds_nil _⟩

section

variable (h : state.EndOf stream)
include h

theorem EndOf.available_le : state.available ≤ stream.length := by
  obtain ⟨base, h⟩ := h
  rw [h.length]
  exact (Nat.min_le_left _ _).trans (Nat.le_add_left _ _)

theorem EndOf.read {size : ℕ} (hsize : size ≤ state.available) :
    read state.ringBuffer state.ringHead size = stream.rtake size := by
  obtain ⟨base, h⟩ := h
  exact h.read (hsize.trans (Nat.min_le_left _ _)) (hsize.trans (Nat.min_le_right _ _))

theorem EndOf.contents : state.contents = stream.rtake state.available := h.read le_rfl

omit h in
theorem length_rtake {α : Type*} (l : List α) (n : ℕ) : (l.rtake n).length = min n l.length := by
  rw [rtake, length_drop]
  omega

theorem EndOf.relinearize {target keep : ℕ} (hpos : 0 < target) (hkeep : keep ≤ state.available) :
    (state.relinearize target keep hpos).EndOf stream := by
  have hle : keep ≤ stream.length := hkeep.trans h.available_le
  have hlength : (stream.rtake keep).length = keep := by
    rw [length_rtake]
    omega
  refine ⟨stream.length - keep, ?_⟩
  show RingBuffer.Holds (RingBuffer.copyAt (replicate target 0) 0 (RingBuffer.read state.ringBuffer state.ringHead keep)) keep _ _
  rw [h.read hkeep, RingBuffer.copyAt, take_zero]
  have hlayout : RingBuffer.Holds (stream.rtake keep ++ (replicate target 0).drop (0 + (stream.rtake keep).length))
      (stream.rtake keep).length (stream.length - (stream.rtake keep).length) stream :=
    .layout (by rw [hlength]; rfl) (by rw [hlength]; exact hle)
  rwa [hlength] at hlayout ⊢

theorem EndOf.shrinkRing (capacity : ℕ) : (state.shrinkRing capacity).1.EndOf stream := by
  unfold DtachRingState.shrinkRing
  split_ifs
  · exact h
  · exact h.relinearize (Nat.le_max_left _ _) (Nat.min_le_left _ _)

theorem EndOf.expandRing (capacity : ℕ) : (state.expandRing capacity).1.EndOf stream := by
  unfold DtachRingState.expandRing
  split_ifs
  · exact h
  · exact h.relinearize (Nat.le_max_left _ _) le_rfl

theorem EndOf.copyInto (bytes : Bytes) : (state.copyInto bytes).EndOf (stream ++ bytes) := by
  obtain ⟨base, h⟩ := h
  unfold DtachRingState.copyInto
  by_cases hempty : bytes = []
  · rw [hempty, append_nil]
    exact ⟨base, h⟩
  · have hwrite := h.write state.capacity_pos bytes
    simp only [if_neg hempty]
    refine ⟨base, ?_⟩
    by_cases hlong : state.ringBuffer.length < bytes.length
    · simp only [if_pos hlong]
      exact hwrite
    · simp only [if_neg hlong]
      rwa [Nat.sub_eq_zero_of_le (Nat.le_of_not_lt hlong), drop_zero] at hwrite

omit h in
theorem EndOf.applySnapshot (h : state.EndOf []) (buf : Bytes) (lastByteAt : Option ν) :
    (state.applySnapshot buf lastByteAt).EndOf (buf.rtake state.ringCapacity) := by
  have hrtake : buf.drop (buf.length - min buf.length state.ringCapacity) = buf.rtake state.ringCapacity := by
    unfold rtake
    congr 1
    omega
  have hlength : (buf.rtake state.ringCapacity).length = min buf.length state.ringCapacity := by
    rw [length_rtake, Nat.min_comm]
  unfold DtachRingState.applySnapshot
  by_cases hsize : min buf.length state.ringCapacity = 0
  · have hnil : buf.rtake state.ringCapacity = [] := length_eq_zero_iff.1 (hlength.trans hsize)
    simp only [if_pos hsize, hnil]
    exact h
  · simp only [if_neg hsize, hrtake]
    refine ⟨0, ?_⟩
    show RingBuffer.Holds (copyAt state.ringBuffer 0 (buf.rtake state.ringCapacity)) (min buf.length state.ringCapacity) 0 _
    have hlayout : RingBuffer.Holds (buf.rtake state.ringCapacity ++ state.ringBuffer.drop (0 + (buf.rtake state.ringCapacity).length))
        (buf.rtake state.ringCapacity).length ((buf.rtake state.ringCapacity).length - (buf.rtake state.ringCapacity).length)
        (buf.rtake state.ringCapacity) := .layout (by rw [Nat.sub_self, drop_zero]) le_rfl
    rw [Nat.sub_self, hlength] at hlayout
    rwa [copyAt, take_zero, nil_append, hlength]

omit h in
theorem available_applySnapshot (h : state.ringHead = 0) (buf : Bytes) (lastByteAt : Option ν) :
    (state.applySnapshot buf lastByteAt).available = (buf.rtake state.ringCapacity).length := by
  have hle := length_le_copyAt state.ringBuffer 0 (buf.drop (buf.length - min buf.length state.ringCapacity))
  rw [length_rtake]
  unfold DtachRingState.applySnapshot
  by_cases hsize : min buf.length state.ringCapacity = 0
  · simp only [if_pos hsize]
    unfold available
    rw [h]
    omega
  · simp only [if_neg hsize]
    show min (min buf.length state.ringCapacity) (copyAt _ _ _).length = _
    have hcap : state.ringCapacity = state.ringBuffer.length := rfl
    omega

theorem EndOf.length_contents : state.contents.length = state.available := by
  rw [h.contents, length_rtake]
  exact Nat.min_eq_left h.available_le

end

variable [NatCast ν] [DecidableEq ν] (num : NumberText ν)

omit [DecidableEq ν] in
theorem snapshotHeader_fields (state : DtachRingState ν) (savedAt : Timestamp) :
    numberAt num (state.snapshotHeader num savedAt) "version" = some ((2 : ℕ) : ν) ∧
      numberAt num (state.snapshotHeader num savedAt) "size" = some (state.available : ν) ∧
        numberAt num (state.snapshotHeader num savedAt) "lastByteAt" = state.lastByteAt := by
  refine ⟨?_, ?_, ?_⟩
  · simp [numberAt, snapshotHeader, num.value_lit]
  · simp [numberAt, snapshotHeader, num.value_lit]
  · cases h : state.lastByteAt with
    | none => simp [numberAt, snapshotHeader, h, Json.asNum]
    | some t => simp [numberAt, snapshotHeader, h, num.value_lit]

theorem EndOf.readCombined_snapshot (h : state.EndOf stream) (savedAt : Timestamp) :
    readCombined num (state.snapshot num savedAt) = some (state.contents, state.lastByteAt) := by
  have hline : ∀ b ∈ Utf8.encode (state.snapshotHeader num savedAt).stringify, decide (b ≠ 0x0A) = true := by
    intro b hb
    simp only [decide_eq_true_eq]
    rintro rfl
    exact Utf8.newline_not_mem_encode (Json.newline_not_mem_stringify _) hb
  have hdrop : (state.snapshot num savedAt).dropWhile (fun b => b ≠ 0x0A) = 0x0A :: state.contents := by
    rw [snapshot, dropWhile_append_of_pos hline]
    rfl
  have htake : (state.snapshot num savedAt).takeWhile (fun b => b ≠ 0x0A) = Utf8.encode (state.snapshotHeader num savedAt).stringify := by
    rw [snapshot, takeWhile_append_of_pos hline, takeWhile_cons_of_neg (by simp), append_nil]
  obtain ⟨hversion, hsize, hlast⟩ := state.snapshotHeader_fields num savedAt
  unfold readCombined
  rw [hdrop, htake, Utf8.decode_encode]
  show checked num 2 (state.snapshotHeader num savedAt).stringify state.contents = _
  unfold checked
  rw [Json.parse_stringify, Option.bind_some, if_pos ⟨hversion, by rw [hsize, h.length_contents]⟩, hlast]

end Kookr.Adapters.DtachRingState

/-! What a capture returns is a window on the stream of the session: the bytes that were restored and all live
chunks. The log of a run says what the stream was at every point of it. -/

namespace Kookr.Adapters

open Kookr.Lib Kookr.Server

/-- The bytes that have been restored and all live chunks since. -/
def ingested (log : List StreamOutput) : Bytes :=
  log.foldl (fun stream out => match out with
    | .restored bytes _ => bytes
    | .announced bytes .live _ => stream ++ bytes
    | .announced _ .attachReplay _ => stream
    | .captured _ _ => stream) []

def StreamOutput.newEpoch : StreamOutput → Option String
  | .restored _ epoch => some epoch
  | .announced _ .attachReplay range => some range.epoch
  | _ => none

def StreamOutput.isRestored : StreamOutput → Bool
  | .restored _ _ => true
  | _ => false

def StreamOutput.isReplay : StreamOutput → Bool
  | .announced _ .attachReplay _ => true
  | _ => false

def StreamOutput.restoredBytes : StreamOutput → Option Bytes
  | .restored bytes _ => some bytes
  | _ => none

def currentEpoch (log : List StreamOutput) : Option String := lastOf StreamOutput.newEpoch log

/-- Nothing was restored when the session was attached last, and nothing has been replayed since. -/
def FromOrigin (log : List StreamOutput) : Prop :=
  lastOf StreamOutput.restoredBytes log = some [] ∧ ∀ out ∈ sinceLast StreamOutput.isRestored log, out.isReplay = false

/-- The bytes are at these positions of the stream, which they end. -/
structure WindowOf (log : List StreamOutput) (snapshot : StreamSnapshot) : Prop where
  stop : snapshot.stop = (ingested log).length
  start_nonneg : 0 ≤ snapshot.start
  length : snapshot.start + snapshot.bytes.length = snapshot.stop
  bytes : snapshot.bytes = (ingested log).drop snapshot.start.toNat
  epoch : currentEpoch log = some snapshot.epoch
  origin : snapshot.originComplete = true → snapshot.start = 0 ∧ FromOrigin log

/-- What is to hold of an output, after what came before it. -/
def OutputExact (log : List StreamOutput) : StreamOutput → Prop
  | .restored _ _ => True
  | .announced bytes .live range =>
    currentEpoch log = some range.epoch ∧ range.start = (ingested log).length ∧ range.stop = range.start + bytes.length
  | .announced _ .attachReplay range =>
    (∀ out ∈ log, out.newEpoch ≠ some range.epoch) ∧ range.start = (ingested log).length ∧ range.stop = (ingested log).length
  | .captured maxBytes none => maxBytes < 0
  | .captured _ (some snapshot) => WindowOf log snapshot

theorem ingested_concat (log : List StreamOutput) (out : StreamOutput) :
    ingested (log ++ [out]) = match out with
      | .restored bytes _ => bytes
      | .announced bytes .live _ => ingested log ++ bytes
      | .announced _ .attachReplay _ => ingested log
      | .captured _ _ => ingested log := by
  unfold ingested
  rw [List.foldl_append]
  rfl

theorem currentEpoch_concat (log : List StreamOutput) (out : StreamOutput) :
    currentEpoch (log ++ [out]) = out.newEpoch.or (currentEpoch log) := lastOf_concat _ _ _

/-- The session is at the end of the stream of the log. -/
structure InStep {ν : Type} (log : List StreamOutput) (sess : AttachedSession ν) : Prop where
  ring : sess.EndOf (ingested log)
  position : sess.sourcePosition = (ingested log).length
  epoch : currentEpoch log = some sess.sourceEpoch
  origin : sess.sourceOriginComplete = true → FromOrigin log

structure Windowed {ν : Type} (uuid : ℕ → String) (s : SessionStream ν) : Prop where
  outputs : Along OutputExact s.log
  drawn : ∀ out ∈ s.log, ∀ epoch, out.newEpoch = some epoch → ∃ n < s.epochs, epoch = uuid n
  session : ∀ sess, s.attached = some sess → InStep s.log sess

variable {ν : Type} {log : List StreamOutput} {sess sess' : AttachedSession ν} {uuid : ℕ → String} {s : SessionStream ν}

theorem fromOrigin_concat {out : StreamOutput} (h : FromOrigin log) (hrestored : out.isRestored = false) (hreplay : out.isReplay = false) :
    FromOrigin (log ++ [out]) := by
  have hnone : out.restoredBytes = none := by
    cases out <;> first | rfl | cases hrestored
  obtain ⟨hlast, hsince⟩ := h
  refine ⟨by rw [lastOf_concat, hnone, Option.none_or, hlast], fun x hx => ?_⟩
  rw [sinceLast_concat, if_neg (by rw [hrestored]; decide)] at hx
  rcases mem_concat_cases hx with hx | rfl
  · exact hsince x hx
  · exact hreplay

theorem Windowed.withSession (h : Windowed uuid s) (hsess : InStep s.log sess) (files : RingFiles) :
    Windowed uuid { s with attached := some sess, files } := by
  refine ⟨h.outputs, h.drawn, fun sess' heq => ?_⟩
  cases heq
  exact hsess

theorem Windowed.mapSession (h : Windowed uuid s) {change : AttachedSession ν → AttachedSession ν}
    (hchange : ∀ sess, InStep s.log sess → InStep s.log (change sess)) :
    Windowed uuid { s with attached := s.attached.map change } := by
  refine ⟨h.outputs, h.drawn, fun sess' heq => ?_⟩
  obtain ⟨sess, hattached, rfl⟩ := Option.map_eq_some_iff.1 heq
  exact hchange sess (h.session sess hattached)

section

variable (h : InStep log sess)
include h

theorem InStep.withRing {ring : DtachRingState ν} (hring : ring.EndOf (ingested log)) :
    InStep log (sess.withRing ring) := ⟨hring, h.position, h.epoch, h.origin⟩

theorem InStep.setGeometry (size : GridSize) : InStep log (sess.setGeometry size) := by
  unfold AttachedSession.setGeometry
  split_ifs
  · exact h
  · exact ⟨h.ring, h.position, h.epoch, h.origin⟩

theorem InStep.attachPtyInto (now : ℕ) (initialSize : Option GridSize) (suppress classify : Bool) :
    InStep log (sess.attachPtyInto now initialSize suppress classify) := by
  obtain ⟨hring, hposition, hepoch, horigin⟩ := h.setGeometry ((initialSize.or sess.currentSize).getD ⟨80, 24⟩)
  exact ⟨hring, hposition, hepoch, horigin⟩

theorem InStep.tryExpandRing (room : Bool) : InStep log (sess.tryExpandRing room) := by
  unfold AttachedSession.tryExpandRing
  split_ifs
  · exact h
  · exact h.withRing (h.ring.expandRing ringBufferBytes)
  · exact h

omit h in
theorem tryExpandRing_stream (sess : AttachedSession ν) (room : Bool) :
    (sess.tryExpandRing room).sourcePosition = sess.sourcePosition ∧ (sess.tryExpandRing room).sourceEpoch = sess.sourceEpoch ∧
      (sess.tryExpandRing room).sourceOriginComplete = sess.sourceOriginComplete := by
  unfold AttachedSession.tryExpandRing
  split_ifs <;> exact ⟨rfl, rfl, rfl⟩

theorem InStep.captureBytes {maxBytes : ℤ} {bytes : Bytes} (hbytes : sess.captureBytes maxBytes = some bytes) :
    ∃ size ≤ (ingested log).length, bytes = (ingested log).rtake size := by
  unfold AttachedSession.captureBytes at hbytes
  simp only [Option.ite_none_left_eq_some, Option.some.injEq] at hbytes
  obtain ⟨hpos, rfl⟩ := hbytes
  have hsize : (min (min maxBytes sess.ringCapacity) sess.available).toNat ≤ sess.available := by omega
  exact ⟨_, hsize.trans h.ring.available_le, h.ring.read hsize⟩

theorem InStep.captureStreamSnapshot {maxBytes : ℤ} {snapshot : StreamSnapshot}
    (hsnapshot : sess.captureStreamSnapshot maxBytes = some snapshot) : WindowOf log snapshot := by
  obtain ⟨bytes, hbytes, rfl⟩ := Option.map_eq_some_iff.1 hsnapshot
  obtain ⟨size, hsize, rfl⟩ := h.captureBytes hbytes
  have hlength : ((ingested log).rtake size).length = size := by
    rw [DtachRingState.length_rtake]
    omega
  have hstart : (sess.sourcePosition : ℤ) - ((ingested log).rtake size).length = ((ingested log).length - size : ℕ) := by
    rw [h.position]
    omega
  refine ⟨?_, ?_, ?_, ?_, h.epoch, ?_⟩
  · show (sess.sourcePosition : ℤ) = _
    rw [h.position]
  · show 0 ≤ (sess.sourcePosition : ℤ) - ((ingested log).rtake size).length
    omega
  · show (sess.sourcePosition : ℤ) - ((ingested log).rtake size).length + ((ingested log).rtake size).length = sess.sourcePosition
    omega
  · rw [hstart]
    rfl
  · intro hcomplete
    obtain ⟨horigin, hzero⟩ := Bool.and_eq_true_iff.1 hcomplete
    exact ⟨of_decide_eq_true hzero, h.origin horigin⟩

end

theorem captureStreamSnapshot_eq_none {maxBytes : ℤ} (h : sess.captureStreamSnapshot maxBytes = none) : maxBytes < 0 := by
  have hnone := Option.map_eq_none_iff.1 h
  unfold AttachedSession.captureBytes at hnone
  simp only [ite_eq_left_iff, reduceCtorEq, imp_false, not_not] at hnone
  omega

variable [NatCast ν] [DecidableEq ν] {num : NumberText ν}

theorem load_endOf (num : NumberText ν) (id : String) (capacity : ℕ) (files : RingFiles) :
    let ring : DtachRingState ν := (DtachRingState.create id capacity).load num files
    let saved := ((DtachRingState.savedSnapshot num files).map Prod.fst).getD []
    ring.EndOf (saved.rtake (max 1 capacity)) ∧ ring.available = (saved.rtake (max 1 capacity)).length := by
  have hcapacity : (DtachRingState.create id capacity : DtachRingState ν).ringCapacity = max 1 capacity := List.length_replicate
  have hfresh : (DtachRingState.create id capacity : DtachRingState ν).EndOf [] := .create id capacity
  unfold DtachRingState.load
  cases DtachRingState.savedSnapshot num files with
  | none =>
    refine ⟨?_, ?_⟩
    · show DtachRingState.EndOf _ (List.rtake [] _)
      rw [List.rtake_nil]
      exact hfresh
    · show min 0 _ = (List.rtake [] _).length
      rw [List.rtake_nil]
      rfl
  | some saved =>
    obtain ⟨buf, lastByteAt⟩ := saved
    have hring := hfresh.applySnapshot buf lastByteAt
    have havailable := DtachRingState.available_applySnapshot (rfl : (DtachRingState.create id capacity : DtachRingState ν).ringHead = 0)
      buf lastByteAt
    rw [hcapacity] at hring havailable
    exact ⟨hring, havailable⟩

theorem Windowed.createAttachedState (num : NumberText ν) (h : Windowed uuid s) (originComplete : Bool) :
    Windowed uuid (s.createAttachedState num uuid originComplete).1 ∧
      (s.createAttachedState num uuid originComplete).1.attached = some (s.createAttachedState num uuid originComplete).2 := by
  unfold SessionStream.createAttachedState
  cases hattached : s.attached with
  | some sess => exact ⟨h, hattached⟩
  | none =>
    refine ⟨⟨h.outputs.concat trivial, ?_, ?_⟩, rfl⟩
    · intro out hout epoch hepoch
      rcases mem_concat_cases hout with hout | rfl
      · obtain ⟨n, hn, rfl⟩ := h.drawn out hout epoch hepoch
        exact ⟨n, hn.trans (Nat.lt_succ_self _), rfl⟩
      · cases hepoch
        exact ⟨s.epochs, Nat.lt_succ_self _, rfl⟩
    · intro sess heq
      cases heq
      obtain ⟨hring, havailable⟩ := load_endOf num s.id ringBufferBytes s.files
      rw [show max 1 ringBufferBytes = ringBufferBytes by decide] at hring havailable
      refine ⟨?_, ?_, ?_, fun horigin => ?_⟩
      · rw [ingested_concat]
        exact hring
      · rw [ingested_concat]
        exact havailable
      · rw [currentEpoch_concat]
        rfl
      · rw [havailable] at horigin
        split_ifs at horigin with hpos
        refine ⟨?_, fun out hout => ?_⟩
        · rw [lastOf_concat]
          exact congrArg some (List.length_eq_zero_iff.1 (Nat.eq_zero_of_not_pos hpos))
        · rw [sinceLast_concat] at hout
          exact absurd hout List.not_mem_nil

theorem Windowed.ensureReadable (num : NumberText ν) (h : Windowed uuid s) :
    Windowed uuid (s.ensureReadable num uuid).1 ∧ (s.ensureReadable num uuid).1.attached = some (s.ensureReadable num uuid).2 := by
  unfold SessionStream.ensureReadable
  cases hattached : s.attached with
  | some sess => exact ⟨h, hattached⟩
  | none =>
    obtain ⟨hcreated, hsess⟩ := h.createAttachedState num false
    refine ⟨hcreated.withSession ((hcreated.session _ hsess).attachPtyInto 0 none false false) _, rfl⟩

omit [DecidableEq ν] in
theorem InStep.copyIntoRing (h : InStep log sess) (now : ℕ) {bytes : Bytes} (hne : bytes ≠ []) (room : Bool) :
    (sess.copyIntoRing now bytes room).EndOf (ingested log ++ bytes) ∧
      (sess.copyIntoRing now bytes room).sourcePosition = (ingested log ++ bytes).length ∧
        (sess.copyIntoRing now bytes room).sourceEpoch = sess.sourceEpoch ∧
          (sess.copyIntoRing now bytes room).sourceOriginComplete = sess.sourceOriginComplete := by
  obtain ⟨hposition, hepoch, horigin⟩ := tryExpandRing_stream sess room
  have hring := (h.tryExpandRing room).ring
  unfold AttachedSession.copyIntoRing
  simp only [if_neg hne]
  refine ⟨?_, ?_, hepoch, horigin⟩
  · have htimed : ({ (sess.tryExpandRing room).toDtachRingState with lastByteAt := some (now : ν) } : DtachRingState ν).EndOf (ingested log) :=
      hring
    exact htimed.copyInto bytes
  · rw [hposition, h.position, List.length_append]

omit [DecidableEq ν] in
theorem Windowed.onData (huuid : Function.Injective uuid) (h : Windowed uuid s) (hsess : InStep s.log sess) (now : ℕ) (bytes : Bytes)
    (room : Bool) : Windowed uuid (s.onData uuid sess now bytes room) := by
  unfold SessionStream.onData
  by_cases hempty : bytes = []
  · simp only [if_pos hempty]
    exact h
  simp only [if_neg hempty]
  obtain ⟨hring, hposition, hepoch, horigin⟩ := hsess
  by_cases hreplay : (sess.attachReplayPending || decide (now < sess.attachReplayUntil)) = true
  · -- a replay is no news of the stream, under an epoch that was never drawn before
    simp only [if_pos hreplay]
    refine ⟨h.outputs.concat ⟨?_, ?_, ?_⟩, ?_, ?_⟩
    · intro out hout heq
      obtain ⟨n, hn, heq⟩ := h.drawn out hout _ heq
      exact absurd (huuid heq) (by omega)
    · show (sess.sourcePosition : ℤ) = _
      rw [hposition]
    · show (sess.sourcePosition : ℤ) = _
      rw [hposition]
    · intro out hout epoch hepoch
      rcases mem_concat_cases hout with hout | rfl
      · obtain ⟨n, hn, rfl⟩ := h.drawn out hout epoch hepoch
        exact ⟨n, hn.trans (Nat.lt_succ_self _), rfl⟩
      · cases hepoch
        exact ⟨s.epochs, Nat.lt_succ_self _, rfl⟩
    · intro sess' heq
      cases heq
      refine ⟨?_, ?_, ?_, nofun⟩
      · rw [ingested_concat]
        exact hring
      · rw [ingested_concat]
        exact hposition
      · rw [currentEpoch_concat]
        rfl
  · simp only [if_neg hreplay]
    have hsess : InStep s.log { sess with attachReplayPending := false } := ⟨hring, hposition, hepoch, horigin⟩
    obtain ⟨hring', hposition', hepoch', horigin'⟩ := hsess.copyIntoRing now hempty room
    refine ⟨h.outputs.concat ⟨?_, ?_, ?_⟩, ?_, ?_⟩
    · show currentEpoch s.log = some (AttachedSession.sourceEpoch _)
      rw [hepoch']
      exact hepoch
    · show (sess.sourcePosition : ℤ) = _
      rw [hposition]
    · show (AttachedSession.sourcePosition _ : ℤ) = (sess.sourcePosition : ℤ) + bytes.length
      rw [hposition', hposition, List.length_append]
      rfl
    · intro out hout epoch hnew
      rcases mem_concat_cases hout with hout | rfl
      · exact h.drawn out hout epoch hnew
      · cases hnew
    · intro sess' heq
      cases heq
      refine ⟨?_, ?_, ?_, fun hcomplete => ?_⟩
      · rw [ingested_concat]
        exact hring'
      · rw [ingested_concat]
        exact hposition'
      · rw [currentEpoch_concat, hepoch']
        exact hepoch
      · rw [horigin'] at hcomplete
        exact fromOrigin_concat (horigin hcomplete) rfl rfl

omit [NatCast ν] [DecidableEq ν] in
theorem Windowed.captured (h : Windowed uuid s) (hattached : s.attached = some sess) (maxBytes : ℤ) :
    Windowed uuid { s with log := s.log ++ [.captured maxBytes (sess.captureStreamSnapshot maxBytes)] } := by
  have hsess := h.session sess hattached
  refine ⟨h.outputs.concat ?_, fun out hout epoch hepoch => ?_, fun sess' heq => ?_⟩
  · cases hresult : sess.captureStreamSnapshot maxBytes with
    | none => exact captureStreamSnapshot_eq_none hresult
    | some snapshot => exact hsess.captureStreamSnapshot hresult
  · rcases mem_concat_cases hout with hout | rfl
    · exact h.drawn out hout epoch hepoch
    · cases hepoch
  · obtain ⟨hring, hposition, hepoch, horigin⟩ := h.session sess' heq
    refine ⟨?_, ?_, ?_, fun hcomplete => fromOrigin_concat (horigin hcomplete) rfl rfl⟩
    · rw [ingested_concat]
      exact hring
    · rw [ingested_concat]
      exact hposition
    · rw [currentEpoch_concat]
      exact hepoch

theorem Windowed.step (huuid : Function.Injective uuid) (h : Windowed uuid s) (event : StreamEvent) :
    Windowed uuid (s.step num uuid event) := by
  cases event with
  | files files => exact ⟨h.outputs, h.drawn, h.session⟩
  | createAttachedState originComplete => exact (h.createAttachedState num originComplete).1
  | attachPtyInto now initialSize suppress classify =>
    exact h.mapSession fun _ hsess => hsess.attachPtyInto now initialSize suppress classify
  | data now bytes room =>
    unfold SessionStream.step
    cases hattached : s.attached with
    | none => exact h
    | some sess => exact h.onData huuid (h.session sess hattached) now bytes room
  | setGeometry size => exact h.mapSession fun _ hsess => hsess.setGeometry size
  | shrinkRing capacity => exact h.mapSession fun _ hsess => hsess.withRing (hsess.ring.shrinkRing capacity)
  | expandRing capacity => exact h.mapSession fun _ hsess => hsess.withRing (hsess.ring.expandRing capacity)
  | persist savedAt =>
    unfold SessionStream.step
    cases hattached : s.attached with
    | none => exact h
    | some sess =>
      have hsess := h.session sess hattached
      have hkept : InStep s.log (sess.withRing (sess.persist num savedAt).1) := hsess.withRing hsess.ring
      exact h.withSession hkept _
  | captureStreamSnapshot maxBytes =>
    obtain ⟨hread, hattached⟩ := h.ensureReadable num
    exact hread.captured hattached maxBytes
  | disposeAttach => exact ⟨h.outputs, h.drawn, fun _ hsess => absurd hsess.symm (Option.some_ne_none _)⟩

theorem Windowed.run (huuid : Function.Injective uuid) (h : Windowed uuid s) (events : List StreamEvent) :
    Windowed uuid (s.run num uuid events) := by
  induction events generalizing s with
  | nil => exact h
  | cons event events ih => exact ih (h.step huuid event)

omit [NatCast ν] [DecidableEq ν] in
theorem windowed_start (id : String) (files : RingFiles) : Windowed uuid (SessionStream.start id files : SessionStream ν) :=
  ⟨along_nil, fun _ hout => absurd hout List.not_mem_nil, nofun⟩

theorem string_injective : Function.Injective fun n : ℕ => String.ofList (List.replicate n 'x') := by
  intro n m heq
  have heq := congrArg (fun t => t.toList.length) heq
  simpa using heq

end Kookr.Adapters
