import Kookr.Sanity.Realtime.ViewRows
import Kookr.Lib.Exec

/-! Re-basing in the middle of the stream. The snapshot of a connect or of a resync reply
is of the state as it is then, and the next delta is the difference of the flush before it
and the flush after it. The dashboard has the rows of that flush after the delta unless a
row was different between two flushes that agree on it. -/

namespace Kookr.Realtime

open Kookr.Lib StreamSystem List Option

/-- The rows have distinct keys; and where a flush leaves a row out of its delta, the last
frame to the dashboard was made of a state with that row. -/
def StreamSystem.Based (s : StreamSystem) : StreamEvent → Prop
  | .change live => DistinctKeys live.agents
  | .flush => ∀ previous, s.server.lastBroadcastSnapshot = some previous → s.socket.isSome = true →
      ∀ key, rowOf s.server.live.agents key = rowOf previous.agents key →
        rowOf s.sent key = rowOf s.server.live.agents key
  | _ => True

/-- The dashboard as a machine over its frames. -/
def Dashboard.step (d : Dashboard) (frame : Frame) : Option Dashboard := some (d.receive frame)

/-- The dashboard has exactly the rows of a flush, and its store shows them. -/
structure AtFlush (flushes : List SnapshotMessage) (n : ℕ) (d : Dashboard) : Prop where
  flush : ∃ S, flushes[n - 1]? = some S ∧ S.seq = some n ∧ d.seen = rowOf S.agents
  shows : Shows d.store.agents d.seen

/-- A delta is in order when it comes, and leads to its flush. -/
def InOrder (flushes : List SnapshotMessage) (d : Dashboard) : Frame → Prop
  | .snapshot _ => True
  | .delta δ => d.tracker.evaluateDelta ⟨δ.epoch, δ.seq⟩ = .apply ∧ AtFlush flushes δ.seq (d.receive (.delta δ))

/-- The dashboard has caught up with the frames sent to it. -/
structure CaughtUp (position : StreamPosition) (sent : List AgentState) (d : Dashboard) : Prop where
  position : d.tracker.position = some position
  seen : d.seen = rowOf sent
  shows : Shows d.store.agents d.seen

/-- The frames in flight are all in order, and catch the dashboard up. -/
structure Feed (s : StreamSystem) (frames : List Frame) : Prop where
  inOrder : StepsMeet Dashboard.step (InOrder s.flushes) s.dashboard frames
  caughtUp : ∀ d, exec Dashboard.step s.dashboard frames = some d → CaughtUp s.server.sequencer.current s.sent d

structure StreamSystem.Inv (s : StreamSystem) : Prop where
  numbered : s.flushes.length = s.server.sequencer.seqValue
  last : s.server.lastBroadcastSnapshot = s.flushes.getLast?
  distinct : ∀ S ∈ s.flushes, DistinctKeys S.agents
  live : DistinctKeys s.server.live.agents
  feed : ∀ frames, s.socket = some frames → Feed s frames

variable {d d' : Dashboard}

theorem Dashboard.receive_of_apply {δ : DeltaMessage} (h : d.tracker.evaluateDelta ⟨δ.epoch, δ.seq⟩ = .apply) :
    d.receive (.delta δ) = ⟨.advance ⟨δ.epoch, δ.seq⟩, handleDelta d.store δ,
      View.applyRows d.seen (δ.agents.getD ⟨[], []⟩)⟩ := by
  simp only [receive, h]

theorem InOrder.mono {flushes : List SnapshotMessage} (S : SnapshotMessage) {frame : Frame}
    (h : InOrder flushes d frame) : InOrder (flushes ++ [S]) d frame := by
  cases frame with
  | snapshot msg => trivial
  | delta δ =>
    obtain ⟨hverdict, ⟨S', hS', hseq, hseen⟩, hshows⟩ := h
    refine ⟨hverdict, ⟨S', ?_, hseq, hseen⟩, hshows⟩
    rw [List.getElem?_append_left (List.getElem?_eq_some_iff.1 hS').1]
    exact hS'

theorem caughtUp_snapshot (live : SnapshotMessage) (hlive : DistinctKeys live.agents) (position : StreamPosition)
    (d : Dashboard) : CaughtUp position live.agents (d.receive (.snapshot (stampSnapshotPosition live position))) :=
  ⟨rfl, rfl, shows_handleSnapshot d.store hlive⟩

theorem delta_position {server : RealtimeServer} {previous : SnapshotMessage} {δ : DeltaMessage}
    (hδ : buildDeltaFromSnapshots previous server.flushSnapshot = some δ) :
    (⟨δ.epoch, δ.seq⟩ : StreamPosition) = server.sequencer.advance.1 := by
  obtain rfl := some.inj hδ
  rfl

theorem caughtUp_delta {server : RealtimeServer} {sent : List AgentState} {previous : SnapshotMessage}
    {δ : DeltaMessage} (hcaught : CaughtUp server.sequencer.current sent d)
    (hprev : DistinctKeys previous.agents) (hlive : DistinctKeys server.live.agents)
    (hδ : buildDeltaFromSnapshots previous server.flushSnapshot = some δ)
    (hbased : ∀ key, rowOf server.live.agents key = rowOf previous.agents key → rowOf sent key = rowOf server.live.agents key) :
    d.tracker.evaluateDelta ⟨δ.epoch, δ.seq⟩ = .apply ∧
      CaughtUp server.sequencer.advance.1 server.live.agents (d.receive (.delta δ)) := by
  have hbuilt := built_of_eq hδ
  have hpos := delta_position hδ
  have hverdict : d.tracker.evaluateDelta ⟨δ.epoch, δ.seq⟩ = .apply := by
    rw [hpos]
    simp [DeltaSequenceTracker.evaluateDelta, hcaught.position, SnapshotStreamSequencer.current,
      SnapshotStreamSequencer.advance]
  refine ⟨hverdict, ?_⟩
  have hrows : View.applyRows d.seen (diffProjectedAgents previous.agents server.live.agents) =
      rowOf server.live.agents := by
    rw [hcaught.seen]
    exact (applyRows_diff_eq_iff hprev hlive _).2 hbased
  rw [Dashboard.receive_of_apply hverdict, hbuilt.agents]
  refine ⟨congrArg some hpos, hrows, ?_⟩
  have hshows := hcaught.shows.delta (d := diffProjectedAgents previous.agents server.live.agents)
    (upserts_nodup hlive)
  unfold handleDelta
  rw [hbuilt.agents]
  exact hshows

theorem Feed.send {s s' : StreamSystem} {frames : List Frame} {frame : Frame} (h : Feed s frames)
    (hdash : s'.dashboard = s.dashboard) (hkept : ∀ d f, InOrder s.flushes d f → InOrder s'.flushes d f)
    (hsent : ∀ d, CaughtUp s.server.sequencer.current s.sent d → InOrder s'.flushes d frame ∧
      CaughtUp s'.server.sequencer.current s'.sent (d.receive frame)) : Feed s' (frames ++ [frame]) := by
  constructor
  · rw [hdash]
    refine (h.inOrder.mono hkept).concat ?_
    intro d hd
    exact (hsent d (h.caughtUp d hd)).1
  · intro d hd
    rw [hdash] at hd
    obtain ⟨d₁, hd₁, hlast⟩ := exec_append_eq_some.1 hd
    cases hlast
    exact (hsent d₁ (h.caughtUp d₁ hd₁)).2

theorem feed_connect {s : StreamSystem} (hlive : DistinctKeys s.server.live.agents) :
    Feed { s with
      socket := some [.snapshot s.server.buildConnectSnapshot]
      sent := s.server.live.agents } [.snapshot s.server.buildConnectSnapshot] := by
  refine ⟨⟨trivial, fun _ _ => trivial⟩, ?_⟩
  intro d hd
  cases hd
  exact caughtUp_snapshot s.server.live hlive _ s.dashboard

namespace StreamSystem

theorem inv_initial (epoch : String) {live : SnapshotMessage} (dashboard : Dashboard)
    (hlive : DistinctKeys live.agents) : Inv (initial epoch live dashboard) := by
  refine ⟨rfl, rfl, ?_, hlive, ?_⟩
  · intro S hS
    cases hS
  · intro frames hframes
    cases hframes

variable {s s' : StreamSystem}

theorem step_deliver (h : s.step .deliver = some s') : ∃ frame frames, s.socket = some (frame :: frames) ∧
      s' = { s with socket := some frames, dashboard := s.dashboard.receive frame } := by
  simp only [step] at h
  split at h
  · rename_i frame frames hsocket
    exact ⟨frame, frames, hsocket, (some.inj h).symm⟩
  · cases h

/-- The first flush sends a snapshot, every other one the delta from the flush before. -/
theorem broadcastToAll_cases {server server' : RealtimeServer} {frame : Frame}
    (h : server.broadcastToAll = some (frame, server')) :
    server' = { server with
      sequencer := server.sequencer.advance.2, lastBroadcastSnapshot := some server.flushSnapshot } ∧
    (frame = .snapshot server.flushSnapshot ∨ ∃ previous δ, server.lastBroadcastSnapshot = some previous ∧
      buildDeltaFromSnapshots previous server.flushSnapshot = some δ ∧ frame = .delta δ) := by
  unfold RealtimeServer.broadcastToAll at h
  split at h
  · rename_i previous hprev
    obtain ⟨δ, hδ, h⟩ := bind_eq_some_iff.1 h
    cases h
    exact ⟨rfl, .inr ⟨previous, δ, hprev, hδ, rfl⟩⟩
  · cases h
    exact ⟨rfl, .inl rfl⟩

theorem Inv.flush (h : s.Inv) (hok : s.Based .flush) (hstep : s.step .flush = some s') : s'.Inv := by
  obtain ⟨⟨frame, server⟩, hb, hs⟩ := bind_eq_some_iff.1 hstep
  obtain ⟨rfl, hframe⟩ := broadcastToAll_cases hb
  cases hs
  refine ⟨?_, ?_, ?_, h.live, ?_⟩
  · simp [SnapshotStreamSequencer.advance, h.numbered]
  · rw [getLast?_append]
    rfl
  · intro S hS
    rcases mem_append.1 hS with hS | hS
    · exact h.distinct S hS
    · obtain rfl := mem_singleton.1 hS
      exact h.live
  · intro frames' hframes'
    obtain ⟨frames, hframes, rfl⟩ := map_eq_some_iff.1 hframes'
    refine (h.feed frames hframes).send rfl (fun _ _ hin => hin.mono _) ?_
    intro d hcaught
    rcases hframe with rfl | ⟨previous, δ, hprev, hδ, rfl⟩
    · exact ⟨trivial, caughtUp_snapshot s.server.live h.live s.server.sequencer.advance.1 d⟩
    · have hmem : previous ∈ s.flushes := mem_of_getLast? (h.last ▸ hprev)
      have hbased := hok previous hprev (by rw [hframes]; rfl)
      obtain ⟨hverdict, hnext⟩ := caughtUp_delta hcaught (h.distinct previous hmem) h.live hδ hbased
      have hseq : δ.seq = s.flushes.length + 1 := by
        rw [h.numbered]
        exact congrArg StreamPosition.seq (delta_position hδ)
      refine ⟨⟨hverdict, ⟨s.server.flushSnapshot, ?_, ?_, hnext.seen⟩, hnext.shows⟩, hnext⟩
      · rw [hseq]
        exact getElem?_concat_length
      · rw [hseq, h.numbered]
        rfl

theorem Inv.step {e : StreamEvent} (h : s.Inv) (hok : s.Based e) (hstep : s.step e = some s') : s'.Inv := by
  cases e with
  | change live =>
    cases hstep
    exact ⟨h.numbered, h.last, h.distinct, hok, fun frames hframes =>
      ⟨(h.feed frames hframes).inOrder, (h.feed frames hframes).caughtUp⟩⟩
  | flush => exact h.flush hok hstep
  | connect =>
    cases hstep
    refine ⟨h.numbered, h.last, h.distinct, h.live, ?_⟩
    intro frames hframes
    cases hframes
    exact feed_connect h.live
  | disconnect =>
    cases hstep
    exact ⟨h.numbered, h.last, h.distinct, h.live, nofun⟩
  | requestResync =>
    obtain ⟨frames, hsocket, hs⟩ := bind_eq_some_iff.1 hstep
    cases hs
    refine ⟨h.numbered, h.last, h.distinct, h.live, ?_⟩
    intro frames' hframes'
    cases hframes'
    refine (h.feed frames hsocket).send rfl (fun _ _ hin => hin) ?_
    intro d _
    exact ⟨trivial, caughtUp_snapshot s.server.live h.live _ d⟩
  | deliver =>
    obtain ⟨frame, frames, hsocket, rfl⟩ := step_deliver hstep
    obtain ⟨hinOrder, hcaught⟩ := h.feed _ hsocket
    refine ⟨h.numbered, h.last, h.distinct, h.live, ?_⟩
    intro frames' hframes'
    cases hframes'
    exact ⟨hinOrder.2 _ rfl, hcaught⟩

end StreamSystem

/-- In every run whose flushes find the rows they leave out of their delta in the state
the last frame was made of, every delta is applied when it comes and leaves the dashboard
with the rows of its flush. -/
theorem delta_after_rebase_exact (epoch : String) {live : SnapshotMessage} (dashboard : Dashboard)
    (hlive : DistinctKeys live.agents) {events : List StreamEvent} {s : StreamSystem}
    (hmeet : StepsMeet step StreamSystem.Based (.initial epoch live dashboard) events)
    (hrun : exec step (.initial epoch live dashboard) events = some s)
    {δ : DeltaMessage} {frames : List Frame} (hnext : s.socket = some (.delta δ :: frames)) :
    ∃ s' S, s.step .deliver = some s' ∧ s.dashboard.tracker.evaluateDelta ⟨δ.epoch, δ.seq⟩ = .apply ∧
      s'.flushes[δ.seq - 1]? = some S ∧ S.seq = some δ.seq ∧
      s'.dashboard.seen = rowOf S.agents ∧ Shows s'.dashboard.store.agents (rowOf S.agents) := by
  have hinv : s.Inv :=
    exec_invariant (fun _ _ _ hi hok h => hi.step hok h) (inv_initial epoch dashboard hlive) hmeet hrun
  obtain ⟨⟨hverdict, ⟨S, hS, hseq, hseen⟩, hshows⟩, -⟩ := (hinv.feed _ hnext).inOrder
  refine ⟨{ s with socket := some frames, dashboard := s.dashboard.receive (.delta δ) }, S, ?_, hverdict, hS, hseq,
    hseen, ?_⟩
  · simp only [step, hnext]
  · rw [← hseen]
    exact hshows

def Dashboard.opened : Dashboard := ⟨⟨none⟩, .initial, fun _ => none⟩

/-- A task starts and another one ends around a connect. -/
def connectBetweenFlushes : List StreamEvent :=
  [.change (plainSnapshot 0 [workingRow "a" (some "t") "ending"]), .flush,
   .change (plainSnapshot 0 [workingRow "a" (some "t") "ending", workingRow "b" (some "u") "starting"]), .connect,
   .change (plainSnapshot 0 [workingRow "b" (some "u") "starting"]), .flush, .deliver]

theorem delta_after_rebase_exact_connectBetweenFlushes : ∃ s s' δ frames S,
    exec step (.initial "2026-01-01T00:00:00.000Z" (plainSnapshot 0 []) .opened) connectBetweenFlushes = some s ∧
    s.socket = some (.delta δ :: frames) ∧ s.step .deliver = some s' ∧
    s'.flushes[δ.seq - 1]? = some S ∧ s'.dashboard.seen = rowOf S.agents := by
  have hone : ∀ a, DistinctKeys [a] := fun a => nodup_singleton _
  have htwo : DistinctKeys [workingRow "a" (some "t") "ending", workingRow "b" (some "u") "starting"] :=
    (by decide +kernel : ["a:t", "b:u"].Nodup)
  have hmeet : StepsMeet step StreamSystem.Based
      (.initial "2026-01-01T00:00:00.000Z" (plainSnapshot 0 []) .opened) connectBetweenFlushes := by
    refine ⟨hone _, ?_⟩
    rintro _ ⟨⟩
    refine ⟨?_, ?_⟩
    · intro previous hprev
      cases hprev
    rintro _ ⟨⟩
    refine ⟨htwo, ?_⟩
    rintro _ ⟨⟩
    refine ⟨trivial, ?_⟩
    rintro _ ⟨⟩
    refine ⟨hone _, ?_⟩
    rintro _ ⟨⟩
    refine ⟨?_, fun _ _ => ⟨trivial, fun _ _ => trivial⟩⟩
    rintro _ ⟨⟩ - key hkey
    -- neither of the two keys has the same row at both flushes
    by_cases ha : key = "a:t"
    · subst ha
      exact absurd (congrArg isSome hkey) (by decide +kernel)
    · by_cases hb : key = "b:u"
      · subst hb
        exact absurd (congrArg isSome hkey) (by decide +kernel)
      · have hnone : rowOf [workingRow "a" (some "t") "ending", workingRow "b" (some "u") "starting"] key = none :=
          rowOf_eq_none_iff.2 (by simp [agentStreamKey, workingRow]; exact ⟨ha, hb⟩)
        have hnone' : rowOf [workingRow "b" (some "u") "starting"] key = none :=
          rowOf_eq_none_iff.2 (by simp [agentStreamKey, workingRow]; exact hb)
        exact hnone.trans hnone'.symm
  have hempty : DistinctKeys (plainSnapshot 0 []).agents := nodup_nil
  obtain ⟨s', S, hstep, -, hS, -, hseen, -⟩ :=
    delta_after_rebase_exact "2026-01-01T00:00:00.000Z" .opened hempty hmeet rfl rfl
  exact ⟨_, s', _, _, S, rfl, rfl, hstep, hS, hseen⟩

/-- A task is there when the dashboard connects, and at neither flush. -/
def rowBetweenFlushes : List StreamEvent :=
  [.flush, .change (plainSnapshot 0 [workingRow "a" (some "t") "brief"]), .connect,
   .change (plainSnapshot 0 []), .flush, .deliver, .deliver]

theorem row_of_no_flush_kept : ∃ s S, exec step (.initial "2026-01-01T00:00:00.000Z" (plainSnapshot 0 []) .opened)
      rowBetweenFlushes = some s ∧ s.dashboard.tracker.position = some ⟨"2026-01-01T00:00:00.000Z", 2⟩ ∧
    s.flushes[1]? = some S ∧ S.seq = some 2 ∧ rowOf S.agents "a:t" = none ∧
    (s.dashboard.seen "a:t").isSome = true ∧ (rowOf s.dashboard.store.agents "a:t").isSome = true := by
  refine ⟨_, _, rfl, by decide +kernel, rfl, rfl, rfl, by decide +kernel, by decide +kernel⟩

end Kookr.Realtime
