import Kookr.Spec.Realtime.ViewerBroadcaster
import Kookr.Sanity.Realtime.ViewRows

/-! Backpressure. Every frame goes through one `send`, which keeps two latches for each
socket. What they mean is said over the log of all sends: a socket owes a snapshot from
a skipped frame on until one is sent, and its streak is the number of snapshots it has
skipped since the last frame it was sent. -/

namespace Kookr.Realtime

open Kookr.Lib Broadcaster List Function

def owesStep (ws : ℕ) (owes : Bool) (r : SendRecord) : Bool :=
  if r.ws = ws then
    match r.result with
    | .softSkipped _ => true
    | .sent => if r.payloadType = .snapshot then false else owes
    | _ => owes
  else owes

/-- The socket skipped a frame and was sent no snapshot since. -/
def owes (ws : ℕ) (log : List SendRecord) : Bool := log.foldl (owesStep ws) false

def streakStep (ws : ℕ) (streak : ℕ) (r : SendRecord) : ℕ :=
  if r.ws = ws then
    match r.result with
    | .softSkipped _ => if r.payloadType = .snapshot then streak + 1 else streak
    | .sent => 0
    | _ => streak
  else streak

/-- The snapshots the socket skipped since the last frame it was sent. -/
def streak (ws : ℕ) (log : List SendRecord) : ℕ := log.foldl (streakStep ws) 0

/-- No delta is sent between a skipped frame and the next snapshot. -/
def DeltaAfterSnapshot (log : List SendRecord) : Prop :=
  ∀ before skip between r after disconnected, log = before ++ skip :: (between ++ r :: after) →
    skip.ws = r.ws → skip.result = .softSkipped disconnected → r.payloadType = .delta → r.result = .sent →
    ∃ x ∈ between, x.ws = r.ws ∧ x.payloadType = .snapshot ∧ x.result = .sent

/-- A socket is disconnected with the `n`-th snapshot it skips in a row, and only then. -/
def DisconnectsAfter (n : ℕ) (log : List SendRecord) : Prop :=
  ∀ before r after, log = before ++ r :: after →
    (r.result = .softSkipped true ↔
      r.payloadType = .snapshot ∧ (∃ disconnected, r.result = .softSkipped disconnected) ∧
        streak r.ws (before ++ [r]) = n)

theorem owes_concat (ws : ℕ) (log : List SendRecord) (r : SendRecord) : owes ws (log ++ [r]) = owesStep ws (owes ws log) r := by
  unfold owes
  rw [foldl_append]
  rfl

theorem streak_concat (ws : ℕ) (log : List SendRecord) (r : SendRecord) :
    streak ws (log ++ [r]) = streakStep ws (streak ws log) r := by
  unfold streak
  rw [foldl_append]
  rfl

theorem owes_append {ws : ℕ} {log between : List SendRecord} (h : owes ws log = true)
    (hno : ∀ x ∈ between, ¬(x.ws = ws ∧ x.payloadType = .snapshot ∧ x.result = .sent)) : owes ws (log ++ between) = true := by
  induction between generalizing log with
  | nil => rwa [append_nil]
  | cons x between ih =>
    rw [append_cons]
    refine ih ?_ fun y hy => hno y (mem_cons_of_mem _ hy)
    rw [owes_concat, owesStep]
    split
    · rename_i hws
      split
      · rfl
      · rename_i hsent
        rw [if_neg fun hsnap => hno x mem_cons_self ⟨hws, hsnap, hsent⟩]
        exact h
      · exact h
    · exact h

/-- What holds of one send after the sends before it. -/
structure RecordOk (n : ℕ) (before : List SendRecord) (r : SendRecord) : Prop where
  delta : r.payloadType = .delta → r.result = .sent → owes r.ws before = false
  disconnect : r.result = .softSkipped true ↔
    r.payloadType = .snapshot ∧ (∃ disconnected, r.result = .softSkipped disconnected) ∧
      streak r.ws (before ++ [r]) = n

def LogOk (n : ℕ) (log : List SendRecord) : Prop :=
  ∀ before r after, log = before ++ r :: after → RecordOk n before r

theorem LogOk.concat {n : ℕ} {log : List SendRecord} {r : SendRecord} (h : LogOk n log) (hr : RecordOk n log r) :
    LogOk n (log ++ [r]) := by
  intro before r' after heq
  rcases eq_nil_or_concat after with rfl | ⟨after, x, rfl⟩
  · obtain ⟨rfl, hx⟩ := append_inj' heq rfl
    obtain rfl := singleton_inj.1 hx
    exact hr
  · rw [concat_eq_append, ← cons_append, ← append_assoc] at heq
    exact h before r' after (append_inj' heq rfl).1

theorem LogOk.deltaAfterSnapshot {n : ℕ} {log : List SendRecord} (h : LogOk n log) : DeltaAfterSnapshot log := by
  intro before skip between r after disconnected heq hws hskip hdelta hsent
  by_contra hno
  push Not at hno
  rw [append_cons, ← append_assoc] at heq
  have hclear := (h _ r after heq).delta hdelta hsent
  have howes : owes r.ws (before ++ [skip]) = true := by
    rw [owes_concat, owesStep, if_pos hws, hskip]
  rw [owes_append howes fun x hx ⟨h₁, h₂, h₃⟩ => hno x hx h₁ h₂ h₃] at hclear
  cases hclear

variable {deps : BroadcasterDeps}

/-- What the latches of a socket mean. -/
structure Latched (n : ℕ) (s : Broadcaster) (ws : ℕ) : Prop where
  owed : s.isOpen ws = true → owes ws s.log = true → s.needsSnapshotClients ws = true
  counted : 0 < n → s.isOpen ws = true → (s.staleClients ws).getD 0 = streak ws s.log
  below : 0 < n → s.isOpen ws = true → streak ws s.log < n

structure Broadcaster.Inv (deps : BroadcasterDeps) (s : Broadcaster) : Prop where
  log : LogOk deps.limits.disconnectAfterSkips s.log
  latched : ∀ ws, Latched deps.limits.disconnectAfterSkips s ws

theorem latched_of_closed {n ws : ℕ} {s : Broadcaster} (h : s.isOpen ws = false) : Latched n s ws := by
  refine ⟨?_, ?_, ?_⟩
  · intro hopen
    rw [h] at hopen
    cases hopen
  · intro _ hopen
    rw [h] at hopen
    cases hopen
  · intro _ hopen
    rw [h] at hopen
    cases hopen

/-- The latches of the other sockets are as they were. -/
structure OthersKept (ws : ℕ) (s t : Broadcaster) : Prop where
  log : t.log = s.log
  isOpen : ∀ ws', ws' ≠ ws → t.isOpen ws' = s.isOpen ws'
  stale : ∀ ws', ws' ≠ ws → t.staleClients ws' = s.staleClients ws'
  needs : ∀ ws', ws' ≠ ws → t.needsSnapshotClients ws' = s.needsSnapshotClients ws'

namespace Broadcaster

theorem record_log (s : Broadcaster) (ws : ℕ) (msg : ServerMessage) (result : SendResult) :
    (s.record ws msg result).log = s.log ++ [⟨ws, msg.type, result⟩] := rfl

theorem Inv.logged {s t : Broadcaster} {ws : ℕ} {msg : ServerMessage} {result : SendResult} (h : s.Inv deps)
    (hkept : OthersKept ws s t) (hok : RecordOk deps.limits.disconnectAfterSkips s.log ⟨ws, msg.type, result⟩)
    (hws : Latched deps.limits.disconnectAfterSkips (t.record ws msg result) ws) : (t.record ws msg result).Inv deps := by
  constructor
  · rw [record_log, hkept.log]
    exact h.log.concat hok
  · intro ws'
    by_cases heq : ws' = ws
    · rw [heq]
      exact hws
    · have hne : ws ≠ ws' := fun he => heq he.symm
      have howes : owes ws' (t.record ws msg result).log = owes ws' s.log := by
        rw [record_log, owes_concat, hkept.log, owesStep, if_neg hne]
      have hstreak : streak ws' (t.record ws msg result).log = streak ws' s.log := by
        rw [record_log, streak_concat, hkept.log, streakStep, if_neg hne]
      have hopen : (t.record ws msg result).isOpen ws' = s.isOpen ws' := hkept.isOpen ws' heq
      obtain ⟨howed, hcounted, hbelow⟩ := h.latched ws'
      refine ⟨?_, ?_, ?_⟩
      · rw [hopen, howes]
        exact fun ho hw => (hkept.needs ws' heq).trans (howed ho hw)
      · rw [hopen, hstreak]
        exact fun hn ho => (congrArg (·.getD 0) (hkept.stale ws' heq)).trans (hcounted hn ho)
      · rw [hopen, hstreak]
        exact hbelow

theorem othersKept_forget (s : Broadcaster) (ws : ℕ) : OthersKept ws s ((s.forget ws).drop ws) :=
  ⟨rfl, fun _ hne => update_of_ne hne _ _, fun _ hne => update_of_ne hne _ _,
    fun _ hne => update_of_ne hne _ _⟩

theorem isOpen_drop (s : Broadcaster) (ws : ℕ) : (s.drop ws).isOpen ws = false := update_self _ _ _

theorem recordOk_of_result {n : ℕ} {before : List SendRecord} {r : SendRecord}
    (hskip : ∀ disconnected, r.result ≠ .softSkipped disconnected)
    (hdelta : r.payloadType = .delta → r.result = .sent → owes r.ws before = false) : RecordOk n before r :=
  ⟨hdelta, fun h => absurd h (hskip true), fun ⟨_, ⟨d, hd⟩, _⟩ => absurd hd (hskip d)⟩

section Send

variable {s : Broadcaster} {ws : ℕ} {msg : ServerMessage}

section

variable (h : s.Inv deps)
include h

theorem Inv.notOpen (hopen : s.isOpen ws = false) : (s.record ws msg .notOpen).Inv deps := by
  refine h.logged ⟨rfl, fun _ _ => rfl, fun _ _ => rfl, fun _ _ => rfl⟩ (recordOk_of_result ?_ ?_) ?_
  · intro _ hskip
    cases hskip
  · intro _ hsent
    cases hsent
  · exact latched_of_closed hopen

theorem Inv.dropped {result : SendResult} (hskip : ∀ d, result ≠ .softSkipped d)
    (hsent : result ≠ .sent) : (((s.forget ws).drop ws).record ws msg result).Inv deps :=
  h.logged (othersKept_forget s ws) (recordOk_of_result hskip fun _ hr => absurd hr hsent)
    (latched_of_closed (isOpen_drop _ ws))

theorem Inv.softSkip (hopen : s.isOpen ws = true) : (s.softSkip deps ws msg).Inv deps := by
  obtain ⟨-, hcounted, hbelow⟩ := h.latched ws
  unfold Broadcaster.softSkip
  dsimp only
  split
  · rename_i hsnap
    obtain ⟨hsnap, hpos⟩ := hsnap
    have hstreak : ∀ d, streak ws (s.log ++ [⟨ws, msg.type, .softSkipped d⟩]) = streak ws s.log + 1 := by
      intro d
      rw [streak_concat, streakStep, if_pos rfl]
      exact if_pos hsnap
    have hcount := hcounted hpos hopen
    split
    · -- the last of the row
      refine h.logged ⟨rfl, ?_, ?_, ?_⟩ ⟨?_, ?_⟩ (latched_of_closed (isOpen_drop _ ws))
      · exact fun _ hne => update_of_ne hne _ _
      · exact fun _ hne => update_of_ne hne _ _
      · exact fun _ hne => update_of_ne hne _ _
      · exact fun _ => nofun
      · have hlt := hbelow hpos hopen
        refine ⟨fun _ => ⟨hsnap, ⟨true, rfl⟩, ?_⟩, fun _ => rfl⟩
        rw [hstreak]
        omega
    · rename_i hmore
      rw [hcount] at hmore ⊢
      refine h.logged ⟨rfl, fun _ _ => rfl, ?_, ?_⟩ ⟨?_, ?_⟩ ⟨?_, ?_, ?_⟩
      · exact fun _ hne => update_of_ne hne _ _
      · exact fun _ hne => update_of_ne hne _ _
      · exact fun _ => nofun
      · refine ⟨nofun, ?_⟩
        rintro ⟨-, -, hn⟩
        rw [hstreak] at hn
        omega
      · exact fun _ _ => update_self _ _ _
      · intro _ _
        rw [record_log, hstreak]
        have hstale : update s.staleClients ws (some (streak ws s.log + 1)) ws =
            some (streak ws s.log + 1) := update_self _ _ _
        exact congrArg (fun o : Option ℕ => o.getD 0) hstale
      · rw [record_log, hstreak]
        omega
  · -- not counted: another frame than a snapshot, or the count is switched off
    rename_i hcond
    have hstreak : 0 < deps.limits.disconnectAfterSkips →
        streak ws (s.log ++ [⟨ws, msg.type, .softSkipped false⟩]) = streak ws s.log := by
      intro hpos
      rw [streak_concat, streakStep, if_pos rfl]
      exact if_neg fun hsnap => hcond ⟨hsnap, hpos⟩
    refine h.logged ⟨rfl, fun _ _ => rfl, fun _ _ => rfl, ?_⟩ ⟨fun _ => nofun, nofun, ?_⟩ ⟨?_, ?_, ?_⟩
    · exact fun _ hne => update_of_ne hne _ _
    · rintro ⟨hsnap, -, hn⟩
      have hone : streak ws (s.log ++ [⟨ws, msg.type, .softSkipped false⟩]) = streak ws s.log + 1 := by
        rw [streak_concat, streakStep, if_pos rfl]
        exact if_pos hsnap
      refine absurd ⟨hsnap, ?_⟩ hcond
      rw [← hn, hone]
      exact Nat.succ_pos _
    · exact fun _ _ => update_self _ _ _
    · intro hpos ho
      rw [record_log, hstreak hpos]
      exact hcounted hpos ho
    · intro hpos ho
      rw [record_log, hstreak hpos]
      exact hbelow hpos ho

theorem Inv.sent (hopen : s.isOpen ws = true)
    (hguard : msg.type = .delta → s.needsSnapshotClients ws = false) (hsnap : msg.type ≠ .snapshot) :
    (({ s with staleClients := update s.staleClients ws none }).record ws msg .sent).Inv deps := by
  have hstreak : streak ws (s.log ++ [⟨ws, msg.type, .sent⟩]) = 0 := by
    rw [streak_concat, streakStep, if_pos rfl]
  refine h.logged ⟨rfl, fun _ _ => rfl, ?_, fun _ _ => rfl⟩ (recordOk_of_result (fun _ => nofun) ?_) ⟨?_, ?_, ?_⟩
  · exact fun _ hne => update_of_ne hne _ _
  · -- the delta goes to a socket that owes nothing
    intro hdelta _
    by_contra howes
    have hneeds := (h.latched ws).owed hopen (Bool.eq_true_of_not_eq_false howes)
    rw [hguard hdelta] at hneeds
    cases hneeds
  · intro ho howes
    rw [record_log, owes_concat, owesStep, if_pos rfl] at howes
    exact (h.latched ws).owed ho ((if_neg hsnap).symm.trans howes)
  · intro _ _
    have hstale : update s.staleClients ws none ws = none := update_self _ _ _
    rw [record_log, hstreak]
    exact congrArg (fun o : Option ℕ => o.getD 0) hstale
  · intro hpos _
    rw [record_log, hstreak]
    exact hpos

theorem Inv.sentSnapshot (hsnap : msg.type = .snapshot) :
    (({ s with
      staleClients := update s.staleClients ws none
      needsSnapshotClients := update s.needsSnapshotClients ws false }).record ws msg .sent).Inv deps := by
  have hstreak : streak ws (s.log ++ [⟨ws, msg.type, .sent⟩]) = 0 := by
    rw [streak_concat, streakStep, if_pos rfl]
  refine h.logged ⟨rfl, fun _ _ => rfl, ?_, ?_⟩ (recordOk_of_result (fun _ => nofun) ?_) ⟨?_, ?_, ?_⟩
  · exact fun _ hne => update_of_ne hne _ _
  · exact fun _ hne => update_of_ne hne _ _
  · intro hdelta
    cases hsnap.symm.trans hdelta
  · intro _ howes
    rw [record_log, owes_concat, owesStep, if_pos rfl] at howes
    cases (if_pos hsnap).symm.trans howes
  · intro _ _
    have hstale : update s.staleClients ws none ws = none := update_self _ _ _
    rw [record_log, hstreak]
    exact congrArg (fun o : Option ℕ => o.getD 0) hstale
  · intro hpos _
    rw [record_log, hstreak]
    exact hpos

/-- Every send that is not a delta to a socket in need of a snapshot keeps the invariant. -/
theorem Inv.send (hguard : msg.type = .delta → s.needsSnapshotClients ws = false) : (s.send deps ws msg).2.Inv deps := by
  unfold Broadcaster.send
  split
  · rename_i hclosed
    exact h.notOpen hclosed
  · rename_i hopen
    have hopen : s.isOpen ws = true := Bool.eq_true_of_not_eq_false hopen
    dsimp only
    split
    · exact h.dropped nofun nofun
    · split
      · exact h.softSkip hopen
      · split
        · have hforget : ({ s with staleClients := update s.staleClients ws none }).forget ws = s.forget ws := by
            unfold forget
            rw [update_idem]
          rw [hforget]
          exact h.dropped nofun nofun
        · split
          · rename_i hsnap
            exact h.sentSnapshot hsnap
          · rename_i hsnap
            exact h.sent hopen hguard hsnap

end

end Send

section FanOut

variable {s : Broadcaster} {connections : List Connection}

section

variable (h : s.Inv deps)
include h

theorem Inv.notice (connections : List Connection) (kind : NoticeKind) :
    (s.broadcastBackpressureNotice deps connections kind).Inv deps := by
  refine foldlRecOn connections _ h ?_
  intro s h c _
  exact h.send nofun

/-- The gate sends notices only, whether the flush is shed or goes on. -/
theorem Inv.gate : (∀ t, s.gate deps connections = .inl t → t.Inv deps) ∧ ∀ t, s.gate deps connections = .inr t → t.Inv deps := by
  unfold Broadcaster.gate
  constructor
  · intro t ht
    split at ht
    · obtain rfl := Sum.inl.inj ht
      obtain ⟨hlog, hlatched⟩ := h.notice connections .loadShedActive
      exact ⟨hlog, fun ws => ⟨(hlatched ws).owed, (hlatched ws).counted, (hlatched ws).below⟩⟩
    · split at ht <;> cases ht
  · intro t ht
    split at ht
    · cases ht
    · split at ht
      · obtain rfl := Sum.inr.inj ht
        have hs : ({ s with wasLoadShedActive := false }).Inv deps :=
          ⟨h.log, fun ws => ⟨(h.latched ws).owed, (h.latched ws).counted, (h.latched ws).below⟩⟩
        exact hs.notice connections .loadShedRecovered
      · obtain rfl := Sum.inr.inj ht
        exact h

theorem Inv.sendSnapshot (ws : ℕ) (msg : SnapshotMessage) : (s.sendSnapshot deps ws (serializeSnapshot deps msg)).Inv deps := by
  have hcoordinator : ∀ frame, (serializeSnapshot deps msg).coordinatorData = some frame → frame.type ≠ .delta := by
    intro frame hframe
    obtain ⟨coordinator, -, rfl⟩ := Option.map_eq_some_iff.1 (Option.eq_some_of_filter_eq_some hframe)
    nofun
  unfold Broadcaster.sendSnapshot
  split
  · exact h
  · rename_i data hdata
    have htype : data.type ≠ .delta := by
      unfold serializeSnapshot at hdata
      dsimp only at hdata
      split at hdata
      · cases hdata
        nofun
      · cases hdata
    have hprimary : (s.send deps ws data).2.Inv deps := h.send fun hdelta => absurd hdelta htype
    split
    · rename_i t coordinatorData hsend hcoord
      rw [hsend] at hprimary
      exact hprimary.send fun hdelta => absurd hdelta (hcoordinator _ hcoord)
    · rename_i hsend _
      rw [hsend] at hprimary
      exact hprimary

theorem Inv.sendScoped (msg : SnapshotMessage) (build : Scope → Option SnapshotMessage)
    (c : Connection) : (sendScoped deps msg build s c).Inv deps := by
  unfold Broadcaster.sendScoped
  split
  · rename_i serialized hserialized
    unfold serializedFor at hserialized
    split at hserialized
    · cases hserialized
      exact h.sendSnapshot c.ws _
    · obtain ⟨scopedMsg, -, rfl⟩ := Option.map_eq_some_iff.1 hserialized
      exact h.sendSnapshot c.ws _
  · exact h

theorem Inv.sendDelta (delta : DeltaMessage) (full : SnapshotMessage) (previous : List AgentState)
    (build : Scope → Option SnapshotMessage) (c : Connection) : (sendDelta deps delta full previous build s c).Inv deps := by
  unfold Broadcaster.sendDelta
  split
  · exact h.sendScoped full build c
  · rename_i hneeds
    have hneeds : s.needsSnapshotClients c.ws = false := Bool.eq_false_of_not_eq_true hneeds
    split
    · exact h.send fun _ => hneeds
    · exact h.send fun _ => hneeds

theorem Inv.broadcast {msg : ServerMessage} (hmsg : msg.type ≠ .delta)
    (build : Scope → Option SnapshotMessage) : (s.broadcast deps msg build).Inv deps := by
  unfold Broadcaster.broadcast
  dsimp only
  split
  · split
    · rename_i t ht
      exact h.gate.1 t ht
    · rename_i t ht
      refine foldlRecOn _ _ (h.gate.2 t ht) ?_
      intro s h c _
      exact h.sendScoped _ build c
  · refine foldlRecOn _ _ h ?_
    intro s h c _
    unfold sendUnscoped
    split
    · exact h.send fun hdelta => absurd hdelta hmsg
    · exact h

theorem Inv.broadcastDelta (delta : DeltaMessage) (full : SnapshotMessage)
    (previous : List AgentState) (build : Scope → Option SnapshotMessage) :
    (s.broadcastDelta deps delta full previous build).Inv deps := by
  unfold Broadcaster.broadcastDelta
  dsimp only
  split
  · rename_i t ht
    exact h.gate.1 t ht
  · rename_i t ht
    refine foldlRecOn _ _ (h.gate.2 t ht) ?_
    intro s h c _
    exact h.sendDelta delta full previous build c

theorem Inv.drop (ws : ℕ) : (s.drop ws).Inv deps := by
  refine ⟨h.log, ?_⟩
  intro ws'
  by_cases heq : ws' = ws
  · rw [heq]
    exact latched_of_closed (isOpen_drop s ws)
  · have hopen : (s.drop ws).isOpen ws' = s.isOpen ws' := update_of_ne heq _ _
    obtain ⟨howed, hcounted, hbelow⟩ := h.latched ws'
    rw [← hopen] at howed hcounted hbelow
    exact ⟨howed, hcounted, hbelow⟩

end

end FanOut

/-- The deltas of a run are fanned out by `broadcastDelta`. -/
def PlainBroadcast : BroadcastEvent → Prop
  | .broadcast msg _ => msg.type ≠ .delta
  | _ => True

theorem Inv.step {s : Broadcaster} (h : s.Inv deps) {e : BroadcastEvent} (he : PlainBroadcast e) : (s.step deps e).Inv deps := by
  cases e with
  | broadcast msg build => exact h.broadcast he build
  | broadcastDelta delta full previous build => exact h.broadcastDelta delta full previous build
  | register c => exact ⟨h.log, fun ws => ⟨(h.latched ws).owed, (h.latched ws).counted, (h.latched ws).below⟩⟩
  | closed ws => exact h.drop ws
  | loadShed active =>
    exact ⟨h.log, fun ws => ⟨(h.latched ws).owed, (h.latched ws).counted, (h.latched ws).below⟩⟩

theorem inv_initial : initial.Inv deps := by
  constructor
  · intro before r after heq
    cases before <;> cases heq
  · intro ws
    exact ⟨fun _ howes => absurd howes Bool.false_ne_true, fun _ _ => rfl, fun hpos _ => hpos⟩

theorem Inv.run {s : Broadcaster} (h : s.Inv deps) {events : List BroadcastEvent}
    (hevents : ∀ e ∈ events, PlainBroadcast e) : (s.run deps events).Inv deps := by
  refine foldlRecOn events _ h ?_
  intro s h e he
  exact h.step (hevents e he)

end Broadcaster

/-- In every run, no delta is sent to a socket between a frame it skipped and the next
snapshot, and a socket is disconnected for the snapshots it skips in a row exactly at the
configured number. -/
theorem backpressure_latch (deps : BroadcasterDeps) {events : List BroadcastEvent}
    (hevents : ∀ e ∈ events, Broadcaster.PlainBroadcast e) : DeltaAfterSnapshot (initial.run deps events).log ∧
      DisconnectsAfter deps.limits.disconnectAfterSkips (initial.run deps events).log := by
  have hinv : (initial.run deps events).Inv deps := inv_initial.run hevents
  refine ⟨hinv.log.deltaAfterSnapshot, ?_⟩
  intro before r after heq
  exact (hinv.log before r after heq).disconnect

/-- Two skips in a row close a socket; the queue lengths of the sends are given. -/
def twoSkips (queue : List ℕ) : BroadcasterDeps where
  limits := .ofDeps (some 1) (some 10) (some 2)
  shouldSend _ := true
  readings n := ⟨queue.getD n 0, false⟩

/-- An empty flush, and no scoped viewers. -/
def emptyDelta : DeltaMessage := ⟨"2026-01-01T00:00:00.000Z", 2, none, none, none⟩

def emptyFlush : BroadcastEvent := .broadcastDelta emptyDelta (plainSnapshot 2 []) [] fun _ => none

/-- A flush is skipped, the next one sends the snapshot that is owed, then deltas go on. -/
theorem backpressure_latch_rebase :
    (initial.run (twoSkips [5, 0, 0]) [.register ⟨0, .owner⟩, emptyFlush, emptyFlush, emptyFlush]).log =
        [⟨0, .delta, .softSkipped false⟩, ⟨0, .snapshot, .sent⟩, ⟨0, .delta, .sent⟩] ∧
      ∃ x ∈ [(⟨0, .snapshot, .sent⟩ : SendRecord)], x.ws = 0 ∧ x.payloadType = .snapshot ∧ x.result = .sent := by
  have hlog : (initial.run (twoSkips [5, 0, 0])
      [.register ⟨0, .owner⟩, emptyFlush, emptyFlush, emptyFlush]).log =
        [⟨0, .delta, .softSkipped false⟩, ⟨0, .snapshot, .sent⟩, ⟨0, .delta, .sent⟩] := by decide +kernel
  have hevents : ∀ e ∈ [.register ⟨0, .owner⟩, emptyFlush, emptyFlush, emptyFlush],
      Broadcaster.PlainBroadcast e := by
    intro e he
    rcases mem_cons.1 he with rfl | he
    · trivial
    · obtain rfl := eq_of_mem_replicate (n := 3) he
      trivial
  exact ⟨hlog, (backpressure_latch (twoSkips [5, 0, 0]) hevents).1 [] _ [⟨0, .snapshot, .sent⟩] _ [] false
    hlog rfl rfl rfl rfl⟩

/-- A delta that is handed to `broadcast` goes to a socket that owes a snapshot. -/
theorem delta_broadcast_to_latched : (initial.run (twoSkips [5, 0])
      [.register ⟨0, .owner⟩, .broadcast (.other .null) fun _ => none, .broadcast (.delta emptyDelta) fun _ => none]).log =
        [⟨0, .other, .softSkipped false⟩, ⟨0, .delta, .sent⟩] ∧ ¬ DeltaAfterSnapshot (initial.run (twoSkips [5, 0])
        [.register ⟨0, .owner⟩, .broadcast (.other .null) fun _ => none, .broadcast (.delta emptyDelta) fun _ => none]).log := by
  have hlog : (initial.run (twoSkips [5, 0])
      [.register ⟨0, .owner⟩, .broadcast (.other .null) fun _ => none,
        .broadcast (.delta emptyDelta) fun _ => none]).log =
        [⟨0, .other, .softSkipped false⟩, ⟨0, .delta, .sent⟩] := by decide +kernel
  refine ⟨hlog, ?_⟩
  intro hlatch
  obtain ⟨x, hx, -⟩ := hlatch [] _ [] _ [] false hlog rfl rfl rfl rfl
  cases hx

end Kookr.Realtime
