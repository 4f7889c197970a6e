import Kookr.Lib.ListAt
import Kookr.Lib.MapRelation
import Kookr.Spec.Server.RalphLoop

/-! The handlers of a loop whose cycler goes on: one at most is on its way to a launch, for a stop of the
session that owns the loop, and the others launch older sessions. The owner is the newest session that has a name. -/

namespace Kookr.Server

open Kookr.Lib OrderedMap List Option Nat

namespace RalphStage

/-- Before the launch. -/
def early : RalphStage → Bool
  | reading | cycling _ | sampling _ | preparing .. => true
  | _ => false

/-- The iteration is counted. -/
def counted : RalphStage → Bool
  | sampling .launchFresh | preparing .. | launching .. => true
  | _ => false

/-- What a handler comes to whose cycler goes on and whose launch succeeds. -/
def goesOn (loopId : ℕ) : RalphStage → Bool
  | reading => true
  | cycling id => id = loopId
  | sampling action => action = .launchFresh
  | preparing id relaunch => id = loopId && !relaunch
  | launching _ _ relaunch => !relaunch
  | killing .. => false

/-- The session that is launched, and whether the task has it. -/
def launch : RalphStage → Option (ℕ × Bool)
  | launching session progress _ => some (session, progress = .registered)
  | _ => none

end RalphStage

namespace RalphTask

variable {s s' : RalphTask} {fingerprint : RalphStop}

structure HandlerOk (s : RalphTask) (owner : ℕ) (h : RalphHandler) : Prop where
  goesOn : h.stage.goesOn s.loop.loopId = true
  early : h.stage.early = true → h.fingerprint.session = owner ∧ owner ∈ s.sessions ∧ s.loop.handlingStopFingerprint = some h.fingerprint
  launch : ∀ session registered, h.stage.launch = some (session, registered) →
    h.fingerprint.session < session ∧ session ≤ owner ∧ (session ∈ s.sessions ↔ registered = true) ∧ (registered = false → session = owner)

/-- A handler that is on its way to a launch. -/
def Early (s : RalphTask) : Prop := ∃ i h, s.handlers.get i = some h ∧ h.stage.early = true

def Launches (s : RalphTask) (session : ℕ) : Prop := ∃ i h registered, s.handlers.get i = some h ∧ h.stage.launch = some (session, registered)

structure Base (s : RalphTask) : Prop where
  sorted : s.sessions.Pairwise (· < ·)
  fresh : ∀ session ∈ s.sessions, session < s.nextSession
  ids : ∀ i, s.nextId ≤ i → s.handlers.get i = none ∧ s.calls.get i = none
  candidates : ∀ i call, s.calls.get i = some call → call.candidates <+: s.sessions
  owned : ∀ owner ∈ s.loop.ownerSessionId, owner < s.nextSession ∧ ∀ session ∈ s.sessions, session ≤ owner
  unowned : s.loop.ownerSessionId = none → (∀ i, s.handlers.get i = none) ∧ s.launches = [] ∧ s.loop.handlingStopFingerprint = none ∧
    s.loop.lastHandledStopFingerprint = none ∧ s.ownerStop = none ∧ ∀ i call, s.calls.get i = some call → call.candidates = s.sessions
  handler : ∀ i h, s.handlers.get i = some h → ∃ owner ∈ s.loop.ownerSessionId, HandlerOk s owner h
  distinct : ∀ i j h h', s.handlers.get i = some h → s.handlers.get j = some h' →
    (h.fingerprint = h'.fingerprint ∨ ∃ session b b', h.stage.launch = some (session, b) ∧ h'.stage.launch = some (session, b')) → i = j
  handling : ∀ fingerprint ∈ s.loop.handlingStopFingerprint, ∃ owner ∈ s.loop.ownerSessionId,
    fingerprint.session < owner ∨ ∃ i h, s.handlers.get i = some h ∧ h.stage.early = true ∧ h.fingerprint = fingerprint
  last : ∀ fingerprint ∈ s.loop.lastHandledStopFingerprint, ∃ owner ∈ s.loop.ownerSessionId, fingerprint.session < owner
  launches : ∀ p ∈ s.launches, p.1.session < p.2 ∧ ∃ owner ∈ s.loop.ownerSessionId, p.2 ≤ owner
  causes : (s.launches.map Prod.fst).Nodup
  new : ∀ i h, s.handlers.get i = some h → h.fingerprint ∉ s.launches.map Prod.fst
  count : s.loop.currentIteration = s.launches.length + s.handlers.countWhere fun h => h.stage.counted
  ownerStop : ∀ stop ∈ s.ownerStop, (s.latestStop stop.session).isSome ∧ stop.session < s.nextSession ∧
    (s.loop.ownerSessionId = some stop.session ∨ (∃ p ∈ s.launches, stop.session < p.2) ∨ ∃ session, s.Launches session ∧ stop.session < session)

section

variable (h : Base s)
include h

/-- A handler that is there has an id that was given. -/
theorem Base.get_set_none {i j : ℕ} {handler handler' : RalphHandler} (hget : s.handlers.get i = some handler) (hj : s.nextId ≤ j) :
    (s.handlers.set i handler').get j = none := by
  refine (get_set_of_ne _ _ fun heq => ?_).trans (h.ids j hj).1
  rw [heq, (h.ids j hj).1] at hget
  cases hget

theorem Base.count_set {i : ℕ} {handler : RalphHandler} (handler' : RalphHandler) (hget : s.handlers.get i = some handler)
    (hsame : handler'.stage.counted = handler.stage.counted) :
    s.loop.currentIteration = s.launches.length + (s.handlers.set i handler').countWhere fun h => h.stage.counted := by
  have hset := countWhere_set (v := handler') (fun h : RalphHandler => h.stage.counted) hget
  rw [hsame] at hset
  exact h.count.trans (congrArg (s.launches.length + ·) (Nat.add_right_cancel hset).symm)

/-- The handlers stay apart when one comes to the launch of a session that no other launches. -/
theorem Base.distinct_set {i session : ℕ} {stage stage' : RalphStage} {registered : Bool}
    (hget : s.handlers.get i = some ⟨fingerprint, stage⟩) (hlaunch : stage'.launch = some (session, registered))
    (hothers : ∀ j hj, j ≠ i → s.handlers.get j = some hj → ∀ b, hj.stage.launch ≠ some (session, b)) (j k : ℕ) (hj hk : RalphHandler)
    (hgetj : (s.handlers.set i ⟨fingerprint, stage'⟩).get j = some hj) (hgetk : (s.handlers.set i ⟨fingerprint, stage'⟩).get k = some hk)
    (hsame : hj.fingerprint = hk.fingerprint ∨ ∃ session b b', hj.stage.launch = some (session, b) ∧ hk.stage.launch = some (session, b')) :
    j = k := by
  rcases get_set_some hgetj with ⟨rfl, rfl⟩ | ⟨hnej, holdj⟩ <;> rcases get_set_some hgetk with ⟨rfl, rfl⟩ | ⟨hnek, holdk⟩
  · rfl
  · rcases hsame with heq | ⟨other, b, b', hlaunchj, hlaunchk⟩
    · exact h.distinct i k _ hk hget holdk (.inl heq)
    · obtain ⟨rfl, -⟩ := Prod.mk.inj (some.inj (hlaunch.symm.trans hlaunchj))
      exact absurd hlaunchk (hothers k hk hnek.symm holdk b')
  · rcases hsame with heq | ⟨other, b, b', hlaunchj, hlaunchk⟩
    · exact h.distinct j i hj _ holdj hget (.inl heq)
    · obtain ⟨rfl, -⟩ := Prod.mk.inj (some.inj (hlaunch.symm.trans hlaunchk))
      exact absurd hlaunchj (hothers j hj hnej.symm holdj b)
  · exact h.distinct j k hj hk holdj holdk hsame

theorem Base.goto {i : ℕ} {stage : RalphStage} (stage' : RalphStage) (n : ℕ) (alive : List ℕ)
    (hget : s.handlers.get i = some ⟨fingerprint, stage⟩) (hgoesOn : stage'.goesOn s.loop.loopId = true) (hearly : stage'.early = stage.early)
    (hlaunch : stage'.launch = stage.launch) (hcount : n + stage.counted.toNat = s.loop.currentIteration + stage'.counted.toNat) :
    Base { s with handlers := s.handlers.set i ⟨fingerprint, stage'⟩, alive, loop := { s.loop with currentIteration := n } } := by
  -- a handler of the new state has one of the old state, with the same marks
  have hold : ∀ j hj, (s.handlers.set i ⟨fingerprint, stage'⟩).get j = some hj → ∃ hj₀, s.handlers.get j = some hj₀ ∧
      hj.fingerprint = hj₀.fingerprint ∧ hj.stage.early = hj₀.stage.early ∧ hj.stage.launch = hj₀.stage.launch ∧
        (hj₀.stage.goesOn s.loop.loopId = true → hj.stage.goesOn s.loop.loopId = true) := by
    intro j hj hgetj
    rcases get_set_some hgetj with ⟨rfl, rfl⟩ | ⟨-, hgetj⟩
    · exact ⟨_, hget, rfl, hearly, hlaunch, fun _ => hgoesOn⟩
    · exact ⟨hj, hgetj, rfl, rfl, rfl, id⟩
  have hnew : ∀ j hj₀, s.handlers.get j = some hj₀ → ∃ hj, (s.handlers.set i ⟨fingerprint, stage'⟩).get j = some hj ∧
      hj.fingerprint = hj₀.fingerprint ∧ hj.stage.early = hj₀.stage.early ∧ hj.stage.launch = hj₀.stage.launch := by
    intro j hj₀ hgetj
    rw [get_set]
    split_ifs with heq
    · subst heq
      obtain rfl := some.inj (hget.symm.trans hgetj)
      exact ⟨_, rfl, rfl, hearly, hlaunch⟩
    · exact ⟨hj₀, hgetj, rfl, rfl, rfl⟩
  refine { h with
    ids := fun j hj => ⟨h.get_set_none hget hj, (h.ids j hj).2⟩
    unowned := fun hnone => ?_
    handler := fun j hj hgetj => ?_
    distinct := fun j k hj hk hgetj hgetk hsame => ?_
    handling := fun fp hfp => ?_
    new := fun j hj hgetj => ?_
    count := ?_
    ownerStop := fun stop hstop => ?_ }
  · have hnone' := (h.unowned hnone).1 i
    rw [hget] at hnone'
    cases hnone'
  · obtain ⟨hj₀, hgetj₀, hfp, hearly', hlaunch', hgoes⟩ := hold j hj hgetj
    obtain ⟨owner, howner, hok⟩ := h.handler j hj₀ hgetj₀
    refine ⟨owner, howner, hgoes hok.goesOn, fun hj => ?_, fun session registered hj => ?_⟩
    · rw [hfp]
      exact hok.early (hearly' ▸ hj)
    · rw [hfp]
      exact hok.launch session registered (hlaunch' ▸ hj)
  · obtain ⟨hj₀, hgetj₀, hfpj, -, hlaunchj, -⟩ := hold j hj hgetj
    obtain ⟨hk₀, hgetk₀, hfpk, -, hlaunchk, -⟩ := hold k hk hgetk
    rw [hfpj, hfpk, hlaunchj, hlaunchk] at hsame
    exact h.distinct j k hj₀ hk₀ hgetj₀ hgetk₀ hsame
  · obtain ⟨owner, howner, hcases⟩ := h.handling fp hfp
    refine ⟨owner, howner, hcases.imp id fun ⟨j, hj₀, hgetj₀, hearly₀, hfp₀⟩ => ?_⟩
    obtain ⟨hj, hgetj, hfp', hearly', -⟩ := hnew j hj₀ hgetj₀
    exact ⟨j, hj, hgetj, hearly'.trans hearly₀, hfp'.trans hfp₀⟩
  · obtain ⟨hj₀, hgetj₀, hfp, -⟩ := hold j hj hgetj
    rw [hfp]
    exact h.new j hj₀ hgetj₀
  · have hset := countWhere_set (v := ⟨fingerprint, stage'⟩) (fun h => h.stage.counted) hget
    have hbefore := h.count
    dsimp only at hset ⊢
    omega
  · obtain ⟨hlatest, hlt, hcases⟩ := h.ownerStop stop hstop
    refine ⟨hlatest, hlt, hcases.imp id (Or.imp id fun ⟨session, ⟨j, hj₀, registered, hgetj₀, hlaunch₀⟩, hsession⟩ => ?_)⟩
    obtain ⟨hj, hgetj, -, -, hlaunch'⟩ := hnew j hj₀ hgetj₀
    exact ⟨session, ⟨j, hj, registered, hgetj, hlaunch'.trans hlaunch₀⟩, hsession⟩

theorem Base.setStatus (status : RalphLoopStatus) : Base (s.setStatus status) :=
  { h with handler := fun i hi hget => (h.handler i hi hget).imp fun _ hok => ⟨hok.1, { hok.2 with }⟩ }

theorem Base.recordStop (stop : RalphStop) (hstop : stop.session ∈ s.sessions) : Base (s.recordStop stop) := by
  have hlatest : ∀ session, (s.latestStop session).isSome ∨ session = stop.session →
      (Function.update s.latestStop stop.session (some stop.event) session).isSome := by
    intro session hsession
    by_cases heq : session = stop.session
    · rw [heq, Function.update_self]
      rfl
    · rw [Function.update_of_ne heq]
      exact hsession.resolve_right heq
  refine { h with
    unowned := fun hnone => ?_
    handler := fun i hi hget => (h.handler i hi hget).imp fun _ hok => ⟨hok.1, { hok.2 with }⟩
    ownerStop := fun stop' hstop' => ?_ }
  · obtain ⟨hhandlers, hlaunches, hhandling, hlast, hownerStop, hcalls⟩ := h.unowned hnone
    refine ⟨hhandlers, hlaunches, hhandling, hlast, ?_, hcalls⟩
    have hnot : s.isStopFromMainTaskSession stop.session = false := by
      have howner : s.loop.ownerSessionId = none := hnone
      rw [isStopFromMainTaskSession, howner]
      rfl
    rw [RalphTask.recordStop, hnot]
    exact hownerStop
  · by_cases howner : s.isStopFromMainTaskSession stop.session = true
    · rw [RalphTask.recordStop, if_pos howner] at hstop'
      cases hstop'
      rw [isStopFromMainTaskSession, Bool.and_eq_true, decide_eq_true_eq] at howner
      exact ⟨hlatest _ (.inr rfl), h.fresh _ hstop, .inl howner.1⟩
    · rw [RalphTask.recordStop, if_neg howner] at hstop'
      obtain ⟨hsome, hlt, hcases⟩ := h.ownerStop stop' hstop'
      exact ⟨hlatest _ (.inl hsome), hlt, hcases⟩

theorem Base.addCall (kind : RalphCallKind) : Base (s.addCall kind) := by
  have hcalls : ∀ i call, (s.calls.set s.nextId ⟨kind, s.sessions⟩).get i = some call → call.candidates = s.sessions ∨ s.calls.get i = some call := by
    intro i call hget
    rcases get_set_some hget with ⟨-, rfl⟩ | ⟨-, hget⟩
    · exact .inl rfl
    · exact .inr hget
  refine { h with
    ids := fun i hi => ⟨(h.ids i (le_of_succ_le hi)).1, ?_⟩
    candidates := fun i call hget => ?_
    unowned := fun hnone => ?_
    handler := fun i hi hget => (h.handler i hi hget).imp fun _ hok => ⟨hok.1, { hok.2 with }⟩ }
  · have hne : s.nextId ≠ i := Nat.ne_of_lt hi
    exact (get_set_of_ne _ _ hne).trans (h.ids i (le_of_succ_le hi)).2
  · rcases hcalls i call hget with hsessions | hold
    · exact hsessions ▸ prefix_refl _
    · exact h.candidates i call hold
  · obtain ⟨hhandlers, hlaunches, hhandling, hlast, hownerStop, hcandidates⟩ := h.unowned hnone
    exact ⟨hhandlers, hlaunches, hhandling, hlast, hownerStop, fun i call hget => (hcalls i call hget).elim id (hcandidates i call)⟩

theorem Base.endCall (call : ℕ) : Base (s.endCall call) := by
  have hcalls : ∀ i c, (s.calls.delete call).get i = some c → s.calls.get i = some c := by
    intro i c hget
    obtain ⟨-, hget⟩ := get_delete_some hget
    exact hget
  refine { h with
    ids := fun i hi => ⟨(h.ids i hi).1, ?_⟩
    candidates := fun i c hget => h.candidates i c (hcalls i c hget)
    unowned := fun hnone => ?_
    handler := fun i hi hget => (h.handler i hi hget).imp fun _ hok => ⟨hok.1, { hok.2 with }⟩ }
  · refine (get_delete _ _ _).trans ?_
    split_ifs
    · rfl
    · exact (h.ids i hi).2
  · obtain ⟨hhandlers, hlaunches, hhandling, hlast, hownerStop, hcandidates⟩ := h.unowned hnone
    exact ⟨hhandlers, hlaunches, hhandling, hlast, hownerStop, fun i c hget => hcandidates i c (hcalls i c hget)⟩

/-- The newest session claims a loop that nobody owns, or one that it owns. -/
theorem Base.claimRalphLoopOwner {session : ℕ} (hlast : s.loop.ownerSessionId = none → s.sessions.getLast? = some session)
    (hsame : ∀ owner ∈ s.loop.ownerSessionId, session = owner) : Base (s.claimRalphLoopOwner session) := by
  cases howner : s.loop.ownerSessionId with
  | some owner =>
    have hclaimed : s.claimRalphLoopOwner session = s := by
      rw [RalphTask.claimRalphLoopOwner, hsame owner howner, ← howner]
      rfl
    rwa [hclaimed]
  | none =>
    obtain ⟨hhandlers, hlaunches, hhandling, hlastHandled, hownerStop, hcandidates⟩ := h.unowned howner
    obtain ⟨before, hbefore⟩ := getLast?_eq_some_iff.1 (hlast howner)
    refine { h with
      owned := fun owner hown => ?_
      unowned := nofun
      handler := fun i hi hget => ?_
      handling := fun fp hfp => ?_
      last := fun fp hfp => ?_
      launches := fun p hp => ?_
      ownerStop := fun stop hstop => ?_ }
    · cases hown
      refine ⟨h.fresh _ (hbefore ▸ mem_append_right _ mem_cons_self), fun session' hsession' => ?_⟩
      have hsorted := h.sorted
      rw [hbefore] at hsorted
      rcases mem_concat_cases (hbefore ▸ hsession' : session' ∈ before ++ [session]) with hmem | hmem
      · exact le_of_lt ((pairwise_append.1 hsorted).2.2 session' hmem session mem_cons_self)
      · exact le_of_eq hmem
    · cases (hhandlers i).symm.trans hget
    · cases hhandling.symm.trans hfp
    · cases hlastHandled.symm.trans hfp
    · have hnil : p ∈ s.launches := hp
      rw [hlaunches] at hnil
      cases hnil
    · cases hownerStop.symm.trans hstop

theorem Base.early_unique {i j : ℕ} {hi hj : RalphHandler} (hgeti : s.handlers.get i = some hi) (hgetj : s.handlers.get j = some hj)
    (heari : hi.stage.early = true) (hearj : hj.stage.early = true) : i = j := by
  obtain ⟨_, _, hoki⟩ := h.handler i hi hgeti
  obtain ⟨_, _, hokj⟩ := h.handler j hj hgetj
  exact h.distinct i j hi hj hgeti hgetj (.inl (some.inj ((hoki.early heari).2.2.symm.trans (hokj.early hearj).2.2)))

/-- A stop of the owner is taken up, or a handler is on its way to a launch. -/
theorem Base.handleStopFingerprint (howner : s.loop.ownerSessionId = some fingerprint.session)
    (hmem : fingerprint.session ∈ s.sessions)
    (halone : s.accepts fingerprint = true → ∀ i hi, s.handlers.get i = some hi → hi.fingerprint.session = fingerprint.session →
      hi.fingerprint = fingerprint) :
    Base (s.handleStopFingerprint fingerprint) ∧ (s.loop.status = .running → (s.handleStopFingerprint fingerprint).Early) := by
  unfold RalphTask.handleStopFingerprint
  split_ifs with haccepts
  · have hfree := halone haccepts
    simp only [accepts, Bool.and_eq_true, decide_eq_true_eq] at haccepts
    obtain ⟨⟨-, -⟩, hhandling⟩ := haccepts
    -- no handler is on its way, and the others are for older stops
    have hothers : ∀ i hi, s.handlers.get i = some hi → hi.stage.early = false ∧ hi.fingerprint ≠ fingerprint := by
      intro i hi hget
      obtain ⟨owner, hown, hok⟩ := h.handler i hi hget
      obtain rfl : fingerprint.session = owner := some.inj (howner.symm.trans hown)
      have hnot : hi.stage.early = false := by
        rw [Bool.eq_false_iff]
        intro hearly
        obtain ⟨hsession, -, hlock⟩ := hok.early hearly
        exact hhandling (hlock.trans (congrArg some (hfree i hi hget hsession)))
      refine ⟨hnot, fun heq => ?_⟩
      cases hstage : hi.stage with
      | launching session progress relaunch =>
        obtain ⟨hlt, hle, -⟩ := hok.launch session _ (by rw [hstage]; rfl)
        rw [heq] at hlt
        omega
      | killing session relaunch =>
        have hgoes := hok.goesOn
        rw [hstage] at hgoes
        cases hgoes
      | _ => rw [hstage] at hnot; cases hnot
    have hget : ∀ i hi, (s.handlers.set s.nextId ⟨fingerprint, .reading⟩).get i = some hi →
        i = s.nextId ∧ hi = ⟨fingerprint, .reading⟩ ∨ s.handlers.get i = some hi := by
      intro i hi hgeti
      rw [get_set] at hgeti
      split_ifs at hgeti with heq
      · exact .inl ⟨heq.symm, (some.inj hgeti).symm⟩
      · exact .inr hgeti
    have hnone : s.handlers.get s.nextId = none := (h.ids s.nextId (le_refl _)).1
    refine ⟨{ h with
      ids := fun i hi => ⟨(get_set_of_ne _ _ (ne_of_lt hi)).trans (h.ids i (le_of_succ_le hi)).1,
        (h.ids i (le_of_succ_le hi)).2⟩
      unowned := fun hnone => by cases howner.symm.trans hnone
      handler := fun i hi hgeti => ?_
      distinct := fun i j hi hj hgeti hgetj hsame => ?_
      handling := fun fp hfp => ?_
      new := fun i hi hgeti => ?_
      count := ?_
      ownerStop := fun stop hstop => ?_ }, fun _ => ⟨s.nextId, ⟨fingerprint, .reading⟩, get_set_self _ _ _, rfl⟩⟩
    · rcases hget i hi hgeti with ⟨-, rfl⟩ | hold
      · exact ⟨fingerprint.session, howner, rfl, fun _ => ⟨rfl, hmem, rfl⟩, nofun⟩
      · obtain ⟨owner, hown, hok⟩ := h.handler i hi hold
        refine ⟨owner, hown, hok.goesOn, fun hearly => ?_, hok.launch⟩
        rw [(hothers i hi hold).1] at hearly
        cases hearly
    · rcases hget i hi hgeti with ⟨rfl, rfl⟩ | holdi <;> rcases hget j hj hgetj with ⟨rfl, rfl⟩ | holdj
      · rfl
      · rcases hsame with heq | ⟨_, _, _, hlaunch, -⟩
        · exact absurd heq.symm (hothers j hj holdj).2
        · cases hlaunch
      · rcases hsame with heq | ⟨_, _, _, -, hlaunch⟩
        · exact absurd heq (hothers i hi holdi).2
        · cases hlaunch
      · exact h.distinct i j hi hj holdi holdj hsame
    · cases hfp
      exact ⟨fingerprint.session, howner, .inr ⟨s.nextId, ⟨fingerprint, .reading⟩, get_set_self _ _ _, rfl, rfl⟩⟩
    · rcases hget i hi hgeti with ⟨-, rfl⟩ | hold
      · intro hcause
        obtain ⟨p, hp, hcause⟩ : ∃ p ∈ s.launches, p.1 = fingerprint := mem_map.1 hcause
        obtain ⟨hlt, owner, hown, hle⟩ := h.launches p hp
        obtain rfl : fingerprint.session = owner := some.inj (howner.symm.trans hown)
        rw [hcause] at hlt
        omega
      · exact h.new i hi hold
    · have hset := countWhere_set_new (v := ⟨fingerprint, .reading⟩) (fun h : RalphHandler => h.stage.counted) hnone
      exact h.count.trans (congrArg (s.launches.length + ·) hset.symm)
    · obtain ⟨hlatest, hlt, hcases⟩ := h.ownerStop stop hstop
      refine ⟨hlatest, hlt, hcases.imp id (Or.imp id fun ⟨session, ⟨i, hi, registered, hgeti, hlaunch⟩, hsession⟩ => ?_)⟩
      have hne : s.nextId ≠ i := fun heq => by rw [heq, hgeti] at hnone; cases hnone
      exact ⟨session, ⟨i, hi, registered, (get_set_of_ne _ _ hne).trans hgeti, hlaunch⟩, hsession⟩
  · refine ⟨h, fun hrunning => ?_⟩
    simp only [accepts, hrunning, decide_true, Bool.true_and, Bool.and_eq_true, decide_eq_true_eq, not_and_or, not_not] at haccepts
    rcases haccepts with hlast | hhandling
    · obtain ⟨owner, hown, hlt⟩ := h.last fingerprint hlast
      obtain rfl : fingerprint.session = owner := some.inj (howner.symm.trans hown)
      omega
    · obtain ⟨owner, hown, hlt | ⟨i, hi, hget, hearly, -⟩⟩ := h.handling fingerprint hhandling
      · obtain rfl : fingerprint.session = owner := some.inj (howner.symm.trans hown)
        omega
      · exact ⟨i, hi, hget, hearly⟩

/-- The others, when one is on its way to a launch, launch sessions that the task has. -/
theorem Base.others {i j owner : ℕ} {hi hj : RalphHandler} (hgeti : s.handlers.get i = some hi) (hgetj : s.handlers.get j = some hj)
    (hne : i ≠ j) (hearly : hi.stage.early = true) (howner : s.loop.ownerSessionId = some owner) :
    hj.stage.early = false ∧ ∀ session registered, hj.stage.launch = some (session, registered) → registered = true := by
  obtain ⟨owner', hown, hok⟩ := h.handler j hj hgetj
  obtain rfl : owner = owner' := some.inj (howner.symm.trans hown)
  refine ⟨eq_false_of_ne_true fun hearlyj => hne (h.early_unique hgeti hgetj hearly hearlyj), fun session registered hlaunch => ?_⟩
  obtain ⟨owner', hown, hoki⟩ := h.handler i hi hgeti
  obtain rfl : owner = owner' := some.inj (howner.symm.trans hown)
  obtain ⟨-, -, hregistered, hunregistered⟩ := hok.launch session registered hlaunch
  rw [← Bool.not_eq_false]
  intro hfalse
  have hmem : session ∈ s.sessions := (hunregistered hfalse).symm ▸ (hoki.early hearly).2.1
  rw [hregistered.1 hmem] at hfalse
  cases hfalse

theorem Base.prepared {i loopId : ℕ} (hget : s.handlers.get i = some ⟨fingerprint, .preparing loopId false⟩)
    (hstep : s.prepared i = some s') : Base s' ∧ s'.loop.ownerSessionId = some s.nextSession ∧ s'.ownerStop = s.ownerStop := by
  obtain ⟨owner, howner, hok⟩ := h.handler i _ hget
  obtain ⟨hsession, hmem, hlock⟩ := hok.early rfl
  have hloop : loopId = s.loop.loopId := by simpa [RalphStage.goesOn] using hok.goesOn
  obtain ⟨hownerlt, hownermax⟩ := h.owned owner howner
  unfold RalphTask.prepared at hstep
  rw [hget] at hstep
  dsimp only at hstep
  rw [if_pos hloop, some.injEq] at hstep
  subst hstep
  have hothers : ∀ j hj, j ≠ i → s.handlers.get j = some hj → HandlerOk s owner hj ∧ hj.stage.early = false ∧
      ∀ session registered, hj.stage.launch = some (session, registered) → registered = true ∧ session < s.nextSession := by
    intro j hj hne hgetj
    obtain ⟨owner', hown, hokj⟩ := h.handler j hj hgetj
    obtain rfl : owner = owner' := some.inj (howner.symm.trans hown)
    obtain ⟨hearly, hregistered⟩ := h.others hget hgetj hne.symm rfl howner
    exact ⟨hokj, hearly, fun session registered hlaunch =>
      ⟨hregistered session registered hlaunch, lt_of_le_of_lt (hokj.launch session registered hlaunch).2.1 hownerlt⟩⟩
  refine ⟨{ h with
    fresh := fun session hsession => lt_succ_of_lt (h.fresh session hsession)
    ids := fun j hj => ⟨h.get_set_none hget hj, (h.ids j hj).2⟩
    owned := fun owner' hown => ?_
    unowned := nofun
    handler := fun j hj hgetj => ⟨s.nextSession, rfl, ?_⟩
    distinct := h.distinct_set hget rfl fun j hj hne hgetj b hlaunch => ?_
    handling := fun fp hfp => ⟨s.nextSession, rfl, .inl ?_⟩
    last := fun fp hfp => ⟨s.nextSession, rfl, ?_⟩
    launches := fun p hp => ⟨(h.launches p hp).1, s.nextSession, rfl, ?_⟩
    new := fun j hj hgetj => ?_
    count := h.count_set _ hget rfl
    ownerStop := fun stop hstop => ?_ }, rfl, rfl⟩
  · cases hown
    exact ⟨lt_succ_self _, fun session hsession => le_of_lt (h.fresh session hsession)⟩
  · rcases get_set_some hgetj with ⟨-, rfl⟩ | ⟨hne, hold⟩
    · refine ⟨rfl, nofun, fun session registered hlaunch => ?_⟩
      obtain ⟨rfl, rfl⟩ := Prod.mk.inj (some.inj hlaunch)
      have hlt : fingerprint.session < s.nextSession := lt_of_le_of_lt (le_of_eq hsession) hownerlt
      exact ⟨hlt, le_refl _, ⟨fun hmem => absurd (h.fresh _ hmem) (lt_irrefl _), nofun⟩, fun _ => rfl⟩
    · obtain ⟨hokj, hearly, hlaunches⟩ := hothers j hj hne.symm hold
      refine ⟨hokj.goesOn, fun h => (by rw [hearly] at h; cases h), fun session registered hlaunch => ?_⟩
      obtain ⟨hlt, -, hregistered, -⟩ := hokj.launch session registered hlaunch
      obtain ⟨rfl, hsessionlt⟩ := hlaunches session registered hlaunch
      exact ⟨hlt, le_of_lt hsessionlt, hregistered, nofun⟩
  · exact absurd ((hothers j hj hne hgetj).2.2 _ _ hlaunch).2 (lt_irrefl _)
  · obtain rfl : fingerprint = fp := some.inj (hlock.symm.trans hfp)
    exact lt_of_le_of_lt (le_of_eq hsession) hownerlt
  · obtain ⟨owner', hown, hlt⟩ := h.last fp hfp
    obtain rfl : owner = owner' := some.inj (howner.symm.trans hown)
    exact lt_trans hlt hownerlt
  · obtain ⟨-, owner', hown, hle⟩ := h.launches p hp
    obtain rfl : owner = owner' := some.inj (howner.symm.trans hown)
    exact le_of_lt (lt_of_le_of_lt hle hownerlt)
  · rcases get_set_some hgetj with ⟨rfl, rfl⟩ | ⟨-, hold⟩
    · exact h.new _ ⟨fingerprint, .preparing loopId false⟩ hget
    · exact h.new j hj hold
  · obtain ⟨hlatest, hlt, -⟩ := h.ownerStop stop hstop
    exact ⟨hlatest, lt_succ_of_lt hlt, .inr (.inr ⟨s.nextSession, ⟨i, _, false, get_set_self _ _ _, rfl⟩, hlt⟩)⟩

theorem Base.registered {i session : ℕ} (hget : s.handlers.get i = some ⟨fingerprint, .launching session .created false⟩) :
    Base { s.goto i fingerprint (.launching session .registered false) with sessions := s.sessions ++ [session] } := by
  obtain ⟨owner, howner, hok⟩ := h.handler i _ hget
  obtain ⟨hlt, -, hmem, hlast⟩ := hok.launch session false rfl
  obtain rfl : session = owner := hlast rfl
  have hnotmem : session ∉ s.sessions := fun hin => by cases hmem.1 hin
  obtain ⟨hownerlt, hownermax⟩ := h.owned session howner
  have hbelow : ∀ x ∈ s.sessions, x < session := fun x hx => lt_of_le_of_ne (hownermax x hx) fun heq => hnotmem (heq ▸ hx)
  -- no other handler launches this session
  have hothers : ∀ j hj, j ≠ i → s.handlers.get j = some hj → HandlerOk s session hj ∧ hj.stage.early = false ∧
      ∀ x registered, hj.stage.launch = some (x, registered) → registered = true ∧ x ≠ session := by
    intro j hj hne hgetj
    obtain ⟨owner', hown, hokj⟩ := h.handler j hj hgetj
    obtain rfl : session = owner' := some.inj (howner.symm.trans hown)
    have hdiff : ∀ x registered, hj.stage.launch = some (x, registered) → x ≠ session := fun x registered hlaunch heq =>
      hne (h.distinct j i hj _ hgetj hget (.inr ⟨x, registered, false, hlaunch, heq ▸ rfl⟩))
    refine ⟨hokj, eq_false_of_ne_true fun hearly => hnotmem (hokj.early hearly).2.1, fun x registered hlaunch => ⟨?_, hdiff x registered hlaunch⟩⟩
    rw [← Bool.not_eq_false]
    exact fun hfalse => hdiff x registered hlaunch ((hokj.launch x registered hlaunch).2.2.2 hfalse)
  refine { h with
    sorted := ?_
    fresh := fun x hx => ?_
    ids := fun j hj => ⟨h.get_set_none hget hj, (h.ids j hj).2⟩
    candidates := fun j call hcall => (h.candidates j call hcall).trans (prefix_append _ _)
    owned := fun owner' hown => ?_
    unowned := fun hnone => by cases howner.symm.trans hnone
    handler := fun j hj hgetj => ⟨session, howner, ?_⟩
    distinct := h.distinct_set hget rfl fun j hj hne hgetj b hlaunch => ?_
    handling := fun fp hfp => ?_
    new := fun j hj hgetj => ?_
    count := h.count_set _ hget rfl
    ownerStop := fun stop hstop => ?_ }
  · exact pairwise_append.2 ⟨h.sorted, pairwise_singleton _ _, fun x hx y hy => mem_singleton.1 hy ▸ hbelow x hx⟩
  · rcases mem_concat_cases hx with hx | hx
    · exact h.fresh x hx
    · exact hx ▸ hownerlt
  · obtain rfl : session = owner' := some.inj (howner.symm.trans hown)
    refine ⟨hownerlt, fun x hx => ?_⟩
    rcases mem_concat_cases hx with hx | hx
    · exact hownermax x hx
    · exact le_of_eq hx
  · rcases get_set_some hgetj with ⟨-, rfl⟩ | ⟨hne, hold⟩
    · refine ⟨rfl, nofun, fun x registered hlaunch => ?_⟩
      obtain ⟨rfl, rfl⟩ := Prod.mk.inj (some.inj hlaunch)
      exact ⟨hlt, le_refl _, ⟨fun _ => rfl, fun _ => mem_append_right _ mem_cons_self⟩, nofun⟩
    · obtain ⟨hokj, hearly, hlaunches⟩ := hothers j hj hne.symm hold
      refine ⟨hokj.goesOn, fun h => (by rw [hearly] at h; cases h), fun x registered hlaunch => ?_⟩
      obtain ⟨hltj, hle, hmemj, -⟩ := hokj.launch x registered hlaunch
      obtain ⟨rfl, -⟩ := hlaunches x registered hlaunch
      exact ⟨hltj, hle, ⟨fun _ => rfl, fun _ => mem_append_left _ (hmemj.2 rfl)⟩, nofun⟩
  · exact ((hothers j hj hne hgetj).2.2 _ _ hlaunch).2 rfl
  · obtain ⟨owner', hown, hcases⟩ := h.handling fp hfp
    refine ⟨owner', hown, hcases.imp id fun ⟨j, hj, hgetj, hearly, hfp'⟩ => ?_⟩
    have hne : i ≠ j := fun heq => by rw [← heq, hget] at hgetj; cases hgetj; cases hearly
    exact ⟨j, hj, (get_set_of_ne _ _ hne).trans hgetj, hearly, hfp'⟩
  · rcases get_set_some hgetj with ⟨rfl, rfl⟩ | ⟨-, hold⟩
    · exact h.new _ ⟨fingerprint, .launching session .created false⟩ hget
    · exact h.new j hj hold
  · obtain ⟨hlatest, hltstop, hcases⟩ := h.ownerStop stop hstop
    refine ⟨hlatest, hltstop, hcases.imp id (Or.imp id fun ⟨x, ⟨j, hj, registered, hgetj, hlaunch⟩, hx⟩ => ?_)⟩
    by_cases heq : i = j
    · subst heq
      obtain rfl := some.inj (hget.symm.trans hgetj)
      obtain ⟨rfl, -⟩ := Prod.mk.inj (some.inj hlaunch)
      exact ⟨session, ⟨i, _, true, get_set_self _ _ _, rfl⟩, hx⟩
    · exact ⟨x, ⟨j, hj, registered, (get_set_of_ne _ _ heq).trans hgetj, hlaunch⟩, hx⟩

omit h in
theorem finish_cases (s : RalphTask) (fingerprint : RalphStop) :
    s.finish fingerprint = s ∧ s.loop.handlingStopFingerprint ≠ some fingerprint ∨
      s.loop.handlingStopFingerprint = some fingerprint ∧
        s.finish fingerprint = s.setLoop { s.loop with handlingStopFingerprint := none, lastHandledStopFingerprint := some fingerprint } := by
  unfold finish
  split_ifs with hhandling
  · exact .inr ⟨hhandling, rfl⟩
  · exact .inl ⟨rfl, hhandling⟩

theorem Base.launched {i session : ℕ} (hget : s.handlers.get i = some ⟨fingerprint, .launching session .registered false⟩) :
    Base { (s.finish fingerprint).settle i with launches := (fingerprint, session) :: s.launches } := by
  obtain ⟨owner, howner, hok⟩ := h.handler i _ hget
  obtain ⟨hlt, hle, -⟩ := hok.launch session true rfl
  have hold : ∀ j hj, (s.handlers.delete i).get j = some hj → j ≠ i ∧ s.handlers.get j = some hj := by
    intro j hj hgetj
    obtain ⟨heq, hgetj⟩ := get_delete_some hgetj
    exact ⟨Ne.symm heq, hgetj⟩
  have hkept : ∀ j hj, j ≠ i → s.handlers.get j = some hj → (s.handlers.delete i).get j = some hj := fun j hj hne hgetj =>
    (get_delete _ _ _).trans ((if_neg hne.symm).trans hgetj)
  have hcount : s.loop.currentIteration = (s.launches.length + 1) + (s.handlers.delete i).countWhere fun h => h.stage.counted := by
    have hdelete : (s.handlers.delete i).countWhere (fun h => h.stage.counted) + 1 = s.handlers.countWhere fun h => h.stage.counted :=
      countWhere_delete (fun h : RalphHandler => h.stage.counted) hget
    have hbefore := h.count
    omega
  have hsettled : Base { s.settle i with launches := (fingerprint, session) :: s.launches } := by
    refine { h with
      ids := fun j hj => ⟨?_, (h.ids j hj).2⟩
      unowned := fun hnone => by cases howner.symm.trans hnone
      handler := fun j hj hgetj => (h.handler j hj (hold j hj hgetj).2).imp fun _ hokj => ⟨hokj.1, { hokj.2 with }⟩
      distinct := fun j k hj hk hgetj hgetk => h.distinct j k hj hk (hold j hj hgetj).2 (hold k hk hgetk).2
      handling := fun fp hfp => ?_
      launches := fun p hp => ?_
      causes := nodup_cons.2 ⟨h.new i _ hget, h.causes⟩
      new := fun j hj hgetj hcause => ?_
      count := hcount
      ownerStop := fun stop hstop => ?_ }
    · refine (get_delete _ _ _).trans ?_
      split_ifs
      · rfl
      · exact (h.ids j hj).1
    · obtain ⟨owner', hown, hcases⟩ := h.handling fp hfp
      refine ⟨owner', hown, hcases.imp id fun ⟨j, hj, hgetj, hearly, hfp'⟩ => ?_⟩
      have hne : j ≠ i := fun heq => by rw [heq, hget] at hgetj; cases hgetj; cases hearly
      exact ⟨j, hj, hkept j hj hne hgetj, hearly, hfp'⟩
    · rcases mem_cons.1 hp with rfl | hp
      · exact ⟨hlt, owner, howner, hle⟩
      · exact h.launches p hp
    · obtain ⟨hne, hgetj'⟩ := hold j hj hgetj
      rcases mem_cons.1 hcause with heq | hcause
      · exact hne (h.distinct j i hj _ hgetj' hget (.inl heq))
      · exact h.new j hj hgetj' hcause
    · obtain ⟨hlatest, hltstop, hcases⟩ := h.ownerStop stop hstop
      refine ⟨hlatest, hltstop, ?_⟩
      rcases hcases with hown | ⟨p, hp, hlaunched⟩ | ⟨x, ⟨j, hj, registered, hgetj, hlaunch⟩, hx⟩
      · exact .inl hown
      · exact .inr (.inl ⟨p, mem_cons_of_mem _ hp, hlaunched⟩)
      · by_cases heq : j = i
        · subst heq
          obtain rfl := some.inj (hget.symm.trans hgetj)
          obtain ⟨rfl, -⟩ := Prod.mk.inj (some.inj hlaunch)
          exact .inr (.inl ⟨(fingerprint, session), mem_cons_self, hx⟩)
        · exact .inr (.inr ⟨x, ⟨j, hj, registered, hkept j hj heq hgetj, hlaunch⟩, hx⟩)
  rcases finish_cases s fingerprint with ⟨hsame, -⟩ | ⟨hhandling, hfinish⟩
  · rwa [hsame]
  · rw [hfinish]
    -- nobody else is on its way with this stop
    refine { hsettled with
      unowned := fun hnone => by cases howner.symm.trans hnone
      handler := fun j hj hgetj => ?_
      handling := nofun
      last := fun fp hfp => ?_ }
    · obtain ⟨owner', hown, hokj⟩ := hsettled.handler j hj hgetj
      refine ⟨owner', hown, hokj.goesOn, fun hearly => ?_, hokj.launch⟩
      obtain ⟨hne, hgetj'⟩ := hold j hj hgetj
      have hsame : some hj.fingerprint = some fingerprint := (hokj.early hearly).2.2.symm.trans hhandling
      exact absurd (h.distinct j i hj _ hgetj' hget (.inl (some.inj hsame))) hne
    · cases hfp
      exact ⟨owner, howner, lt_of_lt_of_le hlt hle⟩

end

end RalphTask

end Kookr.Server
