import Kookr.Sanity.Server.StopHandlers

/-! Every stop of the session that owns a Ralph loop is acted on once, in every run in which the handlers
find the loop running whenever they look at it, two stops of one session are not handled at the same time, and a resume finds the
session that owns the loop. -/

namespace Kookr.Server

open Kookr.Lib RalphTask OrderedMap Option List

/-- A handler looks at the loop again. -/
def RalphEvent.looks : RalphEvent → Bool
  | verdictRead _ | sampled .. | launched _ => true
  | _ => false

namespace RalphTask

variable {terminalRelaunchMax : ℕ} {s s' : RalphTask} {e : RalphEvent} {i : ℕ}

/-- The cycler goes on, launches succeed, and the sessions of the task are alive. -/
def continues (s : RalphTask) : RalphEvent → Bool
  | .found call session => (s.calls.get call).all fun c => session = c.candidates.getLast?
  | .cycled _ terminates => terminates = none
  | .cancelLoop | .startLoop | .attachLoop | .sessionDies _ | .launchFailed .. | .throws _ => false
  | _ => true

/-- The stop that a handler begins with. -/
def takenUp (s : RalphTask) : RalphEvent → Option RalphStop
  | .stop stop => if s.isStopFromMainTaskSession stop.session && s.accepts stop then some stop else none
  | .found call (some session) =>
    (s.calls.get call).bind fun c => (s.latestStop session).bind fun event =>
      if c.kind = .catchUp && s.isStopFromMainTaskSession session && s.accepts ⟨session, event⟩ then some ⟨session, event⟩ else none
  | _ => none

/-- The session that a resume, or the call that has started the loop, makes the owner. -/
def claims (s : RalphTask) : RalphEvent → Option ℕ
  | .found call (some session) =>
    (s.calls.get call).bind fun c =>
      if c.kind = .resume ∧ s.loop.status = .paused ∨ c.kind = .claim ∧ s.loop.status = .running then some session else none
  | _ => none

structure Undisturbed (s : RalphTask) (e : RalphEvent) : Prop where
  running : e.looks = true → s.loop.status = .running
  alone : ∀ stop ∈ s.takenUp e, ∀ h ∈ s.handlers.values, h.fingerprint.session = stop.session → h.fingerprint = stop
  owner : ∀ session ∈ s.claims e, ∀ owner ∈ s.loop.ownerSessionId, session = owner

instance Undisturbed.decidable (s : RalphTask) (e : RalphEvent) : Decidable (Undisturbed s e) :=
  decidable_of_iff ((e.looks = true → s.loop.status = .running) ∧
      (∀ stop ∈ s.takenUp e, ∀ h ∈ s.handlers.values, h.fingerprint.session = stop.session → h.fingerprint = stop) ∧
      ∀ session ∈ s.claims e, ∀ owner ∈ s.loop.ownerSessionId, session = owner)
    ⟨fun h => ⟨h.1, h.2.1, h.2.2⟩, fun h => ⟨h.running, h.alone, h.owner⟩⟩

/-- A catch-up that looks at the newest session. -/
def CatchingUp (s : RalphTask) (session : ℕ) : Prop :=
  ∃ i call, s.calls.get i = some call ∧ call.kind = .catchUp ∧ call.candidates.getLast? = some session

/-- What the owner has stopped with is on its way. -/
def Pending (s : RalphTask) : Prop :=
  s.loop.status = .running → ∀ stop ∈ s.ownerStop, s.loop.ownerSessionId = some stop.session → s.Early ∨ s.CatchingUp stop.session

theorem CatchingUp.addCall (hbase : Base s) {session : ℕ} (h : s.CatchingUp session) (kind : RalphCallKind) : (s.addCall kind).CatchingUp session := by
  obtain ⟨i, call, hget, hkind, hlast⟩ := h
  have hne : s.nextId ≠ i := fun heq => by
    rw [← heq, (hbase.ids s.nextId (Nat.le_refl _)).2] at hget
    cases hget
  exact ⟨i, call, (get_set_of_ne _ _ hne).trans hget, hkind, hlast⟩

theorem CatchingUp.endCall {session i : ℕ} {c : RalphCall} (h : s.CatchingUp session) (hget : s.calls.get i = some c)
    (hother : c.kind = .catchUp → c.candidates.getLast? ≠ some session) : (s.endCall i).CatchingUp session := by
  obtain ⟨j, call, hgetj, hkind, hlast⟩ := h
  have hne : i ≠ j := fun heq => by
    rw [← heq] at hgetj
    obtain rfl := some.inj (hget.symm.trans hgetj)
    exact hother hkind hlast
  exact ⟨j, call, (get_delete _ _ _).trans ((if_neg hne).trans hgetj), hkind, hlast⟩

theorem Early.of_update {h : RalphHandler} (hearly : s.Early) (hget : s.handlers.get i = some h) (hnot : h.stage.early = false)
    (hhandlers : (∃ h', s'.handlers = s.handlers.set i h') ∨ s'.handlers = s.handlers.delete i) : s'.Early := by
  obtain ⟨j, hj, hgetj, hearlyj⟩ := hearly
  have hne : i ≠ j := fun heq => by
    rw [← heq] at hgetj
    obtain rfl := some.inj (hget.symm.trans hgetj)
    rw [hnot] at hearlyj
    cases hearlyj
  refine ⟨j, hj, ?_, hearlyj⟩
  rcases hhandlers with ⟨h', hset⟩ | hdelete
  · rw [hset, get_set_of_ne _ _ hne, hgetj]
  · rw [hdelete, get_delete, if_neg hne, hgetj]

theorem Base.getLast?_sessions (h : Base s) {session : ℕ} (hmem : session ∈ s.sessions) (howner : s.loop.ownerSessionId = some session) :
    s.sessions.getLast? = some session := by
  obtain ⟨last, hlast⟩ : ∃ last, s.sessions.getLast? = some last := by
    cases hsessions : s.sessions.getLast? with
    | some last => exact ⟨last, rfl⟩
    | none =>
      rw [getLast?_eq_none_iff.1 hsessions] at hmem
      cases hmem
  obtain ⟨before, hbefore⟩ := getLast?_eq_some_iff.1 hlast
  have hle : last ≤ session := (h.owned session howner).2 last (hbefore ▸ mem_append_right _ mem_cons_self)
  have hsorted := h.sorted
  rw [hbefore] at hsorted hmem
  rcases mem_append.1 hmem with hin | hin
  · exact absurd ((pairwise_append.1 hsorted).2.2 session hin last mem_cons_self) (Nat.not_lt.2 hle)
  · rw [hlast, mem_singleton.1 hin]

structure Inv (s : RalphTask) : Prop where
  base : Base s
  pending : Pending s

section

variable (h : Inv s)
include h

theorem inv_stop {stop : RalphStop} (hok : Undisturbed s (.stop stop)) (hstep : s.handleStopEvent stop = some s') : Inv s' := by
  simp only [handleStopEvent, ite_none_right_eq_some, some.injEq] at hstep
  obtain ⟨hmem, rfl⟩ := hstep
  have hbase : Base (s.recordStop stop) := h.base.recordStop stop hmem
  split_ifs with hmain
  · have howner : s.loop.ownerSessionId = some stop.session := by
      rw [isStopFromMainTaskSession, Bool.and_eq_true, decide_eq_true_eq] at hmain
      exact hmain.1
    have halone : s.accepts stop = true → ∀ i hi, s.handlers.get i = some hi → hi.fingerprint.session = stop.session → hi.fingerprint = stop := by
      intro haccepts i hi hget
      exact hok.alone stop (by simp [takenUp, hmain, haccepts]) hi ((mem_values_iff _ _).2 ⟨i, hget⟩)
    obtain ⟨htaken, hearly⟩ := hbase.handleStopFingerprint howner hmem halone
    refine ⟨htaken, fun hrunning _ _ _ => .inl (hearly ?_)⟩
    revert hrunning
    unfold handleStopFingerprint
    split_ifs <;> exact id
  · refine ⟨hbase, fun hrunning stop' hstop' hown => h.pending hrunning stop' ?_ hown⟩
    rw [recordStop, if_neg hmain] at hstop'
    exact hstop'

omit h in
/-- A call that claims the loop goes on with a catch-up that looks at the session it has found. -/
theorem inv_claim (h : Base s) {session : ℕ} {status : RalphLoopStatus} (hlast : s.loop.ownerSessionId = none → s.sessions.getLast? = some session)
    (hsame : ∀ owner ∈ s.loop.ownerSessionId, session = owner) (hmem : session ∈ s.sessions) :
    Inv (((s.claimRalphLoopOwner session).setStatus status).addCall .catchUp) := by
  have hclaimed : Base ((s.claimRalphLoopOwner session).setStatus status) := (h.claimRalphLoopOwner hlast hsame).setStatus status
  have hnewest : s.sessions.getLast? = some session := hclaimed.getLast?_sessions hmem rfl
  refine ⟨hclaimed.addCall .catchUp, fun _ stop _ hown => .inr ?_⟩
  obtain rfl : session = stop.session := some.inj hown
  exact ⟨s.nextId, ⟨.catchUp, s.sessions⟩, get_set_self _ _ _, rfl, hnewest⟩

theorem inv_endCall {call : ℕ} {c : RalphCall} (hget : s.calls.get call = some c)
    (hother : ∀ stop ∈ s.ownerStop, s.loop.ownerSessionId = some stop.session → c.kind = .catchUp → c.candidates.getLast? ≠ some stop.session) :
    Inv (s.endCall call) := by
  refine ⟨h.base.endCall call, fun hrunning stop hstop hown => ?_⟩
  exact (h.pending hrunning stop hstop hown).imp id fun hcatching => hcatching.endCall hget (hother stop hstop hown)

theorem inv_found {call : ℕ} {session : Option ℕ} (hcontinues : s.continues (.found call session) = true)
    (hok : Undisturbed s (.found call session)) (hstep : s.afterFound call session = some s') : Inv s' := by
  unfold afterFound at hstep
  split at hstep
  · cases hstep
  · next kind candidates hget =>
    have hlast : session = candidates.getLast? := by simpa [continues, hget] using hcontinues
    cases session with
    | none =>
      cases hstep
      exact inv_endCall h hget fun _ _ _ _ => by rw [← hlast]; exact nofun
    | some session =>
      rw [ite_none_left_eq_some, not_not] at hstep
      obtain ⟨hcandidate, hstep⟩ := hstep
      have hprefix : candidates <+: s.sessions := h.base.candidates call _ hget
      have hmem : session ∈ s.sessions := hprefix.subset hcandidate
      have hnewest : s.loop.ownerSessionId = none → s.sessions.getLast? = some session := fun hnone => by
        obtain ⟨-, -, -, -, -, hcandidates⟩ := h.base.unowned hnone
        rw [← hcandidates call _ hget]
        exact hlast.symm
      cases kind with
      | resume =>
        cases hstep
        split_ifs with hpaused
        · have hsame := hok.owner session (by simp [claims, hget, hpaused])
          exact inv_claim (h.base.endCall call) hnewest hsame hmem
        · exact inv_endCall h hget nofun
      | claim =>
        cases hstep
        split_ifs with hrunning
        · have hsame := hok.owner session (by simp [claims, hget, hrunning])
          have hclaimed : Inv ((((s.endCall call).claimRalphLoopOwner session).setStatus .running).addCall .catchUp) :=
            inv_claim (h.base.endCall call) hnewest hsame hmem
          have hstatus : ((s.endCall call).claimRalphLoopOwner session).setStatus .running = (s.endCall call).claimRalphLoopOwner session := by
            rw [← hrunning]
            rfl
          rwa [hstatus] at hclaimed
        · exact inv_endCall h hget nofun
      | catchUp =>
        dsimp only at hstep
        split at hstep
        · next event hlatest =>
          cases hstep
          split_ifs with hmain
          · have howner : s.loop.ownerSessionId = some session := by
              have hboth := hmain
              rw [isStopFromMainTaskSession, Bool.and_eq_true, decide_eq_true_eq] at hboth
              exact hboth.1
            have halone : s.accepts ⟨session, event⟩ = true → ∀ i hi, s.handlers.get i = some hi → hi.fingerprint.session = session →
                hi.fingerprint = ⟨session, event⟩ := by
              intro haccepts i hi hgeti
              exact hok.alone ⟨session, event⟩ (by simp [takenUp, hget, hlatest, hmain, haccepts]) hi ((mem_values_iff _ _).2 ⟨i, hgeti⟩)
            have htaken : Base ((s.endCall call).handleStopFingerprint ⟨session, event⟩) ∧
                (s.loop.status = .running → ((s.endCall call).handleStopFingerprint ⟨session, event⟩).Early) :=
              (h.base.endCall call).handleStopFingerprint howner hmem halone
            refine ⟨htaken.1, fun hrunning _ _ _ => .inl (htaken.2 ?_)⟩
            revert hrunning
            unfold handleStopFingerprint
            split_ifs <;> exact id
          · refine inv_endCall h hget fun stop _ hown _ hnewest' => ?_
            obtain rfl : session = stop.session := some.inj (hlast.trans hnewest')
            exact hmain (by simp [isStopFromMainTaskSession, hown, hmem])
        · next hlatest =>
          cases hstep
          refine inv_endCall h hget fun stop hstop _ _ hnewest' => ?_
          obtain rfl : session = stop.session := some.inj (hlast.trans hnewest')
          have hsome := (h.base.ownerStop stop hstop).1
          rw [hlatest] at hsome
          cases hsome

omit h in
theorem inv_early {h : RalphHandler} (hbase : Base s) (hget : s.handlers.get i = some h) (hearly : h.stage.early = true) : Inv s :=
  ⟨hbase, fun _ _ _ _ => .inl ⟨i, h, hget, hearly⟩⟩

omit h in
theorem Base.stage (h : Base s) {hi : RalphHandler} (hget : s.handlers.get i = some hi) : hi.stage.goesOn s.loop.loopId = true := by
  obtain ⟨_, _, hok⟩ := h.handler i hi hget
  exact hok.goesOn

theorem inv_verdictRead (hrunning : s.loop.status = .running) (hstep : s.verdictRead i = some s') : Inv s' := by
  unfold verdictRead at hstep
  split at hstep
  · next fingerprint hget =>
    rw [if_pos hrunning, some.injEq] at hstep
    subst hstep
    have hbase : Base (s.goto i fingerprint (.cycling s.loop.loopId)) :=
      h.base.goto (.cycling s.loop.loopId) s.loop.currentIteration s.alive hget (decide_eq_true rfl) rfl rfl rfl
    exact inv_early hbase (get_set_self _ _ _) rfl
  · cases hstep

theorem inv_cycled (hstep : s.cycled i none = some s') : Inv s' := by
  unfold cycled at hstep
  split at hstep
  · next fingerprint loopId hget =>
    have hloop : loopId = s.loop.loopId := of_decide_eq_true (h.base.stage hget)
    dsimp only at hstep
    rw [if_pos hloop, some.injEq] at hstep
    subst hstep
    have hbase := h.base.goto (.sampling .launchFresh) (s.loop.currentIteration + 1) s.alive hget rfl rfl rfl rfl
    exact inv_early hbase (get_set_self _ _ _) rfl
  · cases hstep

theorem inv_sampled {admitted : Bool} (hrunning : s.loop.status = .running)
    (hstep : s.sampled terminalRelaunchMax i admitted = some s') : Inv s' := by
  unfold sampled at hstep
  split at hstep
  · next fingerprint action hget =>
    obtain rfl : action = .launchFresh := of_decide_eq_true (h.base.stage hget)
    obtain ⟨_, _, hok⟩ := h.base.handler i _ hget
    rw [if_pos ⟨hrunning, (hok.early rfl).2.2⟩, some.injEq] at hstep
    subst hstep
    have hgoes : (RalphStage.preparing s.loop.loopId false).goesOn s.loop.loopId = true := by simp [RalphStage.goesOn]
    have hbase : Base (s.goto i fingerprint (.preparing s.loop.loopId false)) :=
      h.base.goto (.preparing s.loop.loopId false) s.loop.currentIteration s.alive hget hgoes rfl rfl rfl
    exact inv_early hbase (get_set_self _ _ _) rfl
  · cases hstep

theorem inv_prepared (hstep : s.prepared i = some s') : Inv s' := by
  have hcopy := hstep
  unfold prepared at hcopy
  split at hcopy
  · next fingerprint loopId relaunch hget =>
    have hgoes := h.base.stage hget
    simp only [RalphStage.goesOn, Bool.and_eq_true, Bool.not_eq_true'] at hgoes
    obtain rfl : relaunch = false := hgoes.2
    obtain ⟨hbase, howner, hownerStop⟩ := h.base.prepared hget hstep
    refine ⟨hbase, fun _ stop hstop hown => ?_⟩
    have hlt := (h.base.ownerStop stop (hownerStop ▸ hstop)).2.1
    rw [some.inj (howner.symm.trans hown)] at hlt
    exact absurd hlt (Nat.lt_irrefl _)
  · cases hcopy

theorem inv_launch {hi : RalphHandler} (hget : s.handlers.get i = some hi) (hnot : hi.stage.early = false) (hbase : Base s')
    (hhandlers : (∃ h', s'.handlers = s.handlers.set i h') ∨ s'.handlers = s.handlers.delete i)
    (hsame : s'.loop.status = s.loop.status ∧ s'.loop.ownerSessionId = s.loop.ownerSessionId ∧ s'.ownerStop = s.ownerStop ∧ s'.calls = s.calls) :
    Inv s' := by
  obtain ⟨hstatus, howner, hownerStop, hcalls⟩ := hsame
  refine ⟨hbase, fun hrunning stop hstop hown => ?_⟩
  rcases h.pending (hstatus ▸ hrunning) stop (hownerStop ▸ hstop) (howner ▸ hown) with hearly | ⟨j, c, hgetj, hcatching⟩
  · exact .inl (hearly.of_update hget hnot hhandlers)
  · exact .inr ⟨j, c, hcalls ▸ hgetj, hcatching⟩

theorem inv_created (hstep : s.created i = some s') : Inv s' := by
  unfold created at hstep
  split at hstep
  · next fingerprint session relaunch hget =>
    cases hstep
    have hbase := h.base.goto (.launching session .created relaunch) s.loop.currentIteration (session :: s.alive) hget (h.base.stage hget) rfl rfl rfl
    exact inv_launch h hget rfl hbase (.inl ⟨_, rfl⟩) ⟨rfl, rfl, rfl, rfl⟩
  · cases hstep

theorem inv_registered (hstep : s.registered i = some s') : Inv s' := by
  unfold registered at hstep
  split at hstep
  · next fingerprint session relaunch hget =>
    obtain rfl : relaunch = false := by simpa [RalphStage.goesOn] using h.base.stage hget
    cases hstep
    exact inv_launch h hget rfl (h.base.registered hget) (.inl ⟨_, rfl⟩) ⟨rfl, rfl, rfl, rfl⟩
  · cases hstep

theorem inv_launched (hrunning : s.loop.status = .running) (hstep : s.launched i = some s') : Inv s' := by
  unfold launched at hstep
  split at hstep
  · next fingerprint session relaunch hget =>
    obtain rfl : relaunch = false := by simpa [RalphStage.goesOn] using h.base.stage hget
    rw [if_pos hrunning, some.injEq] at hstep
    subst hstep
    refine inv_launch h hget rfl (h.base.launched hget) (.inr ?_) ?_
    all_goals rcases finish_cases s fingerprint with ⟨hsame, -⟩ | ⟨-, hfinish⟩
    · rw [hsame]; rfl
    · rw [hfinish]; rfl
    · rw [hsame]; exact ⟨rfl, rfl, rfl, rfl⟩
    · rw [hfinish]; exact ⟨rfl, rfl, rfl, rfl⟩
  · cases hstep

theorem inv_step (hok : s.continues e = true ∧ Undisturbed s e) (hstep : s.step terminalRelaunchMax e = some s') : Inv s' := by
  obtain ⟨hcontinues, hundisturbed⟩ := hok
  cases e with
  | stop stop => exact inv_stop h hundisturbed hstep
  | pauseLoop =>
    cases hstep
    unfold pauseLoop
    split_ifs
    · exact ⟨h.base.setStatus .paused, nofun⟩
    · exact h
  | resumeLoop =>
    cases hstep
    unfold resumeLoop
    split_ifs
    · exact h
    · exact ⟨h.base.addCall .resume, fun hrunning stop hstop hown => (h.pending hrunning stop hstop hown).imp id fun hc => hc.addCall h.base .resume⟩
  | attachLoop => cases hcontinues
  | found call session => exact inv_found h hcontinues hundisturbed hstep
  | verdictRead i => exact inv_verdictRead h (hundisturbed.running rfl) hstep
  | cycled i terminates =>
    obtain rfl : terminates = none := of_decide_eq_true hcontinues
    exact inv_cycled h hstep
  | sampled i admitted => exact inv_sampled h (hundisturbed.running rfl) hstep
  | prepared i => exact inv_prepared h hstep
  | created i => exact inv_created h hstep
  | registered i => exact inv_registered h hstep
  | launched i => exact inv_launched h (hundisturbed.running rfl) hstep
  | killed i ok =>
    simp only [step, killed] at hstep
    split at hstep
    · next hget => cases h.base.stage hget
    · cases hstep
  | _ => cases hcontinues

end

theorem inv_start (sessions : ℕ) (latestStop : ℕ → Option ℕ) : Inv (start sessions latestStop) := by
  have hcalls : ∀ i call, (start sessions latestStop).calls.get i = some call → call.candidates = range sessions := by
    intro i call hget
    rcases get_set_some hget with ⟨-, rfl⟩ | ⟨-, hget⟩
    · rfl
    · cases hget
  refine ⟨?_, fun _ _ h => nomatch h⟩
  exact {
    sorted := pairwise_lt_range
    fresh := fun session hsession => mem_range.1 hsession
    ids := fun i hi => ⟨rfl, get_set_of_ne _ _ (Nat.ne_of_lt hi)⟩
    candidates := fun i call hget => hcalls i call hget ▸ prefix_refl _
    owned := fun _ h => nomatch h
    unowned := fun _ => ⟨fun _ => rfl, rfl, rfl, rfl, rfl, hcalls⟩
    handler := fun _ _ h => nomatch h
    distinct := fun _ _ _ _ h => nomatch h
    handling := fun _ h => nomatch h
    last := fun _ h => nomatch h
    launches := fun _ h => nomatch h
    causes := nodup_nil
    new := fun _ _ h => nomatch h
    count := rfl
    ownerStop := (fun _ h => nomatch h) }

def Settled (s : RalphTask) : Prop := s.handlers.entries = [] ∧ s.calls.entries = []

/-- The latest stop of the owner is followed by a launch, no stop has caused two, and the iterations are
the launches. -/
structure AnsweredOnce (s : RalphTask) : Prop where
  followed : ∀ stop ∈ s.ownerStop, ∃ p ∈ s.launches, stop.session < p.2
  once : (s.launches.map Prod.fst).Nodup
  counted : s.loop.currentIteration = s.launches.length

theorem get_eq_none_of_settled {ν : Type} {m : OrderedMap ℕ ν} (h : m.entries = []) (i : ℕ) : m.get i = none := by
  rw [OrderedMap.get, h]
  rfl

/-- Once everything has settled and the loop is running, every stop has been acted on once. -/
theorem stops_answered_once {sessions : ℕ} {latestStop : ℕ → Option ℕ} {events : List RalphEvent}
    (hok : StepsMeet (step terminalRelaunchMax) (fun s e => s.continues e = true ∧ Undisturbed s e) (start sessions latestStop) events)
    (hrun : exec (step terminalRelaunchMax) (start sessions latestStop) events = some s) (hsettled : s.Settled) (hrunning : s.loop.status = .running) :
    AnsweredOnce s := by
  have hinv : Inv s := exec_invariant (fun _ _ _ h hmeet hstep => inv_step h hmeet hstep) (inv_start sessions latestStop) hok hrun
  obtain ⟨hhandlers, hcalls⟩ := hsettled
  refine ⟨fun stop hstop => ?_, hinv.base.causes, ?_⟩
  · obtain ⟨-, -, hown | hlaunched | ⟨_, ⟨i, h, _, hget, -⟩, -⟩⟩ := hinv.base.ownerStop stop hstop
    · rcases hinv.pending hrunning stop hstop hown with ⟨i, h, hget, -⟩ | ⟨i, call, hget, -⟩
      · cases (get_eq_none_of_settled hhandlers i).symm.trans hget
      · cases (get_eq_none_of_settled hcalls i).symm.trans hget
    · exact hlaunched
    · cases (get_eq_none_of_settled hhandlers i).symm.trans hget
  · have hcount := hinv.base.count
    rw [countWhere, hhandlers] at hcount
    exact hcount

def firstStop : List RalphEvent := [.found 0 (some 0), .found 1 (some 0), .stop ⟨0, 0⟩, .verdictRead 2]

/-- The loop is paused and resumed while the cycler works. -/
def resumedInTime : List RalphEvent :=
  firstStop ++ [.pauseLoop, .resumeLoop, .found 3 (some 0), .cycled 2 none, .found 4 (some 0), .sampled 2 false, .prepared 2, .created 2, .registered 2,
    .launched 2]

theorem stops_answered_once_resumedInTime : ∃ s, exec (step 3) (start 1 fun _ => none) resumedInTime = some s ∧ s.launches = [(⟨0, 0⟩, 1)] ∧
    AnsweredOnce s := by
  obtain ⟨s, hrun, hlaunches, hsettled, hrunning⟩ : ∃ s, exec (step 3) (start 1 fun _ => none) resumedInTime = some s ∧ s.launches = [(⟨0, 0⟩, 1)] ∧
      s.Settled ∧ s.loop.status = .running :=
    ⟨_, rfl, rfl, ⟨rfl, rfl⟩, rfl⟩
  have hok : StepsMeet (step 3) (fun s e => s.continues e = true ∧ Undisturbed s e) (start 1 fun _ => none) resumedInTime := by
    decide +kernel
  exact ⟨s, hrun, hlaunches, stops_answered_once hok hrun hsettled hrunning⟩

/-- The loop is resumed after the handler has found it paused. -/
def resumedTooLate : List RalphEvent :=
  firstStop ++ [.pauseLoop, .cycled 2 none, .sampled 2 false, .resumeLoop, .found 3 (some 0), .found 4 (some 0)]

def stoppedTwice : List RalphEvent :=
  firstStop ++ [.stop ⟨0, 1⟩, .cycled 2 none, .sampled 2 false, .verdictRead 3, .cycled 3 none, .sampled 3 false, .prepared 3, .created 3, .registered 3,
    .launched 3]

/-- A handler that finds the loop paused leaves its fingerprint behind, so the stop is not taken up again.
And a second stop takes the place of the first one, whose iteration has been counted. -/
theorem stop_left_unanswered :
    (¬∀ (terminalRelaunchMax sessions : ℕ) (latestStop : ℕ → Option ℕ) (events : List RalphEvent) (s : RalphTask),
      StepsMeet (step terminalRelaunchMax) (fun s e => s.continues e = true) (start sessions latestStop) events →
        exec (step terminalRelaunchMax) (start sessions latestStop) events = some s → s.Settled → s.loop.status = .running →
          ∀ stop ∈ s.ownerStop, ∃ p ∈ s.launches, stop.session < p.2) ∧
    ¬∀ (terminalRelaunchMax sessions : ℕ) (latestStop : ℕ → Option ℕ) (events : List RalphEvent) (s : RalphTask),
      StepsMeet (step terminalRelaunchMax) (fun s e => s.continues e = true) (start sessions latestStop) events →
        exec (step terminalRelaunchMax) (start sessions latestStop) events = some s → s.Settled → s.loop.status = .running →
          s.loop.currentIteration = s.launches.length := by
  constructor
  · intro h
    obtain ⟨s, hrun, hsettled, hrunning, hstop, hlaunches⟩ : ∃ s, exec (step 3) (start 1 fun _ => none) resumedTooLate = some s ∧ s.Settled ∧
        s.loop.status = .running ∧ s.ownerStop = some ⟨0, 0⟩ ∧ s.launches = [] :=
      ⟨_, rfl, ⟨rfl, rfl⟩, rfl, rfl, rfl⟩
    obtain ⟨p, hp, -⟩ := h 3 1 _ resumedTooLate s (by decide +kernel) hrun hsettled hrunning _ hstop
    rw [hlaunches] at hp
    cases hp
  · intro h
    obtain ⟨s, hrun, hsettled, hrunning, hiterations, hlaunches⟩ : ∃ s, exec (step 3) (start 1 fun _ => none) stoppedTwice = some s ∧ s.Settled ∧
        s.loop.status = .running ∧ s.loop.currentIteration = 2 ∧ s.launches = [(⟨0, 1⟩, 1)] :=
      ⟨_, rfl, ⟨rfl, rfl⟩, rfl, rfl, rfl⟩
    have hcount := h 3 1 _ stoppedTwice s (by decide +kernel) hrun hsettled hrunning
    rw [hiterations, hlaunches] at hcount
    cases hcount

end RalphTask

end Kookr.Server
