import Kookr.Spec.Server.RalphLoop

/-! A Ralph loop that the operator has cancelled or paused stays so until it is resumed or started anew, and
no session is left alive whose launch went on after that, in every run in which the handlers come to no
write of the status meanwhile. What the cycler terminates, what the relaunch policy re-arms and what a failed launch ends is written over any status. -/

namespace Kookr.Server

open Kookr.Lib RalphTask Option OrderedMap

def RalphStage.session : RalphStage → Option ℕ
  | launching session _ _ | killing session _ => some session
  | _ => none

def RalphStage.launchesFresh : RalphStage → Bool
  | preparing _ relaunch | launching _ _ relaunch => !relaunch
  | _ => false

/-- A session is not there after it has been killed. -/
def RalphEvent.kills : RalphEvent → Bool
  | killed _ ok => ok
  | launchFailed _ reaped => reaped
  | _ => true

namespace RalphTask

variable {terminalRelaunchMax : ℕ} {s s' : RalphTask} {e : RalphEvent}

/-- The call returns that it has changed the loop. -/
def changes (s : RalphTask) : RalphEvent → Bool
  | .cancelLoop => s.loop.status = .running || s.loop.status = .paused
  | .pauseLoop => s.loop.status = .running
  | _ => false

def isStopped (s : RalphTask) : Bool := s.loop.status = .cancelled || s.loop.status = .paused

/-- The loop runs again, or another one does. -/
def resumes (s : RalphTask) : RalphEvent → Bool
  | .startLoop => true
  | .attachLoop => !(s.loop.status = .running || s.loop.status = .paused)
  | .found call (some _) => s.loop.status = .paused && (s.calls.get call).any fun call => call.kind = .resume
  | _ => false

/-- A handler comes to a write of the status. -/
def overwrites (terminalRelaunchMax : ℕ) (s : RalphTask) : RalphEvent → Bool
  | .cycled handler (some _) => (s.handlers.get handler).any fun h => h.stage = .cycling s.loop.loopId
  | .sampled handler admitted =>
    (s.handlers.get handler).any fun h =>
      match h.stage with
      | .sampling (.terminate reason) => s.rearms terminalRelaunchMax reason admitted
      | _ => false
  | .launchFailed handler _ =>
    (s.handlers.get handler).any fun h => h.stage.launchesFresh && s.loop.handlingStopFingerprint = some h.fingerprint
  | _ => false

/-- A session that is launched, or killed again. -/
def Launching (s : RalphTask) (session : ℕ) : Prop := ∃ i handler, s.handlers.get i = some handler ∧ handler.stage.session = some session

/-- What a step leaves of a loop that is stopped. -/
structure StaysStopped (e : RalphEvent) (s s' : RalphTask) : Prop where
  status : s'.loop.status = if e = .cancelLoop then .cancelled else s.loop.status
  alive : ∀ session ∈ s'.alive, session ∈ s.alive ∨ s'.Launching session
  launching : ∀ session ∈ s'.alive, s.Launching session → s'.Launching session

theorem StaysStopped.of_same (hstatus : s'.loop.status = if e = .cancelLoop then .cancelled else s.loop.status)
    (halive : s'.alive ⊆ s.alive) (hhandlers : s'.handlers = s.handlers) : StaysStopped e s s' where
  status := hstatus
  alive _ hsession := .inl (halive hsession)
  launching _ _ := fun ⟨i, handler, hget, hlaunches⟩ => ⟨i, handler, hhandlers ▸ hget, hlaunches⟩

theorem StaysStopped.goto {handler : ℕ} {h : RalphHandler} {fingerprint : RalphStop} {stage : RalphStage}
    (hget : s.handlers.get handler = some h) (hhandlers : s'.handlers = s.handlers.set handler ⟨fingerprint, stage⟩)
    (hsession : ∀ session ∈ h.stage.session, stage.session = some session)
    (hstatus : s'.loop.status = if e = .cancelLoop then .cancelled else s.loop.status)
    (halive : ∀ session ∈ s'.alive, session ∈ s.alive ∨ stage.session = some session) : StaysStopped e s s' where
  status := hstatus
  alive session hmem := (halive session hmem).imp id fun hstage => ⟨handler, ⟨fingerprint, stage⟩, by rw [hhandlers, get_set_self], hstage⟩
  launching session _ := by
    rintro ⟨i, other, hother, hlaunches⟩
    by_cases heq : handler = i
    · subst heq
      obtain rfl : h = other := some.inj (hget.symm.trans hother)
      exact ⟨handler, ⟨fingerprint, stage⟩, by rw [hhandlers, get_set_self], hsession session hlaunches⟩
    · exact ⟨i, other, by rw [hhandlers, get_set, if_neg heq, hother], hlaunches⟩

theorem StaysStopped.settle {handler : ℕ} {h : RalphHandler} (hget : s.handlers.get handler = some h)
    (hhandlers : s'.handlers = s.handlers.delete handler)
    (hstatus : s'.loop.status = if e = .cancelLoop then .cancelled else s.loop.status)
    (halive : ∀ session ∈ s'.alive, session ∈ s.alive ∧ h.stage.session ≠ some session) : StaysStopped e s s' where
  status := hstatus
  alive session hmem := .inl (halive session hmem).1
  launching session hmem := by
    rintro ⟨i, other, hother, hlaunches⟩
    by_cases heq : handler = i
    · subst heq
      obtain rfl : h = other := some.inj (hget.symm.trans hother)
      exact absurd hlaunches (halive session hmem).2
    · exact ⟨i, other, by rw [hhandlers, get_delete, if_neg heq, hother], hlaunches⟩

theorem not_running (h : s.isStopped = true) : s.loop.status ≠ .running := by
  intro hrunning
  simp [isStopped, hrunning] at h

theorem handleStopFingerprint_of_not_running (h : s.loop.status ≠ .running) (fingerprint : RalphStop) : s.handleStopFingerprint fingerprint = s := by
  simp [handleStopFingerprint, accepts, h]

theorem failLaunch_of_stopped (h : s.loop.status ≠ .running) {handler : ℕ} {fingerprint : RalphStop} {relaunch : Bool}
    (hfresh : relaunch = false → s.loop.handlingStopFingerprint ≠ some fingerprint) :
    s.failLaunch handler fingerprint relaunch = s.settle handler := by
  unfold failLaunch
  cases relaunch with
  | true => rw [if_pos rfl, failRunning, if_neg h]
  | false => rw [if_neg Bool.false_ne_true, if_neg (hfresh rfl)]

/-- What a stopped loop does, unless it comes to a write of the status. -/
theorem staysStopped_step (hstopped : s.isStopped = true) (hkeeps : s.overwrites terminalRelaunchMax e = false) (hkills : e.kills = true)
    (hresumes : s.resumes e = false) (hstep : s.step terminalRelaunchMax e = some s') : StaysStopped e s s' := by
  have hstatus : s.loop.status ≠ .running := not_running hstopped
  cases e with
  | stop stop =>
    simp only [step, handleStopEvent, ite_none_right_eq_some, some.injEq] at hstep
    obtain ⟨-, rfl⟩ := hstep
    have hsame : (s.recordStop stop).handleStopFingerprint stop = s.recordStop stop := handleStopFingerprint_of_not_running (s := s.recordStop stop) hstatus stop
    rw [hsame, ite_self]
    exact .of_same rfl (List.Subset.refl _) rfl
  | cancelLoop =>
    cases hstep
    have hcan : s.loop.status = .running ∨ s.loop.status = .paused ∨ s.loop.status = .cancelled := by
      simp only [isStopped, Bool.or_eq_true, decide_eq_true_eq] at hstopped
      tauto
    unfold cancelLoop
    split_ifs with hchanges
    · exact .of_same rfl (List.Subset.refl _) rfl
    · refine .of_same ?_ (List.Subset.refl _) rfl
      tauto
  | pauseLoop =>
    cases hstep
    rw [pauseLoop, if_neg hstatus]
    exact .of_same rfl (List.Subset.refl _) rfl
  | resumeLoop =>
    cases hstep
    unfold resumeLoop
    split_ifs
    all_goals exact .of_same rfl (List.Subset.refl _) rfl
  | startLoop => cases hresumes
  | attachLoop =>
    cases hstep
    simp only [resumes, Bool.not_eq_false', Bool.or_eq_true, decide_eq_true_eq] at hresumes
    rw [attachLoop, if_pos hresumes]
    exact .of_same rfl (List.Subset.refl _) rfl
  | sessionDies session =>
    cases hstep
    exact .of_same rfl (List.filter_subset_self _) rfl
  | found call session =>
    simp only [step, afterFound] at hstep
    split at hstep
    · cases hstep
    · next kind candidates hcall =>
      split at hstep
      · cases hstep
        exact .of_same rfl (List.Subset.refl _) rfl
      · next session =>
        rw [ite_none_left_eq_some] at hstep
        obtain ⟨-, hstep⟩ := hstep
        split at hstep
        · have hpaused : s.loop.status ≠ .paused := by simpa [resumes, hcall] using hresumes
          rw [if_neg hpaused, some.injEq] at hstep
          subst hstep
          exact .of_same rfl (List.Subset.refl _) rfl
        · rw [if_neg hstatus, some.injEq] at hstep
          subst hstep
          exact .of_same rfl (List.Subset.refl _) rfl
        · split at hstep
          · next event _ =>
            cases hstep
            rw [handleStopFingerprint_of_not_running (s := s.endCall call) hstatus ⟨session, event⟩, ite_self]
            exact .of_same rfl (List.Subset.refl _) rfl
          · cases hstep
            exact .of_same rfl (List.Subset.refl _) rfl
  | verdictRead handler =>
    simp only [step, verdictRead] at hstep
    split at hstep
    · next fingerprint hget =>
      cases hstep
      exact .goto hget rfl nofun rfl fun _ => .inl
    · cases hstep
  | cycled handler terminates =>
    simp only [step, cycled] at hstep
    split at hstep
    · next fingerprint loopId hget =>
      split at hstep
      · next reason =>
        have hother : loopId ≠ s.loop.loopId := by simpa [overwrites, hget] using hkeeps
        rw [if_neg hother, some.injEq] at hstep
        subst hstep
        exact .goto hget rfl nofun rfl fun _ => .inl
      · cases hstep
        split_ifs
        all_goals exact .goto hget rfl nofun rfl fun _ => .inl
    · cases hstep
  | sampled handler admitted =>
    simp only [step, sampled] at hstep
    split at hstep
    · next fingerprint action hget =>
      split at hstep
      · next reason =>
        have hnot : s.rearms terminalRelaunchMax reason admitted = false := by simpa [overwrites, hget] using hkeeps
        rw [hnot, some.injEq] at hstep
        subst hstep
        exact .settle hget rfl rfl fun session hmem => ⟨hmem, nofun⟩
      all_goals
        rw [if_neg fun hruns => hstatus hruns.1, some.injEq] at hstep
        subst hstep
        exact .settle hget rfl rfl fun session hmem => ⟨hmem, nofun⟩
    · cases hstep
  | prepared handler =>
    simp only [step, prepared] at hstep
    split at hstep
    · next fingerprint loopId relaunch hget =>
      cases hstep
      split_ifs
      all_goals exact .goto hget rfl nofun rfl fun _ => .inl
    · cases hstep
  | created handler =>
    simp only [step, created] at hstep
    split at hstep
    · next fingerprint session relaunch hget =>
      cases hstep
      refine .goto hget rfl (fun _ hsession => hsession) rfl fun session' hmem => ?_
      exact (List.mem_cons.1 hmem).elim (fun heq => .inr (heq ▸ rfl)) .inl
    · cases hstep
  | registered handler =>
    simp only [step, registered] at hstep
    split at hstep
    · next fingerprint session relaunch hget =>
      cases hstep
      exact .goto hget rfl (fun _ hsession => hsession) rfl fun _ => .inl
    · cases hstep
  | launched handler =>
    simp only [step, launched] at hstep
    split at hstep
    · next fingerprint session relaunch hget =>
      rw [if_neg hstatus, some.injEq] at hstep
      subst hstep
      unfold disown
      split_ifs
      all_goals exact .goto hget rfl (fun _ hsession => hsession) rfl fun _ => .inl
    · cases hstep
  | launchFailed handler reaped =>
    simp only [step, launchFailed] at hstep
    split at hstep
    · next fingerprint loopId relaunch hget =>
      have hfresh : relaunch = false → s.loop.handlingStopFingerprint ≠ some fingerprint := by
        simpa [overwrites, hget, RalphStage.launchesFresh] using hkeeps
      rw [failLaunch_of_stopped hstatus hfresh, some.injEq] at hstep
      subst hstep
      exact .settle hget rfl rfl fun session hmem => ⟨hmem, nofun⟩
    · next fingerprint session progress relaunch hget =>
      have hfresh : relaunch = false → s.loop.handlingStopFingerprint ≠ some fingerprint := by
        simpa [overwrites, hget, RalphStage.launchesFresh] using hkeeps
      have hdisown : (s.disown session).loop.status = s.loop.status ∧
          (s.disown session).loop.handlingStopFingerprint = s.loop.handlingStopFingerprint ∧ (s.disown session).handlers = s.handlers := by
        unfold disown
        split_ifs <;> exact ⟨rfl, rfl, rfl⟩
      have hreaped : reaped = true := hkills
      rw [ite_none_left_eq_some, some.injEq, failLaunch_of_stopped (hdisown.1.symm ▸ hstatus) (hdisown.2.1.symm ▸ hfresh), if_pos hreaped]
        at hstep
      obtain ⟨-, rfl⟩ := hstep
      refine .settle hget (congrArg (delete · handler) hdisown.2.2) hdisown.1 fun session' hmem => ?_
      have hne := List.mem_filter.1 hmem
      exact ⟨hne.1, fun hsession => of_decide_eq_true hne.2 (some.inj hsession).symm⟩
    · cases hstep
  | killed handler ok =>
    simp only [step, killed] at hstep
    split at hstep
    · next fingerprint session relaunch hget =>
      have hended : (if relaunch = true then s.failRunning else s.finish fingerprint).loop.status = s.loop.status ∧
          (if relaunch = true then s.failRunning else s.finish fingerprint).handlers = s.handlers := by
        unfold failRunning finish
        split_ifs <;> exact ⟨rfl, rfl⟩
      have hok : ok = true := hkills
      rw [some.injEq, if_pos hok] at hstep
      subst hstep
      refine .settle hget (congrArg (delete · handler) hended.2) hended.1 fun session' hmem => ?_
      have hne := List.mem_filter.1 hmem
      exact ⟨hne.1, fun hsession => of_decide_eq_true hne.2 (some.inj hsession).symm⟩
    · cases hstep
  | throws handler =>
    simp only [step, throws] at hstep
    split at hstep
    · next fingerprint hget =>
      cases hstep
      split_ifs
      all_goals exact .settle hget rfl rfl fun session hmem => ⟨hmem, nofun⟩
    · next fingerprint loopId hget =>
      cases hstep
      split_ifs
      all_goals exact .settle hget rfl rfl fun session hmem => ⟨hmem, nofun⟩
    · cases hstep

/-- No handler writes over the operator's status, and what is killed is gone. -/
def LeavesStop (terminalRelaunchMax : ℕ) (s : RalphTask) (e : RalphEvent) : Prop :=
  (s.isStopped = true → s.overwrites terminalRelaunchMax e = false) ∧ e.kills = true

instance LeavesStop.decidable (terminalRelaunchMax : ℕ) (s : RalphTask) (e : RalphEvent) : Decidable (LeavesStop terminalRelaunchMax s e) := by
  unfold LeavesStop
  infer_instance

/-- The status is the operator's, and a session that is alive was launched before, or is still being dealt with. -/
structure StopHolds (events : List RalphEvent) (s s' : RalphTask) : Prop where
  status : s'.loop.status = if .cancelLoop ∈ events then .cancelled else .paused
  alive : ∀ session ∈ s'.alive, session ∈ s.alive ∧ ¬s.Launching session ∨ s'.Launching session

theorem StopHolds.isStopped {events : List RalphEvent} (h : StopHolds events s s') : s'.isStopped = true := by
  rw [RalphTask.isStopped, h.status]
  split_ifs <;> rfl

theorem stopHolds_call (hchanges : s.changes e = true) (hstep : s.step terminalRelaunchMax e = some s') : StopHolds [e] s s' := by
  have halive : ∀ session ∈ s.alive, session ∈ s.alive ∧ ¬s.Launching session ∨ s.Launching session := fun session hmem =>
    (em (s.Launching session)).elim .inr fun hnot => .inl ⟨hmem, hnot⟩
  cases e with
  | cancelLoop =>
    cases hstep
    simp only [changes, Bool.or_eq_true, decide_eq_true_eq] at hchanges
    rw [cancelLoop, if_pos hchanges]
    exact ⟨rfl, halive⟩
  | pauseLoop =>
    cases hstep
    simp only [changes, decide_eq_true_eq] at hchanges
    rw [pauseLoop, if_pos hchanges]
    exact ⟨rfl, halive⟩
  | _ => cases hchanges

theorem stopHolds_step {s₀ : RalphTask} {past : List RalphEvent} (h : StopHolds past s₀ s) (hok : LeavesStop terminalRelaunchMax s e ∧ s.resumes e = false)
    (hstep : s.step terminalRelaunchMax e = some s') : StopHolds (past ++ [e]) s₀ s' := by
  have hstays : StaysStopped e s s' := staysStopped_step h.isStopped (hok.1.1 h.isStopped) hok.1.2 hok.2 hstep
  refine ⟨hstays.status.trans ?_, fun session hmem => ?_⟩
  · rw [h.status]
    by_cases hcancel : e = .cancelLoop
    · rw [if_pos hcancel, if_pos (List.mem_append_right past (hcancel ▸ List.mem_cons_self))]
    · rw [if_neg hcancel]
      exact if_congr (by simp [Ne.symm hcancel]) rfl rfl
  · rcases hstays.alive session hmem with hbefore | hlaunching
    · exact (h.alive session hbefore).imp id (hstays.launching session hmem)
    · exact .inr hlaunching

/-- What `cancelLoop` or `pauseLoop` has changed stays so, and no session is left alive that is launched
after that, until the loop is resumed or started anew. -/
theorem stopped_until_resumed {call : RalphEvent} {events : List RalphEvent} (hchanges : s.changes call = true)
    (hok : StepsMeet (step terminalRelaunchMax) (LeavesStop terminalRelaunchMax) s (call :: events))
    (hresumes : StepsMeet (step terminalRelaunchMax) (fun s e => s.resumes e = false) s (call :: events))
    (hrun : exec (step terminalRelaunchMax) s (call :: events) = some s') : StopHolds (call :: events) s s' := by
  obtain ⟨s₁, hcall, hafter⟩ := exec_cons_eq_some.1 hrun
  have hmeets : StepsMeet (step terminalRelaunchMax) (fun s e => LeavesStop terminalRelaunchMax s e ∧ s.resumes e = false) s₁ events :=
    (hok.2 s₁ hcall).and (hresumes.2 s₁ hcall)
  have hstep : ∀ past t e t', StopHolds past s t → LeavesStop terminalRelaunchMax t e ∧ t.resumes e = false →
      t.step terminalRelaunchMax e = some t' → StopHolds (past ++ [e]) s t' := fun _ _ _ _ => stopHolds_step
  exact exec_invariant_log hstep (stopHolds_call hchanges hcall) hmeets hafter

/-- The handler of the first stop is about to launch. -/
def launchingLoop : RalphTask :=
  (exec (step 3) (start 1 fun _ => none) [.found 0 (some 0), .found 1 (some 0), .stop ⟨0, 0⟩, .verdictRead 2, .cycled 2 none, .sampled 2 false,
    .prepared 2]).getD (start 0 fun _ => none)

/-- It is cancelled, and kills what it launches. -/
def cancelledLaunch : List RalphEvent := [.cancelLoop, .created 2, .registered 2, .launched 2, .killed 2 true]

theorem stopped_until_resumed_cancelledLaunch : ∃ s', exec (step 3) launchingLoop cancelledLaunch = some s' ∧ StopHolds cancelledLaunch launchingLoop s' := by
  obtain ⟨s', hrun⟩ : ∃ s', exec (step 3) launchingLoop cancelledLaunch = some s' := ⟨_, rfl⟩
  have hok : StepsMeet (step 3) (LeavesStop 3) launchingLoop cancelledLaunch := by decide +kernel
  have hresumes : StepsMeet (step 3) (fun s e => s.resumes e = false) launchingLoop cancelledLaunch := by decide +kernel
  exact ⟨s', hrun, stopped_until_resumed rfl hok hresumes hrun⟩

/-- The cycler has reached the iteration cap, and the arbiter admits the relaunch. -/
def rearmed : List RalphEvent := [.cycled 2 (some .iterationCap), .sampled 2 true, .prepared 2, .created 2, .registered 2, .launched 2]

/-- A cycler that goes on after the loop has been cancelled completes it, and the relaunch policy re-arms
it: it runs, and has a new session. -/
theorem cancelled_loop_rearmed : ¬∀ (terminalRelaunchMax sessions : ℕ) (latestStop : ℕ → Option ℕ) (past : List RalphEvent) (call : RalphEvent)
    (events : List RalphEvent) (s s' : RalphTask), exec (step terminalRelaunchMax) (start sessions latestStop) past = some s → s.changes call = true →
      (∀ e ∈ events, e.kills = true) → StepsMeet (step terminalRelaunchMax) (fun s e => s.resumes e = false) s (call :: events) →
        exec (step terminalRelaunchMax) s (call :: events) = some s' → StopHolds (call :: events) s s' := by
  intro h
  obtain ⟨s, hpast, hchanges, hresumes, s', hrun, hstatus⟩ : ∃ s,
      exec (step 3) (start 1 fun _ => none) [.found 0 (some 0), .found 1 (some 0), .stop ⟨0, 0⟩, .verdictRead 2] = some s ∧ s.changes .cancelLoop = true ∧
        StepsMeet (step 3) (fun s e => s.resumes e = false) s (.cancelLoop :: rearmed) ∧
          ∃ s', exec (step 3) s (.cancelLoop :: rearmed) = some s' ∧ s'.loop.status = .running :=
    ⟨_, rfl, rfl, by decide +kernel, _, rfl, rfl⟩
  have hholds := h 3 1 _ _ .cancelLoop rearmed s s' hpast hchanges (by decide) hresumes hrun
  rw [hholds.status] at hstatus
  cases hstatus

end RalphTask

end Kookr.Server
