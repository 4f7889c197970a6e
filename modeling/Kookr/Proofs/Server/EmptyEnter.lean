import Kookr.Proofs.Server.InputServed

/-! An empty Enter is accepted at a prompt that was observed ready: what a snapshot has seen still holds while the
readiness version is the same, and the liveness test keeps the turn. -/

namespace Kookr.Server.TerminalInputCoordinator

open Kookr.Lib List OrderedMap

variable {c c' : TerminalInputCoordinator} {e : InputEvent} {op : InputOperation} {stage : OperationStage}
variable {log entries : List InputLog} {sessionId : String} {epoch version i : ℕ} {state state' : TerminalInputState}
variable {objects : List TerminalInputState} {states : OrderedMap String ℕ}

/-- A write that was accepted, or an invalidation, on the session. -/
def Disturbs (sessionId : String) (entry : InputLog) : Prop := entry = .accepted sessionId ∨ entry = .invalidated sessionId

/-- Nothing has disturbed the session since the entry at `i`. -/
def Undisturbed (log : List InputLog) (sessionId : String) (i : ℕ) : Prop :=
  ∀ j entry, i < j → log[j]? = some entry → ¬ Disturbs sessionId entry

/-- A mark for the version was carried out, and it was called with a snapshot that was taken when no write was in
flight; nothing has disturbed the session since that snapshot. -/
def FreshMark (log : List InputLog) (sessionId : String) (epoch version : ℕ) : Prop :=
  ∃ i j k call : ℕ, i < j ∧ j < k ∧ log[i]? = some (.snapshot sessionId epoch version true) ∧
    log[j]? = some (.markCalled call sessionId ⟨epoch, version⟩) ∧ log[k]? = some (.markedReady call sessionId epoch version) ∧
    Undisturbed log sessionId i

/-- The session is registered with the epoch of a valid decision, and its prompt was freshly observed. -/
def FreshlyAnswered (before : List InputLog) : InputLog → Prop
  | .decided (.validEmptyEnter _ _ sessionId epoch version) current => current = some epoch ∧ FreshMark before sessionId epoch version
  | _ => True

theorem getElem?_append_cases {j : ℕ} {entry : InputLog} (h : (log ++ entries)[j]? = some entry) : log[j]? = some entry ∨ entry ∈ entries := by
  rw [getElem?_append] at h
  split at h
  · exact .inl h
  · exact .inr (mem_of_getElem? h)

theorem getElem?_append_of_some {j : ℕ} {entry : InputLog} (h : log[j]? = some entry) : (log ++ entries)[j]? = some entry := by
  rw [List.getElem?_append_left (List.getElem?_eq_some_iff.1 h).1, h]

theorem Undisturbed.extend (h : Undisturbed log sessionId i) (hentries : ∀ entry ∈ entries, ¬ Disturbs sessionId entry) :
    Undisturbed (log ++ entries) sessionId i := by
  intro j entry hij hentry
  rcases getElem?_append_cases hentry with hold | hnew
  · exact h j entry hij hold
  · exact hentries entry hnew

theorem FreshMark.extend (h : FreshMark log sessionId epoch version) (hentries : ∀ entry ∈ entries, ¬ Disturbs sessionId entry) :
    FreshMark (log ++ entries) sessionId epoch version := by
  obtain ⟨i, j, k, call, hij, hjk, hi, hj, hk, hsince⟩ := h
  exact ⟨i, j, k, call, hij, hjk, getElem?_append_of_some hi, getElem?_append_of_some hj, getElem?_append_of_some hk, hsince.extend hentries⟩

/-- What the log says about the state that a session has. -/
structure Sound (log : List InputLog) (sessionId : String) (epoch : ℕ) (state : TerminalInputState) : Prop where
  snapshots : ∀ i version quiet, log[i]? = some (.snapshot sessionId epoch version quiet) → version ≤ state.readinessVersion ∧
    (version = state.readinessVersion → Undisturbed log sessionId i)
  ready : ∀ version, state.prompt = .ready version → version = state.readinessVersion ∧ FreshMark log sessionId epoch version

/-- Entries that say nothing about the session. -/
def Silent (sessionId : String) (entries : List InputLog) : Prop :=
  ∀ entry ∈ entries, ¬ Disturbs sessionId entry ∧ ∀ epoch version quiet, entry ≠ .snapshot sessionId epoch version quiet

section

variable (h : Sound log sessionId epoch state)
include h

theorem Sound.extend (hsilent : Silent sessionId entries) : Sound (log ++ entries) sessionId epoch state := by
  refine ⟨fun i version quiet hsnapshot => ?_, fun version hready => ?_⟩
  · rcases getElem?_append_cases hsnapshot with hold | hnew
    · obtain ⟨hle, hsince⟩ := h.snapshots i version quiet hold
      exact ⟨hle, fun heq => (hsince heq).extend fun entry hentry => (hsilent entry hentry).1⟩
    · exact absurd rfl ((hsilent _ hnew).2 epoch version quiet)
  · obtain ⟨heq, hfresh⟩ := h.ready version hready
    exact ⟨heq, hfresh.extend fun entry hentry => (hsilent entry hentry).1⟩

theorem Sound.congr (hversion : state'.readinessVersion = state.readinessVersion)
    (hprompt : state'.prompt = state.prompt) : Sound log sessionId epoch state' := by
  refine ⟨?_, ?_⟩
  · rw [hversion]
    exact h.snapshots
  · rw [hversion, hprompt]
    exact h.ready

/-- A new version makes what was seen stale. -/
theorem Sound.bump (hversion : state'.readinessVersion = state.readinessVersion + 1)
    (hprompt : ∀ version, state'.prompt ≠ .ready version)
    (hentries : ∀ entry ∈ entries, ∀ epoch version quiet, entry ≠ .snapshot sessionId epoch version quiet) :
    Sound (log ++ entries) sessionId epoch state' := by
  refine ⟨fun i version quiet hsnapshot => ?_, fun version hready => absurd hready (hprompt version)⟩
  rcases getElem?_append_cases hsnapshot with hold | hnew
  · have hle := (h.snapshots i version quiet hold).1
    exact ⟨by omega, fun heq => by omega⟩
  · exact absurd rfl (hentries _ hnew epoch version quiet)

theorem Sound.snapshot (quiet : Bool) :
    Sound (log ++ [.snapshot sessionId epoch state.readinessVersion quiet]) sessionId epoch state := by
  have hentries : ∀ entry ∈ [InputLog.snapshot sessionId epoch state.readinessVersion quiet], ¬ Disturbs sessionId entry := by simp [Disturbs]
  refine ⟨fun i version quiet' hsnapshot => ?_, fun version hready => ?_⟩
  · rcases getElem?_concat_cases hsnapshot with ⟨rfl, heq⟩ | hold
    · cases heq
      refine ⟨Nat.le_refl _, fun _ j entry hj hentry => ?_⟩
      have hlt := (List.getElem?_eq_some_iff.1 hentry).1
      rw [length_append, length_singleton] at hlt
      omega
    · obtain ⟨hle, hsince⟩ := h.snapshots i version quiet' hold
      exact ⟨hle, fun heq => (hsince heq).extend hentries⟩
  · obtain ⟨heq, hfresh⟩ := h.ready version hready
    exact ⟨heq, hfresh.extend hentries⟩

theorem Sound.mark {i j call : ℕ} (hij : i < j) (hi : log[i]? = some (.snapshot sessionId epoch state.readinessVersion true))
    (hj : log[j]? = some (.markCalled call sessionId ⟨epoch, state.readinessVersion⟩))
    (hversion : state'.readinessVersion = state.readinessVersion) (hprompt : state'.prompt = .ready state.readinessVersion) :
    Sound (log ++ [.markedReady call sessionId epoch state.readinessVersion]) sessionId epoch state' := by
  have hsilent : Silent sessionId [.markedReady call sessionId epoch state.readinessVersion] := by simp [Silent, Disturbs]
  have hsnapshots := (h.extend hsilent).snapshots
  refine ⟨by rwa [hversion], fun version hready => ?_⟩
  rw [hprompt] at hready
  obtain rfl := PromptStatus.ready.inj hready
  refine ⟨hversion.symm, i, j, log.length, call, hij, (List.getElem?_eq_some_iff.1 hj).1, getElem?_append_of_some hi,
    getElem?_append_of_some hj, getElem?_concat_length, ?_⟩
  exact ((h.snapshots i _ true hi).2 rfl).extend fun entry hentry => (hsilent entry hentry).1

end

structure Observed (objects : List TerminalInputState) (states : OrderedMap String ℕ) (log : List InputLog) : Prop where
  sound : ∀ sessionId epoch state, states.get sessionId = some epoch → objects[epoch]? = some state → Sound log sessionId epoch state
  taken : ∀ sessionId epoch version quiet, .snapshot sessionId epoch version quiet ∈ log →
    ∃ state, objects[epoch]? = some state ∧ state.sessionId = sessionId

section

variable (h : Observed objects states log)
include h

theorem Observed.withState (hstate : objects[epoch]? = some state)
    (hsession : state'.sessionId = state.sessionId) (hversion : state'.readinessVersion = state.readinessVersion)
    (hprompt : state'.prompt = state.prompt) : Observed (objects.set epoch state') states log := by
  refine ⟨fun sessionId other state'' hcurrent hother => ?_, fun sessionId other version quiet hsnapshot =>
    owner_set hstate hsession (h.taken sessionId other version quiet hsnapshot)⟩
  rcases getElem?_set_cases hother with ⟨rfl, rfl⟩ | ⟨-, hother⟩
  · exact (h.sound sessionId other state hcurrent hstate).congr hversion hprompt
  · exact h.sound sessionId other state'' hcurrent hother

theorem Observed.extend (hsilent : ∀ sessionId, Silent sessionId entries) : Observed objects states (log ++ entries) := by
  refine ⟨fun sessionId epoch state hcurrent hstate => (h.sound sessionId epoch state hcurrent hstate).extend (hsilent sessionId),
    fun sessionId epoch version quiet hsnapshot => ?_⟩
  rcases mem_append.1 hsnapshot with hold | hnew
  · exact h.taken sessionId epoch version quiet hold
  · exact absurd rfl ((hsilent sessionId _ hnew).2 epoch version quiet)

theorem Observed.update (hfenced : Fenced objects states log) (hcurrent : states.get sessionId = some epoch)
    (hstate : objects[epoch]? = some state) (hsound : Sound (log ++ entries) sessionId epoch state') (hsession : state'.sessionId = state.sessionId)
    (hentries : ∀ other, other ≠ sessionId → Silent other entries)
    (htaken : ∀ other epoch version quiet, .snapshot other epoch version quiet ∈ entries → ∃ state, objects[epoch]? = some state ∧ state.sessionId = other) :
    Observed (objects.set epoch state') states (log ++ entries) := by
  refine ⟨fun other epoch' state'' hother hobject => ?_, fun other epoch' version quiet hsnapshot => ?_⟩
  · by_cases hsame : other = sessionId
    · subst hsame
      rw [hcurrent] at hother
      cases hother
      rw [List.getElem?_set_self (List.getElem?_eq_some_iff.1 hstate).1] at hobject
      cases hobject
      exact hsound
    · have hne : epoch ≠ epoch' := fun heq => hsame (hfenced.session_eq hother (heq ▸ hcurrent))
      rw [getElem?_set_ne hne] at hobject
      exact (h.sound other epoch' state'' hother hobject).extend (hentries other hsame)
  · refine owner_set hstate hsession ?_
    rcases mem_append.1 hsnapshot with hold | hnew
    · exact h.taken other epoch' version quiet hold
    · exact htaken other epoch' version quiet hnew

theorem Observed.register (hfenced : Fenced objects states log) (sessionId : String) :
    Observed (objects ++ [{ sessionId := sessionId }]) (states.set sessionId objects.length) log := by
  refine ⟨fun other epoch state hother hstate => ?_, fun other epoch version quiet hsnapshot => ?_⟩
  · rcases get_set_some hother with ⟨-, rfl⟩ | ⟨-, hother⟩
    · rw [getElem?_concat_length] at hstate
      cases hstate
      refine ⟨fun i version quiet hsnapshot => ?_, nofun⟩
      obtain ⟨owned, howned, -⟩ := h.taken other _ version quiet (mem_of_getElem? hsnapshot)
      exact absurd (List.getElem?_eq_some_iff.1 howned).1 (Nat.lt_irrefl _)
    · rcases getElem?_concat_cases hstate with ⟨rfl, -⟩ | hstate
      · obtain ⟨owned, howned, -⟩ := hfenced.owner other _ hother
        exact absurd (List.getElem?_eq_some_iff.1 howned).1 (Nat.lt_irrefl _)
      · exact h.sound other epoch state hother hstate
  · obtain ⟨owned, howned, hof⟩ := h.taken other epoch version quiet hsnapshot
    exact ⟨owned, getElem?_concat_of_some howned, hof⟩

theorem Observed.restrict {states' : OrderedMap String ℕ}
    (hsub : ∀ sessionId epoch, states'.get sessionId = some epoch → states.get sessionId = some epoch) : Observed objects states' log :=
  { h with sound := fun sessionId epoch state hcurrent => h.sound sessionId epoch state (hsub sessionId epoch hcurrent) }

end

/-- A mark is called with what a snapshot showed when no write was in flight, and no session is retired during its liveness
test. -/
def Heeded (c : TerminalInputCoordinator) : InputEvent → Prop
  | .markPromptReady _ observed => c.log.any (fun entry => match entry with
      | .snapshot _ epoch version quiet => epoch = observed.observedEpoch && version = observed.observedReadinessVersion && quiet
      | _ => false) = true
  | .cleanupSession sessionId => ∀ op ∈ c.operations, op.sessionId = sessionId → op.stage ≠ .checkingAlive
  | .dispose => ∀ op ∈ c.operations, op.stage ≠ .checkingAlive
  | _ => True

instance (c : TerminalInputCoordinator) (e : InputEvent) : Decidable (Heeded c e) := by
  cases e <;> unfold Heeded <;> infer_instance

/-- The mark was called after a snapshot that showed what it carries when no write was in flight. -/
def MarkCalled (log : List InputLog) (op : InputOperation) (observed : ObservedReadiness) : Prop :=
  ∃ (i j : ℕ) (sessionId : String), i < j ∧
    log[i]? = some (.snapshot sessionId observed.observedEpoch observed.observedReadinessVersion true) ∧
    log[j]? = some (.markCalled op.call op.sessionId observed)

/-- The calls of the operations that wait: each mark after its snapshot, each intent on its session. -/
structure Called (operations : List InputOperation) (log : List InputLog) : Prop where
  marks : ∀ op ∈ operations, ∀ observed pending, op.request = .markPromptReady observed pending → MarkCalled log op observed
  intents : ∀ op ∈ operations, ∀ request, op.request = .emptyEnter request → op.sessionId = request.sessionId

variable {operations : List InputOperation}

theorem Called.extend (h : Called operations log) : Called operations (log ++ entries) := by
  refine ⟨fun op hop observed pending hrequest => ?_, h.intents⟩
  obtain ⟨i, j, sessionId, hij, hi, hj⟩ := h.marks op hop observed pending hrequest
  exact ⟨i, j, sessionId, hij, getElem?_append_of_some hi, getElem?_append_of_some hj⟩

theorem Called.erase (h : Called operations log) (op : InputOperation) : Called (operations.erase op) log :=
  ⟨fun other hother => h.marks other (mem_of_mem_erase hother), fun other hother => h.intents other (mem_of_mem_erase hother)⟩

theorem Called.setStage (h : Called c.operations log) (call : ℕ) : Called (c.setStage call stage).operations log := by
  refine ⟨fun op hop => ?_, fun op hop => ?_⟩
  · rcases mem_setStage hop with ⟨hold, -⟩ | ⟨a, ha, -, rfl⟩
    · exact h.marks op hold
    · exact h.marks a ha
  · rcases mem_setStage hop with ⟨hold, -⟩ | ⟨a, ha, -, rfl⟩
    · exact h.intents op hold
    · exact h.intents a ha

theorem Called.append (h : Called operations log) (op : InputOperation)
    (hmark : ∀ observed pending, op.request = .markPromptReady observed pending → MarkCalled log op observed)
    (hintent : ∀ request, op.request = .emptyEnter request → op.sessionId = request.sessionId) : Called (operations ++ [op]) log := by
  refine ⟨fun other hother => ?_, fun other hother => ?_⟩
  · rcases mem_concat_cases hother with hother | rfl
    · exact h.marks other hother
    · exact hmark
  · rcases mem_concat_cases hother with hother | rfl
    · exact h.intents other hother
    · exact hintent

def Checking (operations : List InputOperation) (states : OrderedMap String ℕ) (objects : List TerminalInputState) : Prop :=
  ∀ op ∈ operations, op.stage = .checkingAlive → states.get op.sessionId = some op.epoch ∧
    ∃ state, objects[op.epoch]? = some state ∧ state.prompt = .ready state.readinessVersion

section

variable (h : Checking operations states objects)
include h

theorem Checking.withState (hstate : objects[epoch]? = some state)
    (hversion : state'.readinessVersion = state.readinessVersion) (hprompt : state'.prompt = state.prompt) :
    Checking operations states (objects.set epoch state') := by
  intro op hop hstage
  obtain ⟨hcurrent, found, hfound, hready⟩ := h op hop hstage
  refine ⟨hcurrent, ?_⟩
  by_cases heq : epoch = op.epoch
  · subst heq
    rw [hstate] at hfound
    cases hfound
    exact ⟨state', List.getElem?_set_self (List.getElem?_eq_some_iff.1 hstate).1, by rw [hversion, hprompt, hready]⟩
  · exact ⟨found, by rwa [getElem?_set_ne heq], hready⟩

/-- The state of the operation that has the turn is not one that a liveness test relies on. -/
theorem Checking.update {calls : ℕ} (hqueues : Queues operations calls objects.length)
    (hturn : Turn operations op) (hstage : op.stage ≠ .checkingAlive) (state' : TerminalInputState) :
    Checking operations states (objects.set op.epoch state') := by
  intro other hother hchecking
  obtain ⟨hcurrent, found, hfound, hready⟩ := h other hother hchecking
  refine ⟨hcurrent, found, ?_, hready⟩
  have hne : op.epoch ≠ other.epoch := by
    intro heq
    have hotherTurn := hqueues.turn hother (by rw [hchecking]; simp) (by rw [hchecking]; rfl)
    obtain rfl := hotherTurn.eq hqueues hturn heq.symm
    exact hstage hchecking
  rwa [getElem?_set_ne hne]

theorem Checking.erase (op : InputOperation) : Checking (operations.erase op) states objects :=
  fun other hother => h other (mem_of_mem_erase hother)

omit h in
theorem Checking.setStage (h : Checking c.operations states objects) (call : ℕ) (hstage : stage ≠ .checkingAlive) :
    Checking (c.setStage call stage).operations states objects := by
  intro op hop hchecking
  rcases mem_setStage hop with ⟨hold, -⟩ | ⟨a, -, -, rfl⟩
  · exact h op hold hchecking
  · exact absurd hchecking hstage

theorem Checking.append (op : InputOperation) (hstage : op.stage = .queued) : Checking (operations ++ [op]) states objects := by
  intro other hother hchecking
  rcases mem_concat_cases hother with hother | rfl
  · exact h other hother hchecking
  · rw [hstage] at hchecking
    cases hchecking

end

structure Trusted (c : TerminalInputCoordinator) : Prop where
  queues : Queues c.operations c.calls c.objects.length
  fenced : Fenced c.objects c.states c.log
  observed : Observed c.objects c.states c.log
  called : Called c.operations c.log
  checking : Checking c.operations c.states c.objects
  answered : Along FreshlyAnswered c.log

theorem silent_declined (hentries : ∀ entry ∈ entries, Declines entry) (sessionId : String) : Silent sessionId entries := by
  intro entry hentry
  have hdeclines := hentries entry hentry
  cases entry with
  | decided => simp [Disturbs]
  | _ => cases hdeclines

/-- A mark that is carried out was called with a snapshot of its own session. -/
theorem Trusted.mark_sound (h : Trusted c) {observed : ObservedReadiness} {pending : Bool} (hop : op ∈ c.operations)
    (hstate : c.objects[op.epoch]? = some state) (hcurrent : c.states.get op.sessionId = some op.epoch)
    (hrequest : op.request = .markPromptReady observed pending) (haccepts : acceptsMark op.epoch state observed pending = true) :
    Sound (c.log ++ [.markedReady op.call op.sessionId op.epoch state.readinessVersion]) op.sessionId op.epoch
      { state with prompt := .ready state.readinessVersion, queuedOperations := state.queuedOperations - 1 } := by
  obtain ⟨i, j, sessionId, hij, hi, hj⟩ := h.called.marks op hop observed pending hrequest
  obtain ⟨observedEpoch, observedVersion⟩ := observed
  simp only [acceptsMark, Bool.and_eq_true, decide_eq_true_eq] at haccepts
  obtain ⟨⟨⟨⟨-, rfl⟩, rfl⟩, -⟩, -⟩ := haccepts
  obtain ⟨owned, howned, rfl⟩ := h.observed.taken sessionId op.epoch _ true (mem_of_getElem? hi)
  obtain ⟨owned', howned', hsession⟩ := h.fenced.owner op.sessionId op.epoch hcurrent
  obtain rfl : owned = owned' := Option.some.inj (howned.symm.trans howned')
  rw [hsession] at hi
  exact (h.observed.sound op.sessionId op.epoch state hcurrent hstate).mark hij hi hj rfl rfl

section

variable (hstep : InputStep c e c')
include hstep

theorem InputStep.observed (h : Trusted c) : Observed c'.objects c'.states c'.log := by
  have hobserved := h.observed
  cases hstep with
  | idle => exact hobserved
  | register sessionId => exact hobserved.register h.fenced sessionId
  | cleanup sessionId epoch hcurrent =>
    refine .extend (hobserved.restrict fun other epoch' hother => ?_) (by simp [Silent, Disturbs])
    have hdeleted : (c.states.delete sessionId).get other = some epoch' := hother
    exact (get_delete_some hdeleted).2
  | dispose =>
    refine .extend (hobserved.restrict fun other epoch' hother => ?_) (by simp [Silent, Disturbs])
    have hempty : (empty : OrderedMap String ℕ).get other = some epoch' := hother
    cases hempty
  | snapshot sessionId epoch state hcurrent hstate =>
    have hsame : c.objects.set epoch state = c.objects := by
      obtain ⟨hlt, rfl⟩ := List.getElem?_eq_some_iff.1 hstate
      exact set_getElem_self hlt
    have hupdate := hobserved.update h.fenced hcurrent hstate
      ((hobserved.sound sessionId epoch state hcurrent hstate).snapshot
        (c.operations.all fun op => op.sessionId ≠ sessionId || !op.stage.isPending)) rfl
      (fun other hother => by simp [Silent, Disturbs, Ne.symm hother])
      (fun other epoch' version quiet hmem => by
        cases mem_singleton.1 hmem
        exact h.fenced.owner sessionId epoch hcurrent)
    rwa [hsame] at hupdate
  | submit sessionId epoch state request hcurrent hstate => exact hobserved.withState hstate rfl rfl rfl
  | mark sessionId observed epoch state hcurrent hstate => exact .extend (hobserved.withState hstate rfl rfl rfl) (by simp [Silent, Disturbs])
  | begin op state payloads rest hop hstate hstage hwaits hcurrent =>
    have hsound : Sound (c.log ++ [.accepted op.sessionId]) op.sessionId op.epoch
        { state with readinessVersion := state.readinessVersion + 1, prompt := .unknown, pendingWrites := state.pendingWrites + 1 } :=
      (hobserved.sound op.sessionId op.epoch state hcurrent hstate).bump rfl (by simp) (by simp)
    have hupdate := hobserved.update h.fenced hcurrent hstate hsound rfl (fun other hother => by simp [Silent, Disturbs, Ne.symm hother]) (by simp)
    exact .extend hupdate (by simp [Silent, Disturbs])
  | invalidate op state mark hop hstate hstage hwaits hcurrent =>
    have hsound : Sound (c.log ++ [.invalidated op.sessionId]) op.sessionId op.epoch
        { state with readinessVersion := state.readinessVersion + 1, prompt := mark.prompt, queuedOperations := state.queuedOperations - 1 } :=
      (hobserved.sound op.sessionId op.epoch state hcurrent hstate).bump rfl (fun version => by cases mark <;> simp [ReadinessMark.prompt]) (by simp)
    exact hobserved.update h.fenced hcurrent hstate hsound rfl (fun other hother => by simp [Silent, Disturbs, Ne.symm hother]) (by simp)
  | markReady op state observed pending hop hstate hstage hwaits hcurrent hrequest haccepts =>
    exact hobserved.update h.fenced hcurrent hstate (h.mark_sound hop hstate hcurrent hrequest haccepts) rfl
      (fun other hother => by simp [Silent, Disturbs]) (by simp)
  | decline op state entries hop hstate hstage hbytes hentries =>
    exact (hobserved.extend fun sessionId => silent_declined hentries sessionId).withState hstate rfl rfl rfl
  | check => exact hobserved
  | rejectWrite op state hop hstate => exact hobserved.withState hstate rfl rfl rfl
  | sleep => exact hobserved
  | proceed => exact .extend hobserved (by simp [Silent, Disturbs])
  | finish op state succeeded inFlight hop hstate => exact hobserved.withState hstate rfl rfl rfl
  | answer op state request hop hstate => exact .withState (.extend hobserved (by simp [Silent, Disturbs])) hstate rfl rfl rfl
  | release op state hop hstate => exact hobserved.withState hstate rfl rfl rfl

theorem InputStep.called (h : Called c.operations c.log) (hheeded : Heeded c e) : Called c'.operations c'.log := by
  cases hstep with
  | idle | register => exact h
  | cleanup | dispose | snapshot => exact h.extend
  | submit sessionId epoch state request hcurrent hstate hfits hmark hintent =>
    exact h.append _ (fun observed pending hrequest => absurd hrequest (hmark observed pending)) hintent
  | mark sessionId observed epoch state hcurrent hstate =>
    refine h.extend.append _ (fun observed' pending hrequest => ?_) nofun
    obtain ⟨rfl, -⟩ := InputRequest.markPromptReady.inj hrequest
    obtain ⟨entry, hentry, hsnapshot⟩ := any_eq_true.1 hheeded
    obtain ⟨i, hi⟩ := mem_iff_getElem?.1 hentry
    cases entry with
    | snapshot owner epoch' version quiet =>
      simp only [Bool.and_eq_true, decide_eq_true_eq] at hsnapshot
      obtain ⟨⟨rfl, rfl⟩, rfl⟩ := hsnapshot
      exact ⟨i, c.log.length, owner, (List.getElem?_eq_some_iff.1 hi).1, getElem?_append_of_some hi, List.getElem?_concat_length⟩
    | _ => cases hsnapshot
  | begin op => exact (h.extend.extend).setStage op.call
  | invalidate op | markReady op | decline op => exact h.extend.erase op
  | check op | rejectWrite op | sleep op => exact h.setStage op.call
  | proceed op => exact h.extend.setStage op.call
  | finish op => exact h.setStage op.call
  | answer op => exact h.extend.erase op
  | release op => exact h.erase op

theorem InputStep.checking (hqueues : Queues c.operations c.calls c.objects.length)
    (h : Checking c.operations c.states c.objects) (hheeded : Heeded c e) : Checking c'.operations c'.states c'.objects := by
  have hqueued : ∀ {op : InputOperation}, op.stage = .queued → op.stage ≠ .checkingAlive := fun hstage => by rw [hstage]; simp
  cases hstep with
  | idle => exact h
  | register sessionId hnew =>
    intro op hop hstage
    obtain ⟨hcurrent, state, hstate, hready⟩ := h op hop hstage
    refine ⟨?_, state, getElem?_concat_of_some hstate, hready⟩
    have hne : sessionId ≠ op.sessionId := by
      rintro rfl
      rw [hnew] at hcurrent
      cases hcurrent
    exact (get_set_of_ne _ _ hne).trans hcurrent
  | cleanup sessionId epoch =>
    intro op hop hstage
    obtain ⟨hcurrent, hready⟩ := h op hop hstage
    refine ⟨?_, hready⟩
    have hne : sessionId ≠ op.sessionId := fun heq => hheeded op hop heq.symm hstage
    exact (get_delete _ _ _).trans ((if_neg hne).trans hcurrent)
  | dispose => exact fun op hop hstage => absurd hstage (hheeded op hop)
  | snapshot => exact h
  | submit sessionId epoch state request hcurrent hstate | mark sessionId observed epoch state hcurrent hstate =>
    exact (h.append _ rfl).withState hstate rfl rfl
  | begin op state payloads rest hop hstate hstage hwaits =>
    exact (h.update hqueues (turn_of_waits hop hstage hwaits) (hqueued hstage) _).setStage op.call (by simp)
  | invalidate op state mark hop hstate hstage hwaits | markReady op state observed pending hop hstate hstage hwaits =>
    exact (h.update hqueues (turn_of_waits hop hstage hwaits) (hqueued hstage) _).erase op
  | decline op state entries hop hstate => exact (h.erase op).withState hstate rfl rfl
  | check op state request hop hstate hstage hwaits hcurrent hrequest haccepts =>
    intro other hother hchecking
    rcases hqueues.mem_setStage hop hother with ⟨hold, -⟩ | rfl
    · exact h other hold hchecking
    · refine ⟨hcurrent, state, hstate, ?_⟩
      unfold rejectsIntent at haccepts
      split_ifs at haccepts with hepoch hversion
      split at haccepts
      · cases haccepts
      · cases haccepts
      · next version hprompt =>
        split_ifs at haccepts with hready
        rw [not_not] at hversion hready
        rw [hprompt, hready, hversion]
  | rejectWrite op state hop hstate => exact .withState (h.setStage op.call (by simp)) hstate rfl rfl
  | sleep op | proceed op => exact h.setStage op.call (by simp)
  | finish op state succeeded inFlight hop hstate => exact .withState (h.setStage op.call (by simp)) hstate rfl rfl
  | answer op state request hop hstate | release op state hop hstate => exact (h.erase op).withState hstate rfl rfl

theorem InputStep.answered (h : Trusted c) : Along FreshlyAnswered c'.log := by
  have hlog := h.answered
  have hsilent : ∀ {entries : List InputLog}, (∀ entry ∈ entries, ∀ before, FreshlyAnswered before entry) → Along FreshlyAnswered (c.log ++ entries) :=
    fun hentries => along_extend hlog hentries
  cases hstep with
  | idle | register => exact hlog
  | cleanup | dispose | snapshot => exact hsilent (by simp [FreshlyAnswered])
  | submit => exact hlog
  | mark => exact hsilent (by simp [FreshlyAnswered])
  | begin => exact along_extend (hsilent (by simp [FreshlyAnswered])) (by simp [FreshlyAnswered])
  | invalidate | markReady => exact hsilent (by simp [FreshlyAnswered])
  | decline op state entries hop hstate hstage hbytes hentries =>
    refine hsilent fun entry hentry before => ?_
    have hdeclines := hentries entry hentry
    cases entry with
    | decided decision =>
      cases decision with
      | rejected => trivial
      | validEmptyEnter => cases hdeclines
    | _ => trivial
  | check | rejectWrite | sleep => exact hlog
  | proceed => exact hsilent (by simp [FreshlyAnswered])
  | finish => exact hlog
  | answer op state request hop hstate hstage hrequest =>
    obtain ⟨hcurrent, found, hfound, hready⟩ := h.checking op hop hstage
    obtain rfl : state = found := Option.some.inj (hstate.symm.trans hfound)
    obtain ⟨-, hfresh⟩ := (h.observed.sound op.sessionId op.epoch state hcurrent hstate).ready _ hready
    rw [h.called.intents op hop request hrequest] at hfresh
    exact hlog.concat ⟨hcurrent, hfresh⟩
  | release => exact hlog

theorem InputStep.trusted (h : Trusted c) (hheeded : Heeded c e) : Trusted c' :=
  ⟨hstep.queues h.queues, hstep.fenced h.fenced, hstep.observed h, hstep.called h.called hheeded,
    hstep.checking h.queues h.checking hheeded, hstep.answered h⟩

end

theorem Trusted.step (h : Trusted c) (hheeded : Heeded c e) (hstep : c.step e = some c') : Trusted c' := by
  rcases step_cases hstep with hstep | ⟨⟨c₁, hfirst, hsecond⟩, hwrite⟩
  · exact hstep.trusted h hheeded
  · have hheeded' : Heeded c₁ e := by
      rcases hwrite with ⟨sessionId, payload, rfl⟩ | ⟨sessionId, payloads, paced, rfl⟩ <;> trivial
    exact hsecond.trusted (hfirst.trusted h hheeded) hheeded'

theorem trusted_start : Trusted start where
  queues := served_start.queues
  fenced := served_start.fenced
  observed := by constructor <;> simp [start]
  called := by constructor <;> simp [start]
  checking := by simp [start, Checking]
  answered := along_nil

/-- Where marks carry what was seen with no write in flight, and no session is retired during its liveness test, an empty
Enter is found valid only for the epoch that its session has, at a prompt that was freshly observed. -/
theorem empty_enter_fresh {events : List InputEvent} (hheeded : StepsMeet step Heeded start events) (hrun : exec step start events = some c) :
    Along FreshlyAnswered c.log := by
  have h : Trusted c := exec_invariant (fun _ _ _ h hheeded hstep => h.step hheeded hstep) trusted_start hheeded hrun
  exact h.answered

def emptyIntent (version : ℕ) : EmptyEnterIntentRequest := ⟨"intent-1", "task-1", "s1", 0, version⟩

def readyThenEnter : List InputEvent :=
  [.registerSession "s1", .writeInput "s1" [13], .start 0, .written ⟨0, 0, "s1", 0, [[13]]⟩ true, .settle 0, .getSnapshot "s1",
    .markPromptReady "s1" ⟨0, 1⟩, .start 1, .handleEmptyEnterIntent (emptyIntent 1), .start 2, .aliveAnswered 2 true]

theorem empty_enter_fresh_readyThenEnter : ∃ c, exec step start readyThenEnter = some c ∧ Along FreshlyAnswered c.log := by
  obtain ⟨c, hrun⟩ : ∃ c, exec step start readyThenEnter = some c := Option.isSome_iff_exists.1 (by decide +kernel)
  exact ⟨c, hrun, empty_enter_fresh (by decide +kernel) hrun⟩

/-- The session is retired while the backend is asked whether it is alive. -/
def retiredDuringCheck : List InputEvent :=
  [.registerSession "s1", .getSnapshot "s1", .markPromptReady "s1" ⟨0, 0⟩, .start 0, .handleEmptyEnterIntent (emptyIntent 0), .start 1,
    .cleanupSession "s1", .aliveAnswered 1 true]

/-- The snapshot is taken while the write is in flight, and the mark is called when it has completed. -/
def observedInFlight : List InputEvent :=
  [.registerSession "s1", .writeInput "s1" [13], .start 0, .getSnapshot "s1", .written ⟨0, 0, "s1", 0, [[13]]⟩ true, .settle 0,
    .markPromptReady "s1" ⟨0, 1⟩, .start 1, .handleEmptyEnterIntent (emptyIntent 1), .start 2, .aliveAnswered 2 true]

theorem retiredDuringCheck_log : (exec step start retiredDuringCheck).map TerminalInputCoordinator.log =
    some ([.snapshot "s1" 0 0 true, .markCalled 0 "s1" ⟨0, 0⟩, .markedReady 0 "s1" 0 0, .retired 0] ++
      .decided (.validEmptyEnter "intent-1" "task-1" "s1" 0 0) none :: []) := by decide +kernel

theorem observedInFlight_log : (exec step start observedInFlight).map TerminalInputCoordinator.log =
    some ([.accepted "s1", .started ⟨0, 0, "s1", 0, [[13]]⟩, .snapshot "s1" 0 1 false, .markCalled 1 "s1" ⟨0, 1⟩, .markedReady 1 "s1" 0 1] ++
      .decided (.validEmptyEnter "intent-1" "task-1" "s1" 0 1) (some 0) :: []) := by decide +kernel

/-- An intent on a retired session is found valid, and so is one at a prompt that was seen before its write was done. -/
theorem stale_enter_accepted : (∃ c, exec step start retiredDuringCheck = some c ∧
      .decided (.validEmptyEnter "intent-1" "task-1" "s1" 0 0) none ∈ c.log ∧ ¬ Along FreshlyAnswered c.log) ∧
    ∃ c, exec step start observedInFlight = some c ∧ .decided (.validEmptyEnter "intent-1" "task-1" "s1" 0 1) (some 0) ∈ c.log ∧
      ¬ Along FreshlyAnswered c.log := by
  constructor
  · obtain ⟨c, hrun, hlog⟩ := Option.map_eq_some_iff.1 retiredDuringCheck_log
    refine ⟨c, hrun, by simp [hlog], fun hfresh => ?_⟩
    obtain ⟨hcurrent, -⟩ := hfresh _ _ _ hlog
    cases hcurrent
  · obtain ⟨c, hrun, hlog⟩ := Option.map_eq_some_iff.1 observedInFlight_log
    refine ⟨c, hrun, by simp [hlog], fun hfresh => ?_⟩
    obtain ⟨-, i, j, k, call, -, -, hi, -⟩ := hfresh _ _ _ hlog
    have hmem := mem_of_getElem? hi
    simp at hmem

end Kookr.Server.TerminalInputCoordinator
