import Kookr.Spec.Server.TerminalInputCoordinator

/-! What a step of the coordinator can do, with the guard that let it happen, and the order in which the
operations of one state run. -/

namespace Kookr.Server.TerminalInputCoordinator

open Kookr.Lib List Option

variable {c c' : TerminalInputCoordinator} {e : InputEvent} {state : TerminalInputState}

/-- A decision that lets nothing through. -/
def Declines : InputLog → Prop
  | .decided (.rejected _ _ _) _ => True
  | _ => False

inductive InputStep (c : TerminalInputCoordinator) : InputEvent → TerminalInputCoordinator → Prop where
  | idle {e : InputEvent} : InputStep c e c
  | register {e : InputEvent} (sessionId : String) (hnew : c.states.get sessionId = none) :
    InputStep c e { c with
      objects := c.objects ++ [{ sessionId }]
      states := c.states.set sessionId c.objects.length }
  | cleanup (sessionId : String) (epoch : ℕ) (hcurrent : c.states.get sessionId = some epoch) :
    InputStep c (.cleanupSession sessionId) (withLog { c with states := c.states.delete sessionId } [.retired epoch])
  | dispose : InputStep c .dispose c.dispose
  | snapshot {e : InputEvent} (sessionId : String) (epoch : ℕ) (state : TerminalInputState)
    (hcurrent : c.states.get sessionId = some epoch) (hstate : c.objects[epoch]? = some state) :
    InputStep c e (c.withLog [.snapshot sessionId epoch state.readinessVersion
      (c.operations.all fun op => op.sessionId ≠ sessionId || !op.stage.isPending)])
  | submit {e : InputEvent} (sessionId : String) (epoch : ℕ) (state : TerminalInputState) (request : InputRequest)
    (hcurrent : c.states.get sessionId = some epoch) (hstate : c.objects[epoch]? = some state)
    (hfits : request.bytes = 0 ∨ state.retainedInputBytes + request.bytes ≤ MAX_SESSION_BYTES ∧
      c.retainedInputBytes + request.bytes ≤ MAX_FLEET_BYTES)
    (hmark : ∀ observed pending, request ≠ .markPromptReady observed pending)
    (hintent : ∀ intent, request = .emptyEnter intent → sessionId = intent.sessionId) :
    InputStep c e { c.enqueue sessionId epoch { state with retainedInputBytes := state.retainedInputBytes + request.bytes } request with
      retainedInputBytes := c.retainedInputBytes + request.bytes }
  | mark (sessionId : String) (observed : ObservedReadiness) (epoch : ℕ) (state : TerminalInputState)
    (hcurrent : c.states.get sessionId = some epoch) (hstate : c.objects[epoch]? = some state) :
    InputStep c (.markPromptReady sessionId observed)
      ((c.enqueue sessionId epoch state (.markPromptReady observed (0 < state.pendingWrites))).withLog [.markCalled c.calls sessionId observed])
  | begin {e : InputEvent} (op : InputOperation) (state : TerminalInputState) (payloads rest : List InputPayload)
    (hop : op ∈ c.operations) (hstate : c.objects[op.epoch]? = some state) (hstage : op.stage = .queued) (hwaits : c.waits op = false)
    (hcurrent : c.states.get op.sessionId = some op.epoch) :
    InputStep c e ((c.acceptWrite op state).beginWrite op 0 payloads rest)
  | invalidate {e : InputEvent} (op : InputOperation) (state : TerminalInputState) (mark : ReadinessMark)
    (hop : op ∈ c.operations) (hstate : c.objects[op.epoch]? = some state) (hstage : op.stage = .queued) (hwaits : c.waits op = false)
    (hcurrent : c.states.get op.sessionId = some op.epoch) (hrequest : op.request = .invalidate mark) :
    InputStep c e ((c.finishControl op { state with readinessVersion := state.readinessVersion + 1, prompt := mark.prompt }).withLog
      [.invalidated op.sessionId])
  | markReady {e : InputEvent} (op : InputOperation) (state : TerminalInputState) (observed : ObservedReadiness) (pending : Bool)
    (hop : op ∈ c.operations) (hstate : c.objects[op.epoch]? = some state) (hstage : op.stage = .queued) (hwaits : c.waits op = false)
    (hcurrent : c.states.get op.sessionId = some op.epoch) (hrequest : op.request = .markPromptReady observed pending)
    (haccepts : acceptsMark op.epoch state observed pending = true) :
    InputStep c e ((c.finishControl op { state with prompt := .ready state.readinessVersion }).withLog
      [.markedReady op.call op.sessionId op.epoch state.readinessVersion])
  | decline {e : InputEvent} (op : InputOperation) (state : TerminalInputState) (entries : List InputLog)
    (hop : op ∈ c.operations) (hstate : c.objects[op.epoch]? = some state) (hstage : op.stage = .queued ∨ op.stage = .checkingAlive)
    (hbytes : op.request.bytes = 0) (hentries : ∀ entry ∈ entries, Declines entry) :
    InputStep c e ((c.withLog entries).finishControl op state)
  | check {e : InputEvent} (op : InputOperation) (state : TerminalInputState) (request : EmptyEnterIntentRequest)
    (hop : op ∈ c.operations) (hstate : c.objects[op.epoch]? = some state) (hstage : op.stage = .queued) (hwaits : c.waits op = false)
    (hcurrent : c.states.get op.sessionId = some op.epoch) (hrequest : op.request = .emptyEnter request)
    (haccepts : rejectsIntent op.epoch state request = none) :
    InputStep c e (c.setStage op.call .checkingAlive)
  | rejectWrite {e : InputEvent} (op : InputOperation) (state : TerminalInputState)
    (hop : op ∈ c.operations) (hstate : c.objects[op.epoch]? = some state) (hstage : op.stage = .queued) (hwaits : c.waits op = false) :
    InputStep c e ((c.withState op.epoch { state with queuedOperations := state.queuedOperations - 1 }).setStage op.call (.finished false))
  | sleep {e : InputEvent} (op : InputOperation) (state : TerminalInputState) (write : BackendWrite) (index : ℕ) (rest : List InputPayload)
    (hop : op ∈ c.operations) (hstate : c.objects[op.epoch]? = some state) (hstage : op.stage = .writing index rest)
    (hwrite : write ∈ c.inFlight) (hcall : write.call = op.call) :
    InputStep c e ({ c with inFlight := c.inFlight.erase write }.setStage op.call (.sleeping (index + 1) rest))
  | proceed {e : InputEvent} (op : InputOperation) (state : TerminalInputState) (index : ℕ) (payloads rest rest' : List InputPayload)
    (hop : op ∈ c.operations) (hstate : c.objects[op.epoch]? = some state) (hstage : op.stage = .sleeping index rest)
    (hcurrent : c.states.get op.sessionId = some op.epoch) :
    InputStep c e (c.beginWrite op index payloads rest')
  | finish {e : InputEvent} (op : InputOperation) (state : TerminalInputState) (succeeded : Bool) (inFlight : List BackendWrite)
    (hop : op ∈ c.operations) (hstate : c.objects[op.epoch]? = some state)
    (hstage : (∃ index rest, op.stage = .sleeping index rest) ∧ inFlight = c.inFlight ∨
      (∃ index rest write, op.stage = .writing index rest ∧ write ∈ c.inFlight ∧ write.call = op.call ∧ inFlight = c.inFlight.erase write)) :
    InputStep c e ({ c with inFlight }.finishWrite op state succeeded)
  | answer {e : InputEvent} (op : InputOperation) (state : TerminalInputState) (request : EmptyEnterIntentRequest)
    (hop : op ∈ c.operations) (hstate : c.objects[op.epoch]? = some state) (hstage : op.stage = .checkingAlive)
    (hrequest : op.request = .emptyEnter request) :
    InputStep c e ((c.decide op
      (.validEmptyEnter request.intentId request.taskId request.sessionId op.epoch state.readinessVersion)).finishControl op state)
  | release {e : InputEvent} (op : InputOperation) (state : TerminalInputState)
    (hop : op ∈ c.operations) (hstate : c.objects[op.epoch]? = some state) (hstage : op.stage.isFinished = true) :
    InputStep c e (c.release op state)

theorem withLog_nil : c.withLog [] = c := by simp [withLog]

theorem InputStep.declined {op : InputOperation} (hop : op ∈ c.operations)
    (hstate : c.objects[op.epoch]? = some state) (hstage : op.stage = .queued) (hbytes : op.request.bytes = 0) :
    InputStep c e (c.finishControl op state) := by
  have hstep : InputStep c e _ := .decline op state [] hop hstate (.inl hstage) hbytes (by simp)
  rwa [withLog_nil] at hstep

theorem operationAt_eq_some {call : ℕ} {op : InputOperation} (h : c.operationAt call = some (op, state)) :
    op ∈ c.operations ∧ op.call = call ∧ c.objects[op.epoch]? = some state := by
  obtain ⟨op', hop', h⟩ := bind_eq_some_iff.1 h
  obtain ⟨state', hstate', hpair⟩ := map_eq_some_iff.1 h
  obtain ⟨rfl, rfl⟩ := Prod.mk.inj hpair
  exact ⟨mem_of_find?_eq_some hop', by simpa using find?_some hop', hstate'⟩

theorem stateOf_eq_some {sessionId : String} {epoch : ℕ} (h : c.stateOf sessionId = some (epoch, state)) :
    c.states.get sessionId = some epoch ∧ c.objects[epoch]? = some state := by
  obtain ⟨epoch', hepoch, h⟩ := bind_eq_some_iff.1 h
  obtain ⟨state', hstate', hpair⟩ := map_eq_some_iff.1 h
  obtain ⟨rfl, rfl⟩ := Prod.mk.inj hpair
  exact ⟨hepoch, hstate'⟩

theorem registerSession_cases {sessionId : String} (h : c.registerSession sessionId = some c') : InputStep c e c' := by
  unfold registerSession at h
  split at h
  · cases h
  split at h
  · cases h
    exact .idle
  · next hnew =>
    cases h
    exact .register sessionId (by simpa [OrderedMap.has] using hnew)

theorem submitControl_cases (sessionId : String) {request : InputRequest} (hbytes : request.bytes = 0)
    (hmark : ∀ observed pending, request ≠ .markPromptReady observed pending)
    (hintent : ∀ intent, request = .emptyEnter intent → sessionId = intent.sessionId) : InputStep c e (c.submitControl sessionId request) := by
  unfold submitControl
  split
  · exact .idle
  · next epoch state hstate =>
    obtain ⟨hcurrent, hobject⟩ := stateOf_eq_some hstate
    have hstep : InputStep c e _ := .submit sessionId epoch state request hcurrent hobject (.inl hbytes) hmark hintent
    rwa [hbytes] at hstep

theorem submitInput_cases (sessionId : String) {request : InputRequest} {payloads : List InputPayload} (hbytes : request.bytes = payloadBytes payloads)
    (hmark : ∀ observed pending, request ≠ .markPromptReady observed pending) (hintent : ∀ intent, request ≠ .emptyEnter intent) :
    ∃ c₁, InputStep c e c₁ ∧ InputStep c₁ e (c.submitInput sessionId request payloads) := by
  unfold submitInput
  cases hregister : c.registerSession sessionId with
  | none => exact ⟨c, .idle, .idle⟩
  | some c₁ =>
    refine ⟨c₁, registerSession_cases hregister, ?_⟩
    dsimp only
    split
    · exact .idle
    · next epoch state hstate =>
      split_ifs with hrefused
      · exact .idle
      · obtain ⟨hcurrent, hobject⟩ := stateOf_eq_some hstate
        simp only [refusesInput, Bool.or_eq_true, decide_eq_true_eq, not_or, Nat.not_lt] at hrefused
        obtain ⟨-, ⟨-, hsession⟩, hfleet⟩ := hrefused
        rw [← hbytes] at hsession hfleet ⊢
        exact .submit sessionId epoch state request hcurrent hobject (.inr ⟨hsession, hfleet⟩) hmark
          fun intent heq => absurd heq (hintent intent)

theorem startOperation_cases {op : InputOperation} (hop : op ∈ c.operations)
    (hstate : c.objects[op.epoch]? = some state) (hstage : op.stage = .queued) (hwaits : c.waits op = false) :
    InputStep c e (c.startOperation op state) := by
  unfold startOperation
  split
  · next hcurrent =>
    replace hcurrent : c.states.get op.sessionId = some op.epoch := of_decide_eq_true hcurrent
    unfold run
    cases hrequest : op.request with
    | write payload => exact .begin op state [payload] [] hop hstate hstage hwaits hcurrent
    | writeSequence payloads paced =>
      dsimp only
      split
      · exact .begin op state _ _ hop hstate hstage hwaits hcurrent
      · exact .begin op state payloads [] hop hstate hstage hwaits hcurrent
    | invalidate mark => exact .invalidate op state mark hop hstate hstage hwaits hcurrent hrequest
    | markPromptReady observed pending =>
      dsimp only
      split
      · next haccepts => exact .markReady op state observed pending hop hstate hstage hwaits hcurrent hrequest haccepts
      · exact .declined hop hstate hstage (by rw [hrequest]; rfl)
    | emptyEnter request =>
      dsimp only
      split
      · exact .decline op state _ hop hstate (.inl hstage) (by rw [hrequest]; rfl) (by simp [Declines])
      · next haccepts => exact .check op state request hop hstate hstage hwaits hcurrent hrequest haccepts
  · unfold reject
    split
    · exact .rejectWrite op state hop hstate hstage hwaits
    · exact .rejectWrite op state hop hstate hstage hwaits
    · next hwrite hsequence =>
      refine .declined hop hstate hstage ?_
      cases hrequest : op.request with
      | write payload => exact absurd hrequest (hwrite payload)
      | writeSequence payloads paced => exact absurd hrequest (hsequence payloads paced)
      | _ => rfl

/-- A step is one of these, or the registration of a session and the first call that writes to it. -/
theorem step_cases (h : c.step e = some c') : InputStep c e c' ∨ (∃ c₁, InputStep c e c₁ ∧ InputStep c₁ e c') ∧
      ((∃ sessionId payload, e = .writeInput sessionId payload) ∨ ∃ sessionId payloads paced, e = .writeInputSequence sessionId payloads paced) := by
  cases e with
  | registerSession sessionId =>
    cases h
    left
    cases hregister : c.registerSession sessionId with
    | none => exact .idle
    | some c₁ => exact registerSession_cases hregister
  | cleanupSession sessionId =>
    cases h
    left
    unfold cleanupSession
    split
    · exact .idle
    · next epoch hcurrent => exact .cleanup sessionId epoch hcurrent
  | dispose =>
    cases h
    exact .inl .dispose
  | getSnapshot sessionId =>
    cases h
    left
    unfold getSnapshot
    split
    · exact .idle
    · next epoch state hstate =>
      obtain ⟨hcurrent, hobject⟩ := stateOf_eq_some hstate
      exact .snapshot sessionId epoch state hcurrent hobject
  | writeInput sessionId payload =>
    cases h
    exact .inr ⟨submitInput_cases sessionId rfl (by simp) (by simp), .inl ⟨sessionId, payload, rfl⟩⟩
  | writeInputSequence sessionId payloads paced =>
    cases h
    exact .inr ⟨submitInput_cases sessionId rfl (by simp) (by simp), .inr ⟨sessionId, payloads, paced, rfl⟩⟩
  | invalidate sessionId mark =>
    cases h
    exact .inl (submitControl_cases sessionId rfl (by simp) (by simp))
  | markPromptReady sessionId observed =>
    cases h
    left
    unfold markPromptReady
    split
    · exact .idle
    · next epoch state hstate =>
      obtain ⟨hcurrent, hobject⟩ := stateOf_eq_some hstate
      exact .mark sessionId observed epoch state hcurrent hobject
  | handleEmptyEnterIntent request =>
    cases h
    exact .inl (submitControl_cases request.sessionId rfl (by simp) fun intent heq => by cases heq; rfl)
  | start call =>
    obtain ⟨⟨op, state⟩, hop, h⟩ := bind_eq_some_iff.1 h
    obtain ⟨hmem, -, hstate⟩ := operationAt_eq_some hop
    dsimp only at h
    split_ifs at h with hguard
    cases h
    simp only [Bool.and_eq_true, decide_eq_true_eq, Bool.not_eq_true'] at hguard
    exact .inl (startOperation_cases hmem hstate hguard.1 hguard.2)
  | written write succeeded =>
    unfold step at h
    dsimp only at h
    split_ifs at h with hwrite
    obtain ⟨⟨op, state⟩, hop, h⟩ := bind_eq_some_iff.1 h
    obtain ⟨hmem, hcall, hstate⟩ := operationAt_eq_some hop
    split at h
    · next index rest hstage =>
      cases h
      left
      unfold afterWrite
      split
      · exact .sleep op state write index rest hmem hstate hstage hwrite hcall.symm
      · exact .finish op state succeeded _ hmem hstate (.inr ⟨index, rest, write, hstage, hwrite, hcall.symm, rfl⟩)
    · cases h
  | slept call =>
    obtain ⟨⟨op, state⟩, hop, h⟩ := bind_eq_some_iff.1 h
    obtain ⟨hmem, -, hstate⟩ := operationAt_eq_some hop
    dsimp only at h
    split at h
    · next index rest hstage =>
      cases h
      left
      unfold afterSleep
      split
      · next hcurrent => exact .proceed op state index _ rest _ hmem hstate hstage (of_decide_eq_true hcurrent)
      · exact .finish op state false c.inFlight hmem hstate (.inl ⟨⟨index, rest, hstage⟩, rfl⟩)
    · cases h
  | aliveAnswered call alive =>
    obtain ⟨⟨op, state⟩, hop, h⟩ := bind_eq_some_iff.1 h
    obtain ⟨hmem, -, hstate⟩ := operationAt_eq_some hop
    dsimp only at h
    split at h
    · next request hstage hrequest =>
      cases h
      left
      cases alive with
      | true => exact .answer op state request hmem hstate hstage hrequest
      | false => exact .decline op state _ hmem hstate (.inr hstage) (by rw [hrequest]; rfl) (by simp [Declines])
    · cases h
  | settle call =>
    obtain ⟨⟨op, state⟩, hop, h⟩ := bind_eq_some_iff.1 h
    obtain ⟨hmem, -, hstate⟩ := operationAt_eq_some hop
    dsimp only at h
    split_ifs at h with hfinished
    cases h
    exact .inl (.release op state hmem hstate hfinished)

/-- The operations of one state run one after the other, in the order of their calls. -/
structure Queues (operations : List InputOperation) (calls objects : ℕ) : Prop where
  called : ∀ op ∈ operations, op.call < calls
  owned : ∀ op ∈ operations, op.epoch < objects
  unique : ∀ a ∈ operations, ∀ b ∈ operations, a.call = b.call → a = b
  serial : ∀ a ∈ operations, ∀ b ∈ operations, a.epoch = b.epoch → a.call < b.call → b.stage ≠ .queued → a.stage.isFinished = true

/-- The operation is the one whose turn it is. -/
structure Turn (operations : List InputOperation) (op : InputOperation) : Prop where
  mem : op ∈ operations
  unfinished : op.stage.isFinished = false
  first : ∀ a ∈ operations, a.epoch = op.epoch → a.call < op.call → a.stage.isFinished = true

variable {operations : List InputOperation} {calls objects : ℕ} {op : InputOperation} {stage : OperationStage}

theorem turn_of_waits (hop : op ∈ c.operations) (hstage : op.stage = .queued) (hwaits : c.waits op = false) : Turn c.operations op := by
  refine ⟨hop, by rw [hstage]; rfl, fun a ha hepoch hcall => ?_⟩
  by_contra hunfinished
  have hwaiting : c.waits op = true :=
    any_eq_true.2 ⟨a, ha, by simp [hepoch, hcall, hunfinished]⟩
  rw [hwaits] at hwaiting
  cases hwaiting

section

variable (h : Queues operations calls objects)
include h

theorem Queues.turn (hop : op ∈ operations) (hqueued : op.stage ≠ .queued)
    (hfinished : op.stage.isFinished = false) : Turn operations op :=
  ⟨hop, hfinished, fun a ha hepoch hcall => h.serial a ha op hop hepoch hcall hqueued⟩

theorem Turn.eq {a : InputOperation} (ha : Turn operations a) (hop : Turn operations op)
    (hepoch : a.epoch = op.epoch) : a = op := by
  refine h.unique a ha.mem op hop.mem ?_
  rcases Nat.lt_trichotomy a.call op.call with hlt | heq | hlt
  · have hfinished := hop.first a ha.mem hepoch hlt
    rw [ha.unfinished] at hfinished
    cases hfinished
  · exact heq
  · have hfinished := ha.first op hop.mem hepoch.symm hlt
    rw [hop.unfinished] at hfinished
    cases hfinished

omit h in
theorem mem_setStage {call : ℕ} {b : InputOperation} (h : b ∈ (c.setStage call stage).operations) :
    b ∈ c.operations ∧ b.call ≠ call ∨ ∃ a ∈ c.operations, a.call = call ∧ b = { a with stage } := by
  obtain ⟨a, ha, rfl⟩ := mem_map.1 h
  by_cases hcall : a.call = call
  · rw [if_pos hcall]
    exact .inr ⟨a, ha, hcall, rfl⟩
  · rw [if_neg hcall]
    exact .inl ⟨ha, hcall⟩

omit h in
theorem Queues.mem_setStage (h : Queues c.operations calls objects) (hop : op ∈ c.operations) {b : InputOperation}
    (hb : b ∈ (c.setStage op.call stage).operations) : b ∈ c.operations ∧ b.call ≠ op.call ∨ b = { op with stage } := by
  rcases TerminalInputCoordinator.mem_setStage hb with hother | ⟨a, ha, hcall, rfl⟩
  · exact .inl hother
  · obtain rfl := h.unique a ha op hop hcall
    exact .inr rfl

omit h in
theorem mem_setStage_self (hop : op ∈ c.operations) : { op with stage } ∈ (c.setStage op.call stage).operations :=
  mem_map.2 ⟨op, hop, if_pos rfl⟩

omit h in
theorem mem_setStage_of_ne {call : ℕ} (hop : op ∈ c.operations) (hne : op.call ≠ call) : op ∈ (c.setStage call stage).operations :=
  mem_map.2 ⟨op, hop, if_neg hne⟩

omit h in
theorem Queues.setStage (h : Queues c.operations calls objects) (hturn : Turn c.operations op) :
    Queues (c.setStage op.call stage).operations calls objects := by
  refine ⟨fun b hb => ?_, fun b hb => ?_, fun a ha b hb hcall => ?_, fun a ha b hb hepoch hlt hqueued => ?_⟩
  · rcases h.mem_setStage hturn.mem hb with ⟨hb, -⟩ | rfl
    · exact h.called b hb
    · exact h.called op hturn.mem
  · rcases h.mem_setStage hturn.mem hb with ⟨hb, -⟩ | rfl
    · exact h.owned b hb
    · exact h.owned op hturn.mem
  · rcases h.mem_setStage hturn.mem ha with ⟨ha, hane⟩ | rfl <;> rcases h.mem_setStage hturn.mem hb with ⟨hb, hbne⟩ | rfl
    · exact h.unique a ha b hb hcall
    · exact absurd hcall hane
    · exact absurd hcall.symm hbne
    · rfl
  · rcases h.mem_setStage hturn.mem ha with ⟨ha, hane⟩ | rfl <;> rcases h.mem_setStage hturn.mem hb with ⟨hb, hbne⟩ | rfl
    · exact h.serial a ha b hb hepoch hlt hqueued
    · exact hturn.first a ha hepoch hlt
    · -- the operations behind the one whose turn it is are still queued
      have hfinished := h.serial op hturn.mem b hb hepoch hlt hqueued
      rw [hturn.unfinished] at hfinished
      cases hfinished
    · exact absurd hlt (Nat.lt_irrefl _)

theorem Queues.append (op : InputOperation) (hcall : op.call = calls) (hstage : op.stage = .queued)
    (hepoch : op.epoch < objects) : Queues (operations ++ [op]) (calls + 1) objects := by
  have hmem : ∀ b ∈ operations ++ [op], b ∈ operations ∧ b.call < calls ∨ b = op := by
    intro b hb
    rcases mem_append.1 hb with hb | hb
    · exact .inl ⟨hb, h.called b hb⟩
    · exact .inr (mem_singleton.1 hb)
  refine ⟨fun b hb => ?_, fun b hb => ?_, fun a ha b hb heq => ?_, fun a ha b hb hsame hlt hqueued => ?_⟩
  · rcases hmem b hb with ⟨-, hcalled⟩ | rfl
    · exact Nat.lt_succ_of_lt hcalled
    · omega
  · rcases hmem b hb with ⟨hb, -⟩ | rfl
    · exact h.owned b hb
    · exact hepoch
  · rcases hmem a ha with ⟨ha, hacalled⟩ | rfl <;> rcases hmem b hb with ⟨hb, hbcalled⟩ | rfl
    · exact h.unique a ha b hb heq
    · omega
    · omega
    · rfl
  · rcases hmem b hb with ⟨hb, hbcalled⟩ | rfl
    · rcases hmem a ha with ⟨ha, -⟩ | rfl
      · exact h.serial a ha b hb hsame hlt hqueued
      · omega
    · exact absurd hstage hqueued

theorem Queues.sublist {operations' : List InputOperation} (hsubset : operations' ⊆ operations) :
    Queues operations' calls objects :=
  ⟨fun b hb => h.called b (hsubset hb), fun b hb => h.owned b (hsubset hb),
    fun a ha b hb => h.unique a (hsubset ha) b (hsubset hb), fun a ha b hb => h.serial a (hsubset ha) b (hsubset hb)⟩

theorem Queues.mono {objects' : ℕ} (hle : objects ≤ objects') : Queues operations calls objects' :=
  { h with owned := fun op hop => Nat.lt_of_lt_of_le (h.owned op hop) hle }

theorem Queues.writing (hop : op ∈ operations) {index : ℕ} {rest : List InputPayload}
    (hstage : op.stage = .writing index rest) : Turn operations op :=
  h.turn hop (by rw [hstage]; simp) (by rw [hstage]; rfl)

theorem Queues.sleeping (hop : op ∈ operations) {index : ℕ} {rest : List InputPayload}
    (hstage : op.stage = .sleeping index rest) : Turn operations op :=
  h.turn hop (by rw [hstage]; simp) (by rw [hstage]; rfl)

end

theorem InputStep.queues (hstep : InputStep c e c') (h : Queues c.operations c.calls c.objects.length) :
    Queues c'.operations c'.calls c'.objects.length := by
  have hlength : ∀ epoch state, (c.objects.set epoch state).length = c.objects.length := fun _ _ => length_set
  cases hstep with
  | idle => exact h
  | register sessionId hnew =>
    refine h.mono ?_
    rw [length_append]
    exact Nat.le_add_right _ _
  | cleanup | dispose | snapshot => exact h
  | submit sessionId epoch state request hcurrent hstate =>
    have happend := h.append ⟨c.calls, sessionId, epoch, request, .queued⟩ rfl rfl (List.getElem?_eq_some_iff.1 hstate).1
    exact (hlength epoch _).symm ▸ happend
  | mark sessionId observed epoch state hcurrent hstate =>
    have happend := h.append ⟨c.calls, sessionId, epoch, .markPromptReady observed (0 < state.pendingWrites), .queued⟩ rfl rfl
      (List.getElem?_eq_some_iff.1 hstate).1
    exact (hlength epoch _).symm ▸ happend
  | begin op state payloads rest hop hstate hstage hwaits =>
    exact (hlength op.epoch _).symm ▸ h.setStage (turn_of_waits hop hstage hwaits)
  | invalidate op | markReady op | decline op => exact (hlength op.epoch _).symm ▸ h.sublist erase_subset
  | check op state request hop hstate hstage hwaits => exact h.setStage (turn_of_waits hop hstage hwaits)
  | rejectWrite op state hop hstate hstage hwaits =>
    exact (hlength op.epoch _).symm ▸ h.setStage (turn_of_waits hop hstage hwaits)
  | sleep op state write index rest hop hstate hstage => exact h.setStage (h.writing hop hstage)
  | proceed op state index payloads rest rest' hop hstate hstage => exact h.setStage (h.sleeping hop hstage)
  | finish op state succeeded inFlight hop hstate hstage =>
    have hturn : Turn c.operations op := by
      rcases hstage with ⟨⟨index, rest, hstage⟩, -⟩ | ⟨index, rest, -, hstage, -⟩
      · exact h.sleeping hop hstage
      · exact h.writing hop hstage
    exact (hlength op.epoch _).symm ▸ h.setStage hturn
  | answer op | release op => exact (hlength op.epoch _).symm ▸ h.sublist erase_subset

end Kookr.Server.TerminalInputCoordinator
