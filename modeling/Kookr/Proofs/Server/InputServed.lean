import Mathlib.Algebra.BigOperators.Group.List.Basic
import Mathlib.Data.List.Pairwise
import Kookr.Lib.Exec
import Kookr.Lib.History
import Kookr.Lib.ListAt
import Kookr.Sanity.Server.InputSteps

/-! Terminal input is served one write at a time, in the order of the calls, never for a retired state, and
the bytes it holds are those of the calls that have not settled. -/

namespace Kookr.Server

open Kookr.Lib List OrderedMap

def BackendWrite.Before (a b : BackendWrite) : Prop := a.call < b.call ∨ a.call = b.call ∧ a.index < b.index

namespace TerminalInputCoordinator

variable {c c' : TerminalInputCoordinator} {e : InputEvent} {op : InputOperation} {stage : OperationStage}

def sessionBytes (operations : List InputOperation) (epoch : ℕ) : ℕ :=
  (operations.map fun op => if op.epoch = epoch then op.request.bytes else 0).sum

def fleetBytes (operations : List InputOperation) : ℕ := (operations.map fun op => op.request.bytes).sum

theorem sum_erase (weight : InputOperation → ℕ) {operations : List InputOperation} (hop : op ∈ operations) :
    ((operations.erase op).map weight).sum + weight op = (operations.map weight).sum := by
  rw [Nat.add_comm, sum_map_erase weight hop]

theorem sum_setStage (weight : InputOperation → ℕ) (hweight : ∀ op : InputOperation, weight { op with stage } = weight op) (call : ℕ) :
    ((c.setStage call stage).operations.map weight).sum = (c.operations.map weight).sum := by
  show ((c.operations.map fun op => if op.call = call then { op with stage } else op).map weight).sum = _
  rw [map_map]
  refine congrArg sum (map_congr_left fun op _ => ?_)
  rw [Function.comp_apply]
  split
  · exact hweight op
  · rfl

/-- What is held is what the operations that have not settled have reserved. -/
structure Retained (objects : List TerminalInputState) (operations : List InputOperation) (fleet : ℕ) : Prop where
  session : ∀ (epoch : ℕ) (state : TerminalInputState), objects[epoch]? = some state →
    state.retainedInputBytes = sessionBytes operations epoch ∧ state.retainedInputBytes ≤ MAX_SESSION_BYTES
  fleet : fleet = fleetBytes operations ∧ fleet ≤ MAX_FLEET_BYTES

variable {objects : List TerminalInputState} {operations : List InputOperation} {fleet epoch : ℕ} {state state' : TerminalInputState}

section

variable (h : Retained objects operations fleet)
include h

theorem Retained.withState (hstate : objects[epoch]? = some state)
    (hsame : state'.retainedInputBytes = state.retainedInputBytes) : Retained (objects.set epoch state') operations fleet := by
  refine ⟨fun other state'' hother => ?_, h.fleet⟩
  rcases getElem?_set_cases hother with ⟨rfl, rfl⟩ | ⟨-, hother⟩
  · rw [hsame]
    exact h.session other state hstate
  · exact h.session other state'' hother

omit h in
theorem Retained.setStage (h : Retained objects c.operations fleet) (call : ℕ) :
    Retained objects (c.setStage call stage).operations fleet := by
  refine ⟨fun epoch state hstate => ?_, ?_⟩
  · rw [sessionBytes, sum_setStage _ (fun _ => rfl)]
    exact h.session epoch state hstate
  · rw [fleetBytes, sum_setStage _ (fun _ => rfl)]
    exact h.fleet

theorem Retained.leave (hop : op ∈ operations) (hbytes : op.request.bytes = 0) :
    Retained objects (operations.erase op) fleet := by
  refine ⟨fun epoch state hstate => ?_, ?_⟩
  · obtain ⟨hretained, hmax⟩ := h.session epoch state hstate
    have herase : sessionBytes (operations.erase op) epoch + (if op.epoch = epoch then op.request.bytes else 0) = sessionBytes operations epoch :=
      sum_erase _ hop
    rw [hbytes, ite_self] at herase
    exact ⟨hretained.trans herase.symm, hmax⟩
  · have herase : fleetBytes (operations.erase op) + op.request.bytes = fleetBytes operations := sum_erase _ hop
    rw [hbytes] at herase
    exact ⟨h.fleet.1.trans herase.symm, h.fleet.2⟩

theorem Retained.finishControl (hop : op ∈ operations) (hstate : objects[op.epoch]? = some state)
    (hsame : state'.retainedInputBytes = state.retainedInputBytes) (hbytes : op.request.bytes = 0) :
    Retained (objects.set op.epoch state') (operations.erase op) fleet :=
  (h.leave hop hbytes).withState hstate hsame

theorem Retained.append (op : InputOperation) (hstate : objects[op.epoch]? = some state)
    (hadded : state'.retainedInputBytes = state.retainedInputBytes + op.request.bytes)
    (hfits : op.request.bytes = 0 ∨ state.retainedInputBytes + op.request.bytes ≤ MAX_SESSION_BYTES ∧ fleet + op.request.bytes ≤ MAX_FLEET_BYTES) :
    Retained (objects.set op.epoch state') (operations ++ [op]) (fleet + op.request.bytes) := by
  obtain ⟨hretained, hmax⟩ := h.session op.epoch state hstate
  have hfleet := h.fleet.2
  refine ⟨fun other state'' hother => ?_, ?_, by omega⟩
  · rw [sessionBytes, map_append, sum_append, map_singleton]
    rcases getElem?_set_cases hother with ⟨rfl, rfl⟩ | ⟨hne, hother⟩
    · rw [if_pos rfl, hadded, hretained]
      exact ⟨rfl, by omega⟩
    · rw [if_neg (Ne.symm hne)]
      exact h.session other state'' hother
  · rw [fleetBytes, map_append, sum_append, h.fleet.1]
    rfl

theorem Retained.register (howned : ∀ op ∈ operations, op.epoch < objects.length) (sessionId : String) :
    Retained (objects ++ [{ sessionId := sessionId }]) operations fleet := by
  refine ⟨fun epoch state hstate => ?_, h.fleet⟩
  rcases getElem?_concat_cases hstate with ⟨rfl, rfl⟩ | hstate
  · refine ⟨(sum_eq_zero fun bytes hbytes => ?_).symm, Nat.zero_le _⟩
    obtain ⟨op, hop, rfl⟩ := mem_map.1 hbytes
    exact if_neg (Nat.ne_of_lt (howned op hop))
  · exact h.session epoch state hstate

theorem Retained.release (hop : op ∈ operations) (hstate : objects[op.epoch]? = some state)
    (hreleased : state'.retainedInputBytes = state.retainedInputBytes - op.request.bytes) :
    Retained (objects.set op.epoch state') (operations.erase op) (fleet - op.request.bytes) := by
  have hfleet : fleetBytes (operations.erase op) + op.request.bytes = fleetBytes operations := sum_erase _ hop
  refine ⟨fun other state'' hother => ?_, ?_⟩
  · have hsession : sessionBytes (operations.erase op) other + (if op.epoch = other then op.request.bytes else 0) = sessionBytes operations other :=
      sum_erase _ hop
    rcases getElem?_set_cases hother with ⟨rfl, rfl⟩ | ⟨hne, hother⟩
    · obtain ⟨hretained, hmax⟩ := h.session _ state hstate
      rw [if_pos rfl] at hsession
      omega
    · rw [if_neg (Ne.symm hne), Nat.add_zero] at hsession
      rw [hsession]
      exact h.session other state'' hother
  · obtain ⟨hretained, hmax⟩ := h.fleet
    omega

end

theorem InputStep.retained (hstep : InputStep c e c') (hqueues : Queues c.operations c.calls c.objects.length)
    (h : Retained c.objects c.operations c.retainedInputBytes) : Retained c'.objects c'.operations c'.retainedInputBytes := by
  cases hstep with
  | idle => exact h
  | register sessionId => exact h.register hqueues.owned sessionId
  | cleanup | dispose | snapshot => exact h
  | submit sessionId epoch state request hcurrent hstate hfits =>
    exact h.append ⟨c.calls, sessionId, epoch, request, .queued⟩ hstate rfl hfits
  | mark sessionId observed epoch state hcurrent hstate =>
    exact h.append ⟨c.calls, sessionId, epoch, .markPromptReady observed (0 < state.pendingWrites), .queued⟩ hstate rfl (.inl rfl)
  | begin op state payloads rest hop hstate => exact (h.setStage op.call).withState hstate rfl
  | invalidate op state mark hop hstate _ _ _ hrequest | markReady op state observed pending hop hstate _ _ _ hrequest =>
    exact h.finishControl hop hstate rfl (by rw [hrequest]; rfl)
  | decline op state entries hop hstate hstage hbytes => exact h.finishControl hop hstate rfl hbytes
  | check op => exact h.setStage op.call
  | rejectWrite op state hop hstate => exact (h.setStage op.call).withState hstate rfl
  | sleep op | proceed op => exact h.setStage op.call
  | finish op state succeeded inFlight hop hstate => exact (h.setStage op.call).withState hstate rfl
  | answer op state request hop hstate hstage hrequest => exact h.finishControl hop hstate rfl (by rw [hrequest]; rfl)
  | release op state hop hstate => exact h.release hop hstate rfl

def nextIndex : OperationStage → ℕ
  | .writing index _ => index + 1
  | .sleeping index _ => index
  | _ => 0

/-- The operation has nothing to write that comes before the write. -/
def Passed (write : BackendWrite) (op : InputOperation) : Prop :=
  op.stage.isFinished = true ∨ write.call < op.call ∨ write.call = op.call ∧ write.index < nextIndex op.stage

/-- An entry is no write, or it is the write of a state that is not retired after all the earlier ones of the state. -/
def Admissible (before : List InputLog) : InputLog → Prop
  | .started write => .retired write.epoch ∉ before ∧
      ∀ earlier, .started earlier ∈ before → earlier.epoch = write.epoch → earlier.Before write
  | _ => True

/-- The backend's writes belong to operations that have the turn. -/
structure Writing (operations : List InputOperation) (calls : ℕ) (inFlight : List BackendWrite) (log : List InputLog) : Prop where
  ofTurn : ∀ write ∈ inFlight, ∃ op ∈ operations, op.call = write.call ∧ op.epoch = write.epoch ∧ ∃ rest, op.stage = .writing write.index rest
  oneAtATime : inFlight.Pairwise fun a b => a.epoch ≠ b.epoch
  called : ∀ write, .started write ∈ log → write.call < calls
  passed : ∀ write, .started write ∈ log → ∀ op ∈ operations, op.epoch = write.epoch → Passed write op

variable {calls : ℕ} {inFlight : List BackendWrite} {log entries : List InputLog}

section

variable (h : Writing operations calls inFlight log)
include h

theorem Writing.extend (hentries : ∀ write, .started write ∉ entries) : Writing operations calls inFlight (log ++ entries) := by
  have hold : ∀ write, .started write ∈ log ++ entries → .started write ∈ log := fun write hwrite =>
    (mem_append.1 hwrite).resolve_right (hentries write)
  exact { h with
    called := fun write hwrite => h.called write (hold write hwrite)
    passed := fun write hwrite => h.passed write (hold write hwrite) }

theorem Writing.append (op : InputOperation) (hcall : op.call = calls) :
    Writing (operations ++ [op]) (calls + 1) inFlight log := by
  refine ⟨fun write hwrite => ?_, h.oneAtATime, fun write hwrite => Nat.lt_succ_of_lt (h.called write hwrite),
    fun write hwrite other hother hepoch => ?_⟩
  · obtain ⟨other, hother, hrest⟩ := h.ofTurn write hwrite
    exact ⟨other, mem_append_left _ hother, hrest⟩
  · rcases mem_concat_cases hother with hother | rfl
    · exact h.passed write hwrite other hother hepoch
    · exact .inr (.inl (hcall ▸ h.called write hwrite))

omit h in
theorem Writing.setStage (h : Writing c.operations calls inFlight log) (hqueues : Queues c.operations calls objects.length)
    (hop : op ∈ c.operations) (hnone : ∀ write ∈ inFlight, write.call ≠ op.call)
    (hnext : stage.isFinished = true ∨ nextIndex op.stage ≤ nextIndex stage ∧ op.stage.isFinished = false) :
    Writing (c.setStage op.call stage).operations calls inFlight log := by
  refine { h with ofTurn := fun write hwrite => ?_, passed := fun write hwrite other hother hepoch => ?_ }
  · obtain ⟨other, hother, hcall, hrest⟩ := h.ofTurn write hwrite
    exact ⟨other, mem_setStage_of_ne hother (hcall ▸ hnone write hwrite), hcall, hrest⟩
  · rcases hqueues.mem_setStage hop hother with ⟨hother, -⟩ | rfl
    · exact h.passed write hwrite other hother hepoch
    · rcases hnext with hfinished | ⟨hnext, hunfinished⟩
      · exact .inl hfinished
      · rcases h.passed write hwrite op hop hepoch with hfinished | hlt | ⟨hcall, hindex⟩
        · rw [hunfinished] at hfinished
          cases hfinished
        · exact .inr (.inl hlt)
        · exact .inr (.inr ⟨hcall, Nat.lt_of_lt_of_le hindex hnext⟩)

theorem Writing.leave (hnone : ∀ write ∈ inFlight, write.call ≠ op.call) : Writing (operations.erase op) calls inFlight log := by
  refine { h with ofTurn := fun write hwrite => ?_, passed := fun write hwrite other hother => h.passed write hwrite other (mem_of_mem_erase hother) }
  obtain ⟨other, hother, hcall, hrest⟩ := h.ofTurn write hwrite
  refine ⟨other, (mem_erase_of_ne ?_).2 hother, hcall, hrest⟩
  rintro rfl
  exact hnone write hwrite hcall.symm

theorem Writing.none_of_stage (hqueues : Queues operations calls objects.length)
    (hop : op ∈ operations) (hstage : ∀ index rest, op.stage ≠ .writing index rest) : ∀ write ∈ inFlight, write.call ≠ op.call := by
  intro write hwrite hcall
  obtain ⟨other, hother, hcall', -, rest, hother'⟩ := h.ofTurn write hwrite
  obtain rfl := hqueues.unique other hother op hop (hcall'.trans hcall)
  exact hstage _ _ hother'

theorem Writing.answered (hqueues : Queues operations calls objects.length)
    {write : BackendWrite} (hwrite : write ∈ inFlight) (hcall : write.call = op.call) :
    (∀ other ∈ inFlight.erase write, other.call ≠ op.call) ∧ Writing operations calls (inFlight.erase write) log := by
  have hsub : (inFlight.erase write).Sublist inFlight := erase_sublist
  have hnodup : inFlight.Nodup := h.oneAtATime.imp fun hne heq => hne (congrArg BackendWrite.epoch heq)
  refine ⟨fun other hother hsame => ?_, { h with ofTurn := fun w hw => h.ofTurn w (hsub.subset hw), oneAtATime := h.oneAtATime.sublist hsub }⟩
  obtain ⟨hne, hmem⟩ := hnodup.mem_erase_iff.1 hother
  obtain ⟨a, ha, hacall, haepoch, -⟩ := h.ofTurn other hmem
  obtain ⟨b, hb, hbcall, hbepoch, -⟩ := h.ofTurn write hwrite
  obtain rfl := hqueues.unique a ha b hb (hacall.trans (hsame.trans (hcall.symm.trans hbcall.symm)))
  have hsymm : Std.Symm fun a b : BackendWrite => a.epoch ≠ b.epoch := ⟨fun _ _ hepoch => Ne.symm hepoch⟩
  exact h.oneAtATime.forall hmem hwrite hne (haepoch.symm.trans hbepoch)

omit h in
theorem Writing.begin (h : Writing c.operations calls inFlight log) (hqueues : Queues c.operations calls objects.length)
    (hturn : Turn c.operations op) (hstage : ∀ index rest, op.stage ≠ .writing index rest) (payloads rest : List InputPayload) :
    Writing (c.setStage op.call (.writing (nextIndex op.stage) rest)).operations calls
      (inFlight ++ [⟨op.call, nextIndex op.stage, op.sessionId, op.epoch, payloads⟩])
      (log ++ [.started ⟨op.call, nextIndex op.stage, op.sessionId, op.epoch, payloads⟩]) := by
  have hnone := h.none_of_stage hqueues hturn.mem hstage
  have hset : Writing (c.setStage op.call (.writing (nextIndex op.stage) rest)).operations calls inFlight log :=
    h.setStage hqueues hturn.mem hnone (.inr ⟨Nat.le_succ _, hturn.unfinished⟩)
  refine ⟨fun write hwrite => ?_, ?_, fun write hwrite => ?_, fun write hwrite other hother hepoch => ?_⟩
  · rcases mem_concat_cases hwrite with hwrite | rfl
    · exact hset.ofTurn write hwrite
    · exact ⟨_, mem_setStage_self hturn.mem, rfl, rfl, rest, rfl⟩
  · refine pairwise_append.2 ⟨h.oneAtATime, pairwise_singleton _ _, fun write hwrite new hnew hepoch => ?_⟩
    -- another write of the state would be of an operation that has the turn too
    obtain rfl := mem_singleton.1 hnew
    obtain ⟨other, hother, hcall, hother', rest', hwriting⟩ := h.ofTurn write hwrite
    obtain rfl := (hqueues.writing hother hwriting).eq hqueues hturn (hother'.trans hepoch)
    exact hstage _ _ hwriting
  · rcases mem_concat_cases hwrite with hwrite | hwrite
    · exact h.called write hwrite
    · obtain rfl := InputLog.started.inj hwrite
      exact hqueues.called op hturn.mem
  · rcases mem_concat_cases hwrite with hwrite | hwrite
    · exact hset.passed write hwrite other hother hepoch
    · obtain rfl := InputLog.started.inj hwrite
      rcases hqueues.mem_setStage hturn.mem hother with ⟨hother, hne⟩ | rfl
      · rcases Nat.lt_or_gt_of_ne hne with hlt | hgt
        · exact .inl (hturn.first other hother hepoch hlt)
        · exact .inr (.inl hgt)
      · exact .inr (.inr ⟨rfl, Nat.lt_succ_self _⟩)

theorem Writing.before (hturn : Turn operations op) (payloads : List InputPayload)
    {earlier : BackendWrite} (hearlier : .started earlier ∈ log) (hepoch : earlier.epoch = op.epoch) :
    earlier.Before ⟨op.call, nextIndex op.stage, op.sessionId, op.epoch, payloads⟩ := by
  rcases h.passed earlier hearlier op hturn.mem hepoch.symm with hfinished | hlt | hsame
  · rw [hturn.unfinished] at hfinished
    cases hfinished
  · exact .inl hlt
  · exact .inr hsame

end

/-- No session has a state that was retired, and each state is of one session. -/
structure Fenced (objects : List TerminalInputState) (states : OrderedMap String ℕ) (log : List InputLog) : Prop where
  owner : ∀ sessionId epoch, states.get sessionId = some epoch → ∃ state, objects[epoch]? = some state ∧ state.sessionId = sessionId
  retired : ∀ epoch, .retired epoch ∈ log → epoch < objects.length ∧ ∀ sessionId, states.get sessionId ≠ some epoch

variable {states : OrderedMap String ℕ} {sessionId : String}

section

variable (h : Fenced objects states log)
include h

theorem Fenced.extend (hentries : ∀ epoch, .retired epoch ∉ entries) : Fenced objects states (log ++ entries) :=
  { h with retired := fun epoch hepoch => h.retired epoch ((mem_append.1 hepoch).resolve_right (hentries epoch)) }

omit h in
theorem owner_set {other : ℕ} (hstate : objects[epoch]? = some state) (hsame : state'.sessionId = state.sessionId)
    (howner : ∃ owned, objects[other]? = some owned ∧ owned.sessionId = sessionId) :
    ∃ owned, (objects.set epoch state')[other]? = some owned ∧ owned.sessionId = sessionId := by
  obtain ⟨owned, howned, hsession⟩ := howner
  by_cases heq : epoch = other
  · subst heq
    rw [hstate] at howned
    obtain rfl := Option.some.inj howned
    exact ⟨state', List.getElem?_set_self (List.getElem?_eq_some_iff.1 hstate).1, hsame.trans hsession⟩
  · exact ⟨owned, by rwa [getElem?_set_ne heq], hsession⟩

theorem Fenced.withState (hstate : objects[epoch]? = some state) (hsame : state'.sessionId = state.sessionId) :
    Fenced (objects.set epoch state') states log := by
  refine ⟨fun sessionId other hother => owner_set hstate hsame (h.owner sessionId other hother), fun other hother => ?_⟩
  rw [length_set]
  exact h.retired other hother

theorem Fenced.register (sessionId : String) :
    Fenced (objects ++ [{ sessionId := sessionId }]) (states.set sessionId objects.length) log := by
  refine ⟨fun other epoch hother => ?_, fun epoch hepoch => ?_⟩
  · rw [get_set] at hother
    split at hother
    · next heq =>
      obtain rfl := Option.some.inj hother
      exact ⟨_, getElem?_concat_length, heq⟩
    · obtain ⟨state, hstate, hsession⟩ := h.owner other epoch hother
      exact ⟨state, getElem?_concat_of_some hstate, hsession⟩
  · obtain ⟨hlt, hnone⟩ := h.retired epoch hepoch
    rw [length_append]
    refine ⟨Nat.lt_add_right _ hlt, fun other hother => ?_⟩
    rw [get_set] at hother
    split at hother
    · exact absurd (Option.some.inj hother) (Nat.ne_of_gt hlt)
    · exact hnone other hother

theorem Fenced.session_eq {a b : String} (ha : states.get a = some epoch) (hb : states.get b = some epoch) : a = b := by
  obtain ⟨state, hstate, rfl⟩ := h.owner a epoch ha
  obtain ⟨state', hstate', rfl⟩ := h.owner b epoch hb
  rw [hstate] at hstate'
  rw [Option.some.inj hstate']

theorem Fenced.cleanup (hcurrent : states.get sessionId = some epoch) :
    Fenced objects (states.delete sessionId) (log ++ [.retired epoch]) := by
  have hdeleted : ∀ other other', (states.delete sessionId).get other = some other' → other ≠ sessionId ∧ states.get other = some other' := by
    intro other other' hother
    obtain ⟨hne, hother⟩ := get_delete_some hother
    exact ⟨Ne.symm hne, hother⟩
  refine ⟨fun other other' hother => h.owner other other' (hdeleted other other' hother).2, fun other hother => ?_⟩
  rcases mem_concat_cases hother with hother | hother
  · obtain ⟨hlt, hnone⟩ := h.retired other hother
    exact ⟨hlt, fun session hsession => hnone session (hdeleted session other hsession).2⟩
  · obtain rfl := InputLog.retired.inj hother
    obtain ⟨state, hstate, -⟩ := h.owner sessionId other hcurrent
    refine ⟨(List.getElem?_eq_some_iff.1 hstate).1, fun session hsession => ?_⟩
    obtain ⟨hne, hsession⟩ := hdeleted session other hsession
    exact hne (h.session_eq hsession hcurrent)

theorem Fenced.dispose : Fenced objects .empty (log ++ states.values.map .retired) := by
  have hempty : ∀ sessionId epoch, (empty : OrderedMap String ℕ).get sessionId ≠ some epoch := fun sessionId epoch hsome => by
    cases hsome
  refine ⟨fun sessionId epoch hsome => absurd hsome (hempty sessionId epoch), fun epoch hepoch => ⟨?_, fun sessionId => hempty sessionId epoch⟩⟩
  rcases mem_append.1 hepoch with hepoch | hepoch
  · exact (h.retired epoch hepoch).1
  · obtain ⟨value, hvalue, heq⟩ := mem_map.1 hepoch
    obtain rfl := InputLog.retired.inj heq
    obtain ⟨sessionId, hcurrent⟩ := (mem_values_iff states value).1 hvalue
    obtain ⟨state, hstate, -⟩ := h.owner sessionId value hcurrent
    exact (List.getElem?_eq_some_iff.1 hstate).1

end

theorem InputStep.fenced (hstep : InputStep c e c') (h : Fenced c.objects c.states c.log) : Fenced c'.objects c'.states c'.log := by
  cases hstep with
  | idle => exact h
  | register sessionId => exact h.register sessionId
  | cleanup sessionId epoch hcurrent => exact h.cleanup hcurrent
  | dispose => exact h.dispose
  | snapshot => exact h.extend (by simp)
  | submit sessionId epoch state request hcurrent hstate => exact h.withState hstate rfl
  | mark sessionId observed epoch state hcurrent hstate => exact .extend (h.withState hstate rfl) (by simp)
  | begin op state payloads rest hop hstate => exact .extend (.extend (h.withState hstate rfl) (by simp)) (by simp)
  | invalidate op state mark hop hstate | markReady op state observed pending hop hstate => exact .extend (h.withState hstate rfl) (by simp)
  | decline op state entries hop hstate hstage hbytes hentries => exact (h.extend fun epoch hepoch => hentries _ hepoch).withState hstate rfl
  | check => exact h
  | rejectWrite op state hop hstate => exact h.withState hstate rfl
  | sleep => exact h
  | proceed op => exact h.extend (by simp)
  | finish op state succeeded inFlight hop hstate => exact h.withState hstate rfl
  | answer op state request hop hstate => exact .withState (.extend h (by simp)) hstate rfl
  | release op state hop hstate => exact h.withState hstate rfl

structure Served (c : TerminalInputCoordinator) : Prop where
  queues : Queues c.operations c.calls c.objects.length
  fenced : Fenced c.objects c.states c.log
  retained : Retained c.objects c.operations c.retainedInputBytes
  writing : Writing c.operations c.calls c.inFlight c.log
  admissible : Along Admissible c.log

theorem along_extend {admissible : List InputLog → InputLog → Prop} (h : Along admissible log)
    (hentries : ∀ entry ∈ entries, ∀ before, admissible before entry) : Along admissible (log ++ entries) := by
  induction entries using reverseRecOn with
  | nil => rwa [append_nil]
  | append_singleton entries entry ih =>
    rw [← append_assoc]
    exact (ih fun other hother => hentries other (mem_append_left _ hother)).concat
      (hentries entry (mem_append_right _ mem_cons_self) _)

theorem Admissible.of_not_started (hentries : ∀ write, .started write ∉ entries) : ∀ entry ∈ entries, ∀ before, Admissible before entry := by
  intro entry hentry before
  cases entry with
  | started write => exact absurd hentry (hentries write)
  | _ => trivial

theorem Served.admissible_next (h : Served c) (hturn : Turn c.operations op) (hcurrent : c.states.get op.sessionId = some op.epoch)
    (payloads : List InputPayload) : Admissible c.log (.started ⟨op.call, nextIndex op.stage, op.sessionId, op.epoch, payloads⟩) :=
  ⟨fun hretired => (h.fenced.retired _ hretired).2 op.sessionId hcurrent,
    fun _ hearlier hepoch => h.writing.before hturn payloads hearlier hepoch⟩

theorem not_writing_of_queued (hstage : op.stage = .queued) (index : ℕ) (rest : List InputPayload) : op.stage ≠ .writing index rest := by
  rw [hstage]
  simp

theorem InputStep.writing (hstep : InputStep c e c') (h : Served c) : Writing c'.operations c'.calls c'.inFlight c'.log := by
  have hqueues := h.queues
  have hw := h.writing
  cases hstep with
  | idle | register => exact hw
  | cleanup | dispose | snapshot => exact hw.extend (by simp)
  | submit => exact hw.append _ rfl
  | mark => exact .extend (hw.append _ rfl) (by simp)
  | begin op state payloads rest hop hstate hstage hwaits hcurrent =>
    have haccepted : Writing c.operations c.calls c.inFlight (c.log ++ [.accepted op.sessionId]) := hw.extend (by simp)
    have hbegin := haccepted.begin hqueues (turn_of_waits hop hstage hwaits)
      (not_writing_of_queued hstage) payloads rest
    rw [hstage] at hbegin
    exact hbegin
  | invalidate op state mark hop hstate hstage | markReady op state observed pending hop hstate hstage =>
    exact .extend (hw.leave (hw.none_of_stage hqueues hop (not_writing_of_queued hstage))) (by simp)
  | decline op state entries hop hstate hstage hbytes hentries =>
    have hnone : ∀ index rest, op.stage ≠ .writing index rest := by rcases hstage with hstage | hstage <;> rw [hstage] <;> simp
    exact (hw.extend fun write hwrite => hentries _ hwrite).leave (hw.none_of_stage hqueues hop hnone)
  | check op state request hop hstate hstage hwaits =>
    refine hw.setStage hqueues hop (hw.none_of_stage hqueues hop (not_writing_of_queued hstage)) (.inr ?_)
    rw [hstage]
    exact ⟨Nat.le_refl _, rfl⟩
  | rejectWrite op state hop hstate hstage => exact hw.setStage hqueues hop (hw.none_of_stage hqueues hop (not_writing_of_queued hstage)) (.inl rfl)
  | sleep op state write index rest hop hstate hstage hwrite hcall =>
    obtain ⟨hnone, herased⟩ := hw.answered hqueues hwrite hcall
    refine herased.setStage hqueues hop hnone (.inr ?_)
    rw [hstage]
    exact ⟨Nat.le_refl _, rfl⟩
  | proceed op state index payloads rest rest' hop hstate hstage hcurrent =>
    have hbegin := hw.begin hqueues (hqueues.sleeping hop hstage) (by rw [hstage]; simp) payloads rest'
    rw [hstage] at hbegin
    exact hbegin
  | finish op state succeeded inFlight hop hstate hstage =>
    rcases hstage with ⟨⟨index, rest, hstage⟩, rfl⟩ | ⟨index, rest, write, hstage, hwrite, hcall, rfl⟩
    · exact hw.setStage hqueues hop (hw.none_of_stage hqueues hop (by rw [hstage]; simp)) (.inl rfl)
    · obtain ⟨hnone, herased⟩ := hw.answered hqueues hwrite hcall
      exact herased.setStage hqueues hop hnone (.inl rfl)
  | answer op state request hop hstate hstage =>
    exact (Writing.extend hw (by simp)).leave (hw.none_of_stage hqueues hop (by rw [hstage]; simp))
  | release op state hop hstate hstage =>
    refine hw.leave (hw.none_of_stage hqueues hop fun index rest hwriting => ?_)
    rw [hwriting] at hstage
    cases hstage

theorem InputStep.admissible (hstep : InputStep c e c') (h : Served c) : Along Admissible c'.log := by
  have hlog := h.admissible
  have hsilent : ∀ {entries : List InputLog}, (∀ write, .started write ∉ entries) → Along Admissible (c.log ++ entries) :=
    fun hentries => along_extend hlog (Admissible.of_not_started hentries)
  cases hstep with
  | idle | register => exact hlog
  | cleanup | dispose | snapshot => exact hsilent (by simp)
  | submit => exact hlog
  | mark => exact hsilent (by simp)
  | begin op state payloads rest hop hstate hstage hwaits hcurrent =>
    obtain ⟨hfence, hbefore⟩ := h.admissible_next (turn_of_waits hop hstage hwaits) hcurrent payloads
    rw [hstage] at hfence hbefore
    have haccepted : Along Admissible (c.log ++ [.accepted op.sessionId]) := hsilent (by simp)
    refine haccepted.concat ⟨?_, fun earlier hearlier => hbefore earlier ?_⟩
    · simpa using hfence
    · simpa using hearlier
  | invalidate | markReady => exact hsilent (by simp)
  | decline op state entries hop hstate hstage hbytes hentries => exact hsilent fun write hwrite => hentries _ hwrite
  | check | rejectWrite | sleep => exact hlog
  | proceed op state index payloads rest rest' hop hstate hstage hcurrent =>
    have hnext := h.admissible_next (h.queues.sleeping hop hstage) hcurrent payloads
    rw [hstage] at hnext
    exact hlog.concat hnext
  | finish => exact hlog
  | answer => exact hsilent (by simp)
  | release => exact hlog

theorem InputStep.served (hstep : InputStep c e c') (h : Served c) : Served c' :=
  ⟨hstep.queues h.queues, hstep.fenced h.fenced, hstep.retained h.queues h.retained, hstep.writing h, hstep.admissible h⟩

theorem Served.step (h : Served c) (hstep : c.step e = some c') : Served c' := by
  rcases step_cases hstep with hstep | ⟨⟨c₁, hfirst, hsecond⟩, -⟩
  · exact hstep.served h
  · exact hsecond.served (hfirst.served h)

theorem served_start : Served start where
  queues := by constructor <;> simp [start]
  fenced := by constructor <;> simp [start]
  retained := by constructor <;> simp [start, sessionBytes, fleetBytes]
  writing := by constructor <;> simp [start]
  admissible := along_nil

def twoWrites : List InputEvent :=
  [.registerSession "s1", .writeInput "s1" [104, 105], .writeInputSequence "s1" [[120], [13]] true, .start 0,
    .written ⟨0, 0, "s1", 0, [[104, 105]]⟩ true, .start 1, .settle 0, .written ⟨1, 0, "s1", 0, [[120]]⟩ true]

end TerminalInputCoordinator

end Kookr.Server
