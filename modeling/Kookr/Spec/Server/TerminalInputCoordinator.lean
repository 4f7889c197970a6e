import Mathlib.Algebra.Ring.Nat
import Mathlib.Data.List.Basic
import Kookr.Lib.OrderedMap

/-! The terminal input coordinator (`src/server/terminal-input-coordinator.ts`). A state object is known by
its position in the order of registration, which is its epoch; the promise chain of a state is the order of its
operations, of which one runs when the ones before it have settled. The calls are numbered. What the backend
answers, and when, is open. -/

namespace Kookr.Server

open Kookr.Lib

abbrev InputPayload := List UInt8

inductive BlockReason where
  | permission
  | running
  | terminated
  deriving DecidableEq

inductive PromptStatus where
  | unknown
  | ready (readinessVersion : ℕ)
  | blocked (reason : BlockReason)
  deriving DecidableEq

/-- The marks that invalidate what was observed. -/
inductive ReadinessMark where
  | userPromptSubmitted
  | toolStarted
  | permissionBlocked
  | stopFailure
  | turnStopped
  | sessionEnded
  deriving DecidableEq

/-- The prompt that a mark leaves. -/
def ReadinessMark.prompt : ReadinessMark → PromptStatus
  | .userPromptSubmitted | .stopFailure | .turnStopped => .unknown
  | .toolStarted => .blocked .running
  | .permissionBlocked => .blocked .permission
  | .sessionEnded => .blocked .terminated

structure TerminalInputState where
  sessionId : String
  readinessVersion : ℕ := 0
  prompt : PromptStatus := .unknown
  pendingWrites : ℕ := 0
  queuedOperations : ℕ := 0
  retainedInputBytes : ℕ := 0
  deriving DecidableEq

structure ObservedReadiness where
  observedEpoch : ℕ
  observedReadinessVersion : ℕ
  deriving DecidableEq

structure EmptyEnterIntentRequest where
  intentId : String
  taskId : String
  sessionId : String
  inputStateEpoch : ℕ
  observedReadinessVersion : ℕ
  deriving DecidableEq

inductive EmptyEnterRejection where
  | staleEpoch
  | staleReadinessVersion
  | blocked
  | notReady
  | sessionGone
  deriving DecidableEq

inductive EmptyEnterDecision where
  | rejected (intentId sessionId : String) (reason : EmptyEnterRejection)
  | validEmptyEnter (intentId taskId sessionId : String) (inputStateEpoch decisionReadinessVersion : ℕ)
  deriving DecidableEq

inductive InputRequest where
  | write (payload : InputPayload)
  /-- `paced` when there is a delay between the payloads. -/
  | writeSequence (payloads : List InputPayload) (paced : Bool)
  | invalidate (mark : ReadinessMark)
  | markPromptReady (observed : ObservedReadiness) (observedWhileWritePending : Bool)
  | emptyEnter (request : EmptyEnterIntentRequest)
  deriving DecidableEq

inductive OperationStage where
  | queued
  /-- The backend has the write of this index; `rest` follows it. -/
  | writing (index : ℕ) (rest : List InputPayload)
  /-- The pause in front of the write of this index. -/
  | sleeping (index : ℕ) (rest : List InputPayload)
  | checkingAlive
  /-- A write whose reservation is not released yet. -/
  | finished (succeeded : Bool)
  deriving DecidableEq

structure InputOperation where
  call : ℕ
  sessionId : String
  epoch : ℕ
  request : InputRequest
  stage : OperationStage
  deriving DecidableEq

/-- A `write` or `writeSequence` of the backend. -/
structure BackendWrite where
  call : ℕ
  index : ℕ
  sessionId : String
  epoch : ℕ
  payloads : List InputPayload
  deriving DecidableEq

/-- What has happened, for the statements about a run. -/
inductive InputLog where
  | retired (epoch : ℕ)
  | started (write : BackendWrite)
  | accepted (sessionId : String)
  | invalidated (sessionId : String)
  /-- `quiet` when no write of the session was accepted and unfinished. -/
  | snapshot (sessionId : String) (epoch readinessVersion : ℕ) (quiet : Bool)
  | markCalled (call : ℕ) (sessionId : String) (observed : ObservedReadiness)
  | markedReady (call : ℕ) (sessionId : String) (epoch readinessVersion : ℕ)
  /-- With the epoch that the session has at that moment. -/
  | decided (decision : EmptyEnterDecision) (current : Option ℕ)
  deriving DecidableEq

structure TerminalInputCoordinator where
  objects : List TerminalInputState
  states : OrderedMap String ℕ
  maxPendingWrites : ℕ
  retainedInputBytes : ℕ
  disposed : Bool
  operations : List InputOperation
  calls : ℕ
  /-- What the backend has not answered. -/
  inFlight : List BackendWrite
  log : List InputLog

def MAX_PAYLOADS : ℕ := 4096

def MAX_QUEUED_OPERATIONS : ℕ := 256

def MAX_SESSION_BYTES : ℕ := 8 * 1024 * 1024

def MAX_FLEET_BYTES : ℕ := 16 * 1024 * 1024

def payloadBytes (payloads : List InputPayload) : ℕ := (payloads.map List.length).sum

namespace InputRequest

/-- The bytes that are reserved for the request. -/
def bytes : InputRequest → ℕ
  | .write payload => payloadBytes [payload]
  | .writeSequence payloads _ => payloadBytes payloads
  | _ => 0

end InputRequest

namespace OperationStage

def isFinished : OperationStage → Bool
  | .finished _ => true
  | _ => false

/-- A write that was accepted and is not finished. -/
def isPending : OperationStage → Bool
  | .writing _ _ | .sleeping _ _ => true
  | _ => false

end OperationStage

inductive InputEvent where
  | registerSession (sessionId : String)
  | cleanupSession (sessionId : String)
  | dispose
  | getSnapshot (sessionId : String)
  | writeInput (sessionId : String) (payload : InputPayload)
  | writeInputSequence (sessionId : String) (payloads : List InputPayload) (paced : Bool)
  /-- `markUserPromptSubmitted` and the other marks that invalidate. -/
  | invalidate (sessionId : String) (mark : ReadinessMark)
  | markPromptReady (sessionId : String) (observed : ObservedReadiness)
  | handleEmptyEnterIntent (request : EmptyEnterIntentRequest)
  /-- The turn of an operation in its state's queue has come. -/
  | start (call : ℕ)
  | written (write : BackendWrite) (succeeded : Bool)
  | slept (call : ℕ)
  | aliveAnswered (call : ℕ) (alive : Bool)
  /-- The reservation is released, and the promise of the call settles. -/
  | settle (call : ℕ)
  deriving DecidableEq

namespace TerminalInputCoordinator

def start : TerminalInputCoordinator := ⟨[], .empty, 0, 0, false, [], 0, [], []⟩

variable (c : TerminalInputCoordinator)

def withLog (entries : List InputLog) : TerminalInputCoordinator := { c with log := c.log ++ entries }

def withState (epoch : ℕ) (state : TerminalInputState) : TerminalInputCoordinator :=
  { c with objects := c.objects.set epoch state }

/-- Nothing when it throws. -/
def registerSession (sessionId : String) : Option TerminalInputCoordinator :=
  if c.disposed then none
  else if c.states.has sessionId then some c
  else some { c with
    objects := c.objects ++ [{ sessionId }]
    states := c.states.set sessionId c.objects.length }

def cleanupSession (sessionId : String) : TerminalInputCoordinator :=
  match c.states.get sessionId with
  | none => c
  | some epoch => withLog { c with states := c.states.delete sessionId } [.retired epoch]

def dispose : TerminalInputCoordinator :=
  withLog { c with disposed := true, states := .empty } (c.states.values.map .retired)

/-- The state that a new operation of the session queues behind. -/
def stateOf (sessionId : String) : Option (ℕ × TerminalInputState) :=
  (c.states.get sessionId).bind fun epoch => (c.objects[epoch]?).map fun state => (epoch, state)

def getSnapshot (sessionId : String) : TerminalInputCoordinator :=
  match c.stateOf sessionId with
  | none => c
  | some (epoch, state) =>
    let quiet := c.operations.all fun op => op.sessionId ≠ sessionId || !op.stage.isPending
    c.withLog [.snapshot sessionId epoch state.readinessVersion quiet]

/-- `withSessionQueue`, up to the first await. -/
def enqueue (sessionId : String) (epoch : ℕ) (state : TerminalInputState) (request : InputRequest) : TerminalInputCoordinator :=
  { c.withState epoch { state with queuedOperations := state.queuedOperations + 1 } with
    operations := c.operations ++ [⟨c.calls, sessionId, epoch, request, .queued⟩]
    calls := c.calls + 1 }

def refusesInput (state : TerminalInputState) (payloads : List InputPayload) : Bool :=
  MAX_PAYLOADS < payloads.length || MAX_QUEUED_OPERATIONS ≤ state.queuedOperations ||
    MAX_SESSION_BYTES < state.retainedInputBytes + payloadBytes payloads || MAX_FLEET_BYTES < c.retainedInputBytes + payloadBytes payloads

/-- `reserveInput` and the queueing of the write. A call that is refused leaves the session registered. -/
def submitInput (sessionId : String) (request : InputRequest) (payloads : List InputPayload) : TerminalInputCoordinator :=
  match c.registerSession sessionId with
  | none => c
  | some c =>
    match c.stateOf sessionId with
    | none => c
    | some (epoch, state) =>
      if payloads = [] || c.refusesInput state payloads then c
      else
        { c.enqueue sessionId epoch { state with retainedInputBytes := state.retainedInputBytes + payloadBytes payloads } request with
          retainedInputBytes := c.retainedInputBytes + payloadBytes payloads }

/-- An operation on a session that is not there is over at once. -/
def submitControl (sessionId : String) (request : InputRequest) : TerminalInputCoordinator :=
  match c.stateOf sessionId with
  | none => c
  | some (epoch, state) => c.enqueue sessionId epoch state request

def markPromptReady (sessionId : String) (observed : ObservedReadiness) : TerminalInputCoordinator :=
  match c.stateOf sessionId with
  | none => c
  | some (epoch, state) =>
    (c.enqueue sessionId epoch state (.markPromptReady observed (0 < state.pendingWrites))).withLog
      [.markCalled c.calls sessionId observed]

/-- `assertCurrent`. -/
def isCurrent (op : InputOperation) : Bool := c.states.get op.sessionId = some op.epoch

/-- An operation in front of it in its queue has not settled. -/
def waits (op : InputOperation) : Bool :=
  c.operations.any fun other => other.epoch = op.epoch && other.call < op.call && !other.stage.isFinished

def operation (call : ℕ) : Option InputOperation := c.operations.find? fun op => op.call = call

def setStage (call : ℕ) (stage : OperationStage) : TerminalInputCoordinator :=
  { c with operations := c.operations.map fun op => if op.call = call then { op with stage } else op }

def leave (op : InputOperation) : TerminalInputCoordinator := { c with operations := c.operations.erase op }

def totalPendingWrites : ℕ := (c.states.values.map fun epoch => ((c.objects[epoch]?).map TerminalInputState.pendingWrites).getD 0).sum

def acceptWrite (op : InputOperation) (state : TerminalInputState) : TerminalInputCoordinator :=
  let c := c.withState op.epoch
    { state with readinessVersion := state.readinessVersion + 1, prompt := .unknown, pendingWrites := state.pendingWrites + 1 }
  { c with maxPendingWrites := max c.maxPendingWrites c.totalPendingWrites }.withLog [.accepted op.sessionId]

def beginWrite (op : InputOperation) (index : ℕ) (payloads rest : List InputPayload) : TerminalInputCoordinator :=
  let write : BackendWrite := ⟨op.call, index, op.sessionId, op.epoch, payloads⟩
  ({ c with inFlight := c.inFlight ++ [write] }.setStage op.call (.writing index rest)).withLog [.started write]

/-- The `finally` of a write and of its turn. -/
def finishWrite (op : InputOperation) (state : TerminalInputState) (succeeded : Bool) : TerminalInputCoordinator :=
  (c.withState op.epoch
    { state with pendingWrites := state.pendingWrites - 1, queuedOperations := state.queuedOperations - 1 }).setStage op.call (.finished succeeded)

/-- The operation's turn is over, and it holds no reservation. -/
def finishControl (op : InputOperation) (state : TerminalInputState) : TerminalInputCoordinator :=
  (c.withState op.epoch { state with queuedOperations := state.queuedOperations - 1 }).leave op

def acceptsMark (epoch : ℕ) (state : TerminalInputState) (observed : ObservedReadiness) (observedWhileWritePending : Bool) : Bool :=
  !observedWhileWritePending && epoch = observed.observedEpoch && state.readinessVersion = observed.observedReadinessVersion &&
    state.pendingWrites = 0 && match state.prompt with
      | .blocked _ => false
      | _ => true

/-- The checks in front of the liveness test. -/
def rejectsIntent (epoch : ℕ) (state : TerminalInputState) (request : EmptyEnterIntentRequest) : Option EmptyEnterRejection :=
  if epoch ≠ request.inputStateEpoch then some .staleEpoch
  else if state.readinessVersion ≠ request.observedReadinessVersion then some .staleReadinessVersion
  else match state.prompt with
    | .blocked _ => some .blocked
    | .unknown => some .notReady
    | .ready readinessVersion => if readinessVersion ≠ request.observedReadinessVersion then some .notReady else none

def decide (op : InputOperation) (decision : EmptyEnterDecision) : TerminalInputCoordinator :=
  c.withLog [.decided decision (c.states.get op.sessionId)]

/-- The turn of an operation whose state is current. -/
def run (op : InputOperation) (state : TerminalInputState) : TerminalInputCoordinator :=
  match op.request with
  | .write payload => (c.acceptWrite op state).beginWrite op 0 [payload] []
  | .writeSequence payloads paced =>
    if paced && 1 < payloads.length then (c.acceptWrite op state).beginWrite op 0 (payloads.take 1) (payloads.drop 1)
    else (c.acceptWrite op state).beginWrite op 0 payloads []
  | .invalidate mark =>
    (c.finishControl op { state with readinessVersion := state.readinessVersion + 1, prompt := mark.prompt }).withLog
      [.invalidated op.sessionId]
  | .markPromptReady observed observedWhileWritePending =>
    if acceptsMark op.epoch state observed observedWhileWritePending then
      (c.finishControl op { state with prompt := .ready state.readinessVersion }).withLog
        [.markedReady op.call op.sessionId op.epoch state.readinessVersion]
    else c.finishControl op state
  | .emptyEnter request =>
    match rejectsIntent op.epoch state request with
    | some reason => (c.decide op (.rejected request.intentId request.sessionId reason)).finishControl op state
    | none => c.setStage op.call .checkingAlive

/-- The turn of an operation whose state is retired: it is rejected, and a write still holds its reservation. -/
def reject (op : InputOperation) (state : TerminalInputState) : TerminalInputCoordinator :=
  match op.request with
  | .write _ | .writeSequence _ _ =>
    (c.withState op.epoch { state with queuedOperations := state.queuedOperations - 1 }).setStage op.call (.finished false)
  | _ => c.finishControl op state

def startOperation (op : InputOperation) (state : TerminalInputState) : TerminalInputCoordinator :=
  if c.isCurrent op then c.run op state else c.reject op state

/-- The backend has answered a write. -/
def afterWrite (op : InputOperation) (state : TerminalInputState) (index : ℕ) (rest : List InputPayload) (succeeded : Bool) :
    TerminalInputCoordinator :=
  if succeeded && rest ≠ [] then c.setStage op.call (.sleeping (index + 1) rest) else c.finishWrite op state succeeded

/-- After the pause between two payloads. -/
def afterSleep (op : InputOperation) (state : TerminalInputState) (index : ℕ) (rest : List InputPayload) : TerminalInputCoordinator :=
  if c.isCurrent op then c.beginWrite op index (rest.take 1) (rest.drop 1) else c.finishWrite op state false

def afterAlive (op : InputOperation) (state : TerminalInputState) (request : EmptyEnterIntentRequest) (alive : Bool) :
    TerminalInputCoordinator :=
  (c.decide op
    (if alive then .validEmptyEnter request.intentId request.taskId request.sessionId op.epoch state.readinessVersion
     else .rejected request.intentId request.sessionId .sessionGone)).finishControl op state

def release (op : InputOperation) (state : TerminalInputState) : TerminalInputCoordinator :=
  { (c.withState op.epoch { state with retainedInputBytes := state.retainedInputBytes - op.request.bytes }).leave op with
    retainedInputBytes := c.retainedInputBytes - op.request.bytes }

/-- The operation and its state object. -/
def operationAt (call : ℕ) : Option (InputOperation × TerminalInputState) :=
  (c.operation call).bind fun op => (c.objects[op.epoch]?).map fun state => (op, state)

def step : InputEvent → Option TerminalInputCoordinator
  | .registerSession sessionId => some ((c.registerSession sessionId).getD c)
  | .cleanupSession sessionId => some (c.cleanupSession sessionId)
  | .dispose => some c.dispose
  | .getSnapshot sessionId => some (c.getSnapshot sessionId)
  | .writeInput sessionId payload => some (c.submitInput sessionId (.write payload) [payload])
  | .writeInputSequence sessionId payloads paced => some (c.submitInput sessionId (.writeSequence payloads paced) payloads)
  | .invalidate sessionId mark => some (c.submitControl sessionId (.invalidate mark))
  | .markPromptReady sessionId observed => some (c.markPromptReady sessionId observed)
  | .handleEmptyEnterIntent request => some (c.submitControl request.sessionId (.emptyEnter request))
  | .start call =>
    (c.operationAt call).bind fun (op, state) =>
      if op.stage = .queued && !c.waits op then some (c.startOperation op state) else none
  | .written write succeeded =>
    if write ∈ c.inFlight then
      (c.operationAt write.call).bind fun (op, state) =>
        match op.stage with
        | .writing index rest => some ({ c with inFlight := c.inFlight.erase write }.afterWrite op state index rest succeeded)
        | _ => none
    else none
  | .slept call =>
    (c.operationAt call).bind fun (op, state) =>
      match op.stage with
      | .sleeping index rest => some (c.afterSleep op state index rest)
      | _ => none
  | .aliveAnswered call alive =>
    (c.operationAt call).bind fun (op, state) =>
      match op.stage, op.request with
      | .checkingAlive, .emptyEnter request => some (c.afterAlive op state request alive)
      | _, _ => none
  | .settle call =>
    (c.operationAt call).bind fun (op, state) => if op.stage.isFinished then some (c.release op state) else none

end TerminalInputCoordinator

end Kookr.Server
