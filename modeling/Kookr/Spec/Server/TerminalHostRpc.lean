import Mathlib.Algebra.Ring.Nat
import Mathlib.Data.List.Basic
import Mathlib.Data.Int.Notation

/-! The control channel of one generation of the terminal host (`src/server/terminal-host-rpc.ts`, with the admission of
`src/server/terminal-host-admission.ts`). The packet that the queue yields is handed to `send` as the last thing a call does,
so what `send` does before it returns, throwing included, is the next events. The size of a payload comes with it. -/

namespace Kookr.Server

inductive TerminalHostMethod where
  | createSession | killSession | listSessions | isAlive | write | writeSequence
  | captureBytes | captureStreamSnapshot | captureCurrentFrame | resize | getStats
  | getSessionStartedAt | getSessionDiagnostics | getPersistenceStats | reconnectTransport
  | verifyRecoveredSession | recoverLaunchAbandonedSessions | registerSession
  | cleanupSession | getSnapshot | getWriteMetrics | writeInput
  | writeInputSequence | markUserPromptSubmitted | markToolStarted
  | markPermissionBlocked | markStopFailure | markTurnStopped
  | markSessionEnded | markPromptReady | handleEmptyEnterIntent
  | dispose | connectionRenew | connectionClose | streamSubscribe | streamUnsubscribe | streamAck
  deriving DecidableEq

namespace TerminalHostMethod

def name : TerminalHostMethod → String
  | createSession => "createSession"
  | killSession => "killSession"
  | listSessions => "listSessions"
  | isAlive => "isAlive"
  | write => "write"
  | writeSequence => "writeSequence"
  | captureBytes => "captureBytes"
  | captureStreamSnapshot => "captureStreamSnapshot"
  | captureCurrentFrame => "captureCurrentFrame"
  | resize => "resize"
  | getStats => "getStats"
  | getSessionStartedAt => "getSessionStartedAt"
  | getSessionDiagnostics => "getSessionDiagnostics"
  | getPersistenceStats => "getPersistenceStats"
  | reconnectTransport => "reconnectTransport"
  | verifyRecoveredSession => "verifyRecoveredSession"
  | recoverLaunchAbandonedSessions => "recoverLaunchAbandonedSessions"
  | registerSession => "input.registerSession"
  | cleanupSession => "input.cleanupSession"
  | getSnapshot => "input.getSnapshot"
  | getWriteMetrics => "input.getWriteMetrics"
  | writeInput => "input.writeInput"
  | writeInputSequence => "input.writeInputSequence"
  | markUserPromptSubmitted => "input.markUserPromptSubmitted"
  | markToolStarted => "input.markToolStarted"
  | markPermissionBlocked => "input.markPermissionBlocked"
  | markStopFailure => "input.markStopFailure"
  | markTurnStopped => "input.markTurnStopped"
  | markSessionEnded => "input.markSessionEnded"
  | markPromptReady => "input.markPromptReady"
  | handleEmptyEnterIntent => "input.handleEmptyEnterIntent"
  | dispose => "input.dispose"
  | connectionRenew => "connection.renew"
  | connectionClose => "connection.close"
  | streamSubscribe => "stream.subscribe"
  | streamUnsubscribe => "stream.unsubscribe"
  | streamAck => "stream.ack"

def readinessMethods : List TerminalHostMethod :=
  [registerSession, cleanupSession, dispose, markUserPromptSubmitted, markToolStarted, markPermissionBlocked,
    markStopFailure, markTurnStopped, markSessionEnded, markPromptReady, handleEmptyEnterIntent]

def isReadiness (method : TerminalHostMethod) : Bool := method ∈ readinessMethods

/-- `BULK`. -/
def isBulk (method : TerminalHostMethod) : Bool :=
  method ∈ [captureBytes, captureStreamSnapshot, captureCurrentFrame, getSessionDiagnostics]

end TerminalHostMethod

def MiB : ℕ := 1024 * 1024

@[ext]
structure TerminalHostAdmission where
  count : ℤ
  bytes : ℤ
  ordinaryCount : ℤ
  ordinaryBytes : ℤ
  deriving DecidableEq

namespace TerminalHostAdmission

def empty : TerminalHostAdmission := ⟨0, 0, 0, 0⟩

variable (a : TerminalHostAdmission) (method : TerminalHostMethod) (bytes : ℕ)

def charge : TerminalHostAdmission where
  count := a.count + 1
  bytes := a.bytes + bytes
  ordinaryCount := if method.isReadiness then a.ordinaryCount else a.ordinaryCount + 1
  ordinaryBytes := if method.isReadiness then a.ordinaryBytes else a.ordinaryBytes + bytes

def acquire : Option TerminalHostAdmission :=
  if 8 * MiB < bytes ∨ 128 ≤ a.count ∨ 16 * MiB < a.bytes + bytes ∨
      method.isReadiness = false ∧ (64 ≤ a.ordinaryCount ∨ 14 * MiB < a.ordinaryBytes + bytes) then none
  else some (a.charge method bytes)

/-- The function that `acquire` returns, which is called once. -/
def release : TerminalHostAdmission where
  count := a.count - 1
  bytes := a.bytes - bytes
  ordinaryCount := if method.isReadiness then a.ordinaryCount else a.ordinaryCount - 1
  ordinaryBytes := if method.isReadiness then a.ordinaryBytes else a.ordinaryBytes - bytes

end TerminalHostAdmission

structure PendingRpc where
  id : ℕ
  method : TerminalHostMethod
  deadline : ℕ
  bytes : ℕ
  charged : Bool
  settled : Bool
  transmitting : Bool
  deriving DecidableEq

structure HostFailure where
  name : String
  message : String
  sessionId : Option String
  durationMs : Option ℕ
  deriving DecidableEq

structure TerminalHostResponse (ρ : Type) where
  isResponse : Bool
  generation : String
  id : ℕ
  /-- `none` is an infinite size. -/
  payloadSize : Option ℕ
  result : ρ
  error : Option HostFailure

inductive RpcOutcome (ρ : Type) where
  | resolved (value : ρ)
  | sessionGone (sessionId : String)
  | writeTimeout (sessionId : String) (durationMs : ℕ)
  | unavailable (message : String)
  deriving DecidableEq

/-- What a client did and was told, in order. -/
inductive RpcEntry (ρ : Type) where
  | refused (message : String)
  | admitted (id : ℕ) (method : TerminalHostMethod) (bytes : ℕ)
  | sent (id : ℕ)
  /-- The callback of `send` was called, or `send` threw. -/
  | reported (id : ℕ)
  | settled (id : ℕ) (outcome : RpcOutcome ρ)
  | closed
  deriving DecidableEq

structure RpcClient (ρ : Type) where
  generation : String
  admission : TerminalHostAdmission
  /-- The calls that were admitted, also those that are pending no longer. -/
  calls : List PendingRpc
  pending : List ℕ
  queue : List ℕ
  nextId : ℕ
  retainedBytes : ℤ
  transmitting : Option ℕ
  closed : Bool
  log : List (RpcEntry ρ)

inductive RpcEvent (ρ : Type) where
  /-- The clock is read once for each packet that is looked at; `none` is an infinite size. -/
  | request (method : TerminalHostMethod) (payloadSize : Option ℕ) (cloneable : Bool) (timeoutMs : ℤ) (now : ℕ) (clock : ℕ → ℕ)
  | receive (response : TerminalHostResponse ρ)
  | deadline (id : ℕ)
  | sent (id : ℕ) (error : Option String) (clock : ℕ → ℕ)
  | close (message : String)

/-- Where the call is in the order of the queue. -/
def pickIndex (methods : List TerminalHostMethod) : ℕ :=
  ((methods.findIdx? fun m => m.isReadiness).or (methods.findIdx? fun m => !m.isBulk)).getD 0

def TerminalHostResponse.outcome {ρ : Type} (response : TerminalHostResponse ρ) : RpcOutcome ρ :=
  match response.error with
  | none => .resolved response.result
  | some error =>
    if error.name = "SessionGoneError" then .sessionGone (error.sessionId.getD "")
    else if error.name = "WriteTimeoutError" then .writeTimeout (error.sessionId.getD "") (error.durationMs.getD 0)
    else .unavailable error.message

namespace RpcClient

variable {ρ : Type}

def start (generation : String) : RpcClient ρ := ⟨generation, .empty, [], [], [], 0, 0, none, false, []⟩

variable (c : RpcClient ρ)

def call (id : ℕ) : Option PendingRpc := c.calls.find? fun p => p.id = id

def setCall (id : ℕ) (change : PendingRpc → PendingRpc) : RpcClient ρ :=
  { c with calls := c.calls.map fun p => if p.id = id then change p else p }

def note (entry : RpcEntry ρ) : RpcClient ρ := { c with log := c.log ++ [entry] }

def release (pending : PendingRpc) : RpcClient ρ :=
  if pending.charged then
    let c := c.setCall pending.id fun p => { p with charged := false }
    { c with
      admission := c.admission.release pending.method pending.bytes
      retainedBytes := c.retainedBytes - pending.bytes }
  else c

def finish (id : ℕ) (outcome : RpcOutcome ρ) : RpcClient ρ :=
  if id ∈ c.pending then
    match c.call id with
    | none => c
    | some pending =>
      let c := c.setCall id fun p => { p with settled := true }
      let c := { c with pending := c.pending.erase id }
      let c := if pending.transmitting then c else c.release pending
      c.note (.settled id outcome)
  else c

/-- `pump`, while there is fuel. -/
def pumpFrom : ℕ → (ℕ → ℕ) → RpcClient ρ → RpcClient ρ
  | 0, _, c => c
  | fuel + 1, clock, c =>
    if c.closed || c.transmitting.isSome then c
    else
      let valid := c.queue.filter fun id => id ∈ c.pending
      let index := pickIndex (valid.filterMap fun id => (c.call id).map PendingRpc.method)
      match (valid[index]?).bind c.call with
      | none => { c with queue := valid }
      | some pending =>
        let c := { c with queue := valid.eraseIdx index }
        if pending.deadline ≤ clock 0 then
          pumpFrom fuel (fun n => clock (n + 1)) (c.finish pending.id (.unavailable "Terminal host request expired before transmission"))
        else
          let c := c.setCall pending.id fun p => { p with transmitting := true }
          { c with transmitting := some pending.id }.note (.sent pending.id)

/-- Each packet that has expired is one packet less in the queue. -/
def pump (clock : ℕ → ℕ) : RpcClient ρ := c.pumpFrom (c.queue.length + 1) clock

def request (method : TerminalHostMethod) (payloadSize : Option ℕ) (cloneable : Bool) (timeoutMs : ℤ) (now : ℕ) (clock : ℕ → ℕ) :
    RpcClient ρ :=
  let admission := if c.closed then none else payloadSize.bind fun size => c.admission.acquire method (size + 256)
  match admission, payloadSize with
  | some admission, some size =>
    let bytes := size + 256
    let id := c.nextId + 1
    if cloneable then
      let deadline := now + (min 30000 (max 1 timeoutMs)).toNat
      let c : RpcClient ρ :=
        { c with
          nextId := id
          admission
          calls := c.calls ++ [⟨id, method, deadline, bytes, true, false, false⟩]
          pending := c.pending ++ [id]
          retainedBytes := c.retainedBytes + bytes
          queue := c.queue ++ [id] }
      (c.note (.admitted id method bytes)).pump clock
    else
      { c with nextId := id, admission := admission.release method bytes }.note (.refused "Terminal host request cannot be serialized")
  | _, _ => c.note (.refused "Terminal host request capacity unavailable")

def receive (response : TerminalHostResponse ρ) : RpcClient ρ :=
  if c.closed || !response.isResponse || response.generation ≠ c.generation || response.id ∉ c.pending then c
  else if ∀ size ∈ response.payloadSize, 8 * MiB < size then c.finish response.id (.unavailable "Oversized terminal host response")
  else c.finish response.id response.outcome

def sent (id : ℕ) (error : Option String) (clock : ℕ → ℕ) : RpcClient ρ :=
  let c := c.note (.reported id)
  if c.transmitting ≠ some id then c
  else
    match c.call id with
    | none => c
    | some pending =>
      let c := c.setCall id fun p => { p with transmitting := false }
      let c := { c with transmitting := none }
      let c := if pending.settled then c.release pending
        else match error with
          | some message => c.finish id (.unavailable ("Terminal host send failed: " ++ message))
          | none => c
      c.pump clock

def close (message : String) : RpcClient ρ :=
  if c.closed then c
  else
    let c := { c with closed := true }.note .closed
    let c := c.pending.foldl (fun c id => c.finish id (.unavailable message)) c
    let c := match c.transmitting.bind c.call with
      | some pending => c.release pending
      | none => c
    { c with transmitting := none, queue := [] }

/-- The timer of a call that is pending no longer has been cleared; `send` reports packets that it was given. -/
def step (c : RpcClient ρ) : RpcEvent ρ → Option (RpcClient ρ)
  | .request method payloadSize cloneable timeoutMs now clock => some (c.request method payloadSize cloneable timeoutMs now clock)
  | .receive response => some (c.receive response)
  | .deadline id =>
    if id ∈ c.pending then
      (c.call id).map fun pending =>
        c.finish id (.unavailable ("Terminal host " ++ pending.method.name ++ " deadline exceeded; delivery may be uncertain"))
    else none
  | .sent id error clock => if c.log.any fun | .sent id' => id' = id | _ => false then some (c.sent id error clock) else none
  | .close message => some (c.close message)

end RpcClient

end Kookr.Server
