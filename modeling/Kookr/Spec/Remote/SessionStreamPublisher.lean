import Kookr.Spec.Remote.TerminalPublicationGate

/-! The publisher of terminal sessions (`src/remote/session-stream-publisher.ts`) over the
gate. Every answer from outside (the clock, the node's status, the result of a publish, the
cipher with its random key) is given by its number. A stream state is a JavaScript object
that the data callback compares by identity, here by the number of its subscription.

The history is the model's own: what was installed, demanded and revoked, and the data
chunks with their frames, in order. -/

namespace Kookr.Remote

open Kookr.Lib

structure NodeStatus where
  nodeId : String
  nodeEpoch : String
  deriving DecidableEq

/-- The bytes that the payload carries in base64; their number is a member too. -/
structure TerminalBytesPayload where
  data : List UInt8
  byteLength : ℕ
  deriving DecidableEq

structure TerminalBytesEvent where
  nodeId : String
  nodeEpoch : String
  sessionId : String
  sessionEpoch : String
  seq : ℕ
  ts : String
  payload : TerminalBytesPayload
  deriving DecidableEq

structure ContactTerminalEncryptionInput where
  recipientDeviceId : String
  recipientPublicKey : String
  streamKeyId : String
  aad : String

inductive TerminalStreamEncryption where
  | contactE2ee (recipientDeviceId streamKeyId wrappedKey iv tag : String)
  | guestTransport (memberSessionId : String)
  deriving DecidableEq

structure TerminalPublicationMetadata where
  publicationScopeId : String
  principal : TerminalPublicationPrincipal
  policyVersion : ℕ
  streamEncryption : Option TerminalStreamEncryption
  deriving DecidableEq

structure PublishedFrame where
  event : TerminalBytesEvent
  publication : TerminalPublicationMetadata
  deriving DecidableEq

structure PublisherOptions where
  /-- `KOOKR_RELAY_TRUSTED`. -/
  relayTrusted : Option String
  /-- The backend reports stream gaps. -/
  onStreamGap : Bool
  dateParse : String → Option Timestamp
  now : ℕ → Timestamp
  status : ℕ → NodeStatus
  publish : ℕ → Bool
  /-- `encryptContactTerminalPayload`; a key that is not one makes it throw. -/
  encrypt : ℕ → TerminalBytesPayload → ContactTerminalEncryptionInput →
    Option (TerminalBytesPayload × TerminalStreamEncryption)

/-- `isRelayTerminalStreamingTrusted`. -/
def PublisherOptions.trusted (opts : PublisherOptions) : Bool := opts.relayTrusted = some "true"

structure SessionStreamState where
  sessionId : String
  sessionEpoch : String
  nextSeq : ℕ
  droppedFrames : ℕ
  /-- Nothing stands for minus infinity. -/
  lastDropWarnAtMs : Option ℤ
  subscription : ℕ
  deriving DecidableEq

/-- A data chunk that got a sequence number, when the gate was asked and the frames that
were handed to the relay. -/
structure NumberedChunk where
  sessionId : String
  sessionEpoch : String
  seq : ℕ
  nowMs : ℤ
  frames : List PublishedFrame
  deriving DecidableEq

inductive PublicationEvent where
  | installed (rule : TerminalPublicationRule)
  | demanded (input : DemandProofInput)
  | revoked (publicationScopeId : String)
  | chunk (chunk : NumberedChunk)
  deriving DecidableEq

structure SessionStreamPublisher where
  rules : PublicationRules
  states : OrderedMap String SessionStreamState
  lastEpochBySession : OrderedMap String ℕ
  droppedBySession : OrderedMap String ℕ
  stopped : Bool
  gapSubscribed : Bool
  /-- Calls of `syncSessions` that wait for the list of sessions. -/
  listing : ℕ
  subscriptions : ℕ
  reads : ℕ
  warnings : List String
  history : List PublicationEvent

def DROP_WARN_MIN_INTERVAL_MS : ℤ := 10000

/-- What the backend does when it is asked for the data of a session: chunks it hands
over before it returns, and whether it throws. -/
structure OnDataCall where
  chunks : List (List UInt8)
  throws : Bool

namespace SessionStreamPublisher

def initial : SessionStreamPublisher := {
  rules := .empty
  states := .empty
  lastEpochBySession := .empty
  droppedBySession := .empty
  stopped := false
  gapSubscribed := false
  listing := 0
  subscriptions := 0
  reads := 0
  warnings := []
  history := [] }

def read (p : SessionStreamPublisher) : SessionStreamPublisher := { p with reads := p.reads + 1 }

def record (p : SessionStreamPublisher) (e : PublicationEvent) : SessionStreamPublisher :=
  { p with history := p.history ++ [e] }

def warn (p : SessionStreamPublisher) (text : String) : SessionStreamPublisher :=
  { p with warnings := p.warnings ++ [text] }

def currentCursor (p : SessionStreamPublisher) (sessionId : String) : Option SessionCursor :=
  (p.states.get sessionId).map fun state => ⟨state.sessionEpoch, state.nextSeq - 1⟩

def droppedFrameCount (p : SessionStreamPublisher) (sessionId : String) : ℕ :=
  match p.states.get sessionId with
  | some state => state.droppedFrames
  | none => (p.droppedBySession.get sessionId).getD 0

variable (opts : PublisherOptions)

/-- The warning is given when ten seconds have passed since the last one. -/
def dropWarningDue (nowMs : ℤ) (lastDropWarnAtMs : Option ℤ) : Bool :=
  match lastDropWarnAtMs with
  | none => true
  | some last => ¬ nowMs - last < DROP_WARN_MIN_INTERVAL_MS

def notePublishDrop (p : SessionStreamPublisher) (state : SessionStreamState) : SessionStreamState × SessionStreamPublisher :=
  let state := { state with droppedFrames := state.droppedFrames + 1 }
  let p := { p with droppedBySession := p.droppedBySession.set state.sessionId state.droppedFrames }
  let nowMs := (opts.now p.reads).ms
  let p := p.read
  if dropWarningDue nowMs state.lastDropWarnAtMs then
    let sessionId := state.sessionId
    let total := state.droppedFrames
    ({ state with lastDropWarnAtMs := some nowMs },
      p.warn s!"[remote-terminal] dropped terminal frame(s) for session {sessionId}: totalDropped={total} (publish returned false; seq still advanced)")
  else (state, p)

/-- One call of `remoteNodeClient.publish`. -/
def callPublish (p : SessionStreamPublisher) (state : SessionStreamState) : SessionStreamState × SessionStreamPublisher :=
  if opts.publish p.reads then (state, p.read) else notePublishDrop opts p.read state

/-- What is handed to the relay for one candidate, or nothing when the cipher throws. -/
def frameFor (reads : ℕ) (event : TerminalBytesEvent) (publication : TerminalPublicationCandidate) : Option PublishedFrame :=
  let metadata := TerminalPublicationMetadata.mk publication.publicationScopeId publication.principal
    publication.policyVersion
  match publication.streamEncryption with
  | some (.contactE2ee recipientDeviceId recipientPublicKey streamKeyId) =>
    let nodeId := event.nodeId
    let sessionId := event.sessionId
    let sessionEpoch := event.sessionEpoch
    let seq := event.seq
    (opts.encrypt reads event.payload {
      recipientDeviceId, recipientPublicKey, streamKeyId
      aad := s!"{nodeId}:{sessionId}:{sessionEpoch}:{seq}" }).map fun encrypted =>
        ⟨{ event with payload := encrypted.1 }, metadata (some encrypted.2)⟩
  | some (.guestTransport memberSessionId) => some ⟨event, metadata (some (.guestTransport memberSessionId))⟩
  | none => some ⟨event, metadata none⟩

/-- The loop of `publishBytes`; a throw ends it. -/
def publishFrames (event : TerminalBytesEvent) :
    List TerminalPublicationCandidate → SessionStreamState → SessionStreamPublisher →
      List PublishedFrame × SessionStreamState × SessionStreamPublisher
  | [], state, p => ([], state, p)
  | publication :: rest, state, p =>
    match frameFor opts p.reads event publication with
    | none => ([], state, p.read)
    | some frame =>
      let (state, p) := callPublish opts p state
      let (frames, done) := publishFrames event rest state p
      (frame :: frames, done)

/-- The event of a chunk, stamped with one reading of the clock. -/
def eventFor (reads : ℕ) (state : SessionStreamState) (data : List UInt8) : TerminalBytesEvent := {
  nodeId := (opts.status reads).nodeId
  nodeEpoch := (opts.status reads).nodeEpoch
  sessionId := state.sessionId
  sessionEpoch := state.sessionEpoch
  seq := state.nextSeq
  ts := String.ofList (IsoDate.toISOString (opts.now reads))
  payload := ⟨data, data.length⟩ }

/-- The number advances also when no frame gets through. -/
def publishBytes (p : SessionStreamPublisher) (id : String) (state : SessionStreamState) (data : List UInt8) :
    SessionStreamPublisher :=
  let event := eventFor opts p.reads state data
  let state := { state with nextSeq := state.nextSeq + 1 }
  let p := p.read
  let nowMs := (opts.now p.reads).ms
  let publications := p.rules.metadataForEvent opts.dateParse nowMs event.sessionId event.sessionEpoch event.seq
  let (frames, state, p) := publishFrames opts event publications state p.read
  ({ p with states := p.states.set id state }).record
    (.chunk ⟨event.sessionId, event.sessionEpoch, event.seq, nowMs, frames⟩)

/-- The callback of one subscription. -/
def onData (id : String) (subscription : ℕ) (p : SessionStreamPublisher) (data : List UInt8) : SessionStreamPublisher :=
  match p.states.get id with
  | none => p
  | some state => if state.subscription = subscription then p.publishBytes opts id state data else p

/-- A failed subscription uses up its epoch too. -/
def nextEpoch (p : SessionStreamPublisher) (id : String) : ℕ := (p.lastEpochBySession.get id).getD 0 + 1

def provisionalState (p : SessionStreamPublisher) (id : String) : SessionStreamState := {
  sessionId := id
  sessionEpoch := toString (p.nextEpoch id)
  nextSeq := 1
  droppedFrames := (p.droppedBySession.get id).getD 0
  lastDropWarnAtMs := none
  subscription := p.subscriptions }

def enterProvisional (p : SessionStreamPublisher) (id : String) : SessionStreamPublisher := { p with
  lastEpochBySession := p.lastEpochBySession.set id (p.nextEpoch id)
  states := p.states.set id (p.provisionalState id)
  subscriptions := p.subscriptions + 1 }

/-- Whether the backend threw, and the publisher after the call. -/
def subscribe (p : SessionStreamPublisher) (id : String) (call : OnDataCall) : Bool × SessionStreamPublisher :=
  if p.states.has id || p.stopped then (false, p)
  else
    let p' := call.chunks.foldl (onData opts id p.subscriptions) (p.enterProvisional id)
    if call.throws then (true, { p' with states := p'.states.delete id }) else (false, p')

def unsubscribeMissing (p : SessionStreamPublisher) (alive : List String) : SessionStreamPublisher :=
  { p with states := p.states.filter fun id _ => id ∈ alive }

/-- A throw leaves the rest of the sessions for the next sync. -/
def subscribeAll (calls : String → OnDataCall) : List String → SessionStreamPublisher → SessionStreamPublisher
  | [], p => p
  | id :: ids, p =>
    match p.subscribe opts id (calls id) with
    | (true, p) => p
    | (false, p) => subscribeAll calls ids p

/-- `syncSessions`, up to the list of sessions. -/
def syncSessions (p : SessionStreamPublisher) : SessionStreamPublisher :=
  if p.stopped || !opts.trusted then p else { p with listing := p.listing + 1 }

/-- `syncSessions`, from the list of sessions on. -/
def sessionsListed (p : SessionStreamPublisher) (sessions : List String) (calls : String → OnDataCall) : SessionStreamPublisher :=
  if p.listing = 0 then p
  else
    let alive := sessions.eraseDups
    let p := { p with listing := p.listing - 1 }
    subscribeAll opts calls alive (p.unsubscribeMissing alive)

def streamGap (p : SessionStreamPublisher) (id : String) : SessionStreamPublisher :=
  if p.gapSubscribed then
    match p.states.get id with
    | none => p
    | some state => { p with
        states := p.states.delete id
        droppedBySession := p.droppedBySession.set id (state.droppedFrames + 1) }
  else p

def start (p : SessionStreamPublisher) : SessionStreamPublisher :=
  if p.stopped || !opts.trusted then
    if opts.trusted then p
    else p.warn "[remote-terminal] KOOKR_RELAY_TRUSTED is not true; remote terminal viewing disabled"
  else ({ p with gapSubscribed := opts.onStreamGap }).syncSessions opts

def stop (p : SessionStreamPublisher) : SessionStreamPublisher :=
  { p with stopped := true, gapSubscribed := false, states := .empty }

/-- The approval of the caller has no sequence number of its own. -/
def installPublicationRule (p : SessionStreamPublisher) (rule : TerminalPublicationRule) :
    Except InstallRefusal TerminalPublicationRule × SessionStreamPublisher :=
  let (result, rules) :=
    p.rules.installRule { rule with minSeqExclusive := 0 } (p.currentCursor rule.sessionId)
  let p := { p with rules }
  (result, match result with
    | .ok rule => p.record (.installed rule)
    | .error _ => p)

def recordDemandProof (p : SessionStreamPublisher) (input : DemandProofInput) : Bool × SessionStreamPublisher :=
  let (updated, rules) := p.rules.recordDemandProof opts.dateParse input
  let p := { p with rules }
  (updated, if (opts.dateParse input.proof.expiresAt).isSome then p.record (.demanded input) else p)

def revokePublicationScope (p : SessionStreamPublisher) (publicationScopeId : String) : SessionStreamPublisher :=
  ({ p with rules := p.rules.revokeScope publicationScopeId }).record (.revoked publicationScopeId)

inductive Event where
  | start
  | stop
  | syncSessions
  | sessionsListed (sessions : List String) (calls : String → OnDataCall)
  | streamGap (id : String)
  | data (id : String) (subscription : ℕ) (bytes : List UInt8)
  | installPublicationRule (rule : TerminalPublicationRule)
  | recordDemandProof (input : DemandProofInput)
  | revokePublicationScope (publicationScopeId : String)

def step (p : SessionStreamPublisher) : Event → SessionStreamPublisher
  | .start => p.start opts
  | .stop => p.stop
  | .syncSessions => p.syncSessions opts
  | .sessionsListed sessions calls => p.sessionsListed opts sessions calls
  | .streamGap id => p.streamGap id
  | .data id subscription bytes => p.onData opts id subscription bytes
  | .installPublicationRule rule => (p.installPublicationRule rule).2
  | .recordDemandProof input => (p.recordDemandProof opts input).2
  | .revokePublicationScope publicationScopeId => p.revokePublicationScope publicationScopeId

def run (events : List Event) : SessionStreamPublisher := events.foldl (step opts) initial

end SessionStreamPublisher

end Kookr.Remote
