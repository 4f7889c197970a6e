import Mathlib.Logic.Function.Basic
import Kookr.Lib.Exec
import Kookr.Lib.OrderedMap

/-! The Ralph loop of one task (`src/server/ralph-loop-service.ts`, `src/core/ralph-cycler.ts`). At each await
anything else may happen. What the cycler decides, what the relaunch arbiter answers and which session
the terminal backend says is alive are open. Sessions are numbered in the order of their names, and a
stop event is told by its session and a number. A cycler keeps the loop object that it has read; a loop that is started later is another one. -/

namespace Kookr.Server

open Kookr.Lib

inductive RalphLoopStatus where
  | running
  | paused
  | completed
  | failed
  | cancelled
  deriving DecidableEq

def isTerminalRalphStatus : RalphLoopStatus → Bool
  | .completed | .failed | .cancelled => true
  | _ => false

/-- The reasons for which the cycler terminates. -/
inductive RalphIterationExitReason where
  | iterationCap
  | predicateSatisfied
  | targetStalled
  | allTargetsStalled
  | iterationCostCap
  | costCap
  | zeroDiffConvergence
  deriving DecidableEq

inductive TerminalDisposition where
  | relaunch
  | escalate
  | stop
  deriving DecidableEq

def classifyTerminalExit : RalphIterationExitReason → TerminalDisposition
  | .costCap | .iterationCostCap => .escalate
  | .iterationCap | .targetStalled | .allTargetsStalled => .relaunch
  | .predicateSatisfied | .zeroDiffConvergence => .stop

/-- What `ralphStopFingerprint` tells a stop event by. -/
structure RalphStop where
  session : ℕ
  event : ℕ
  deriving DecidableEq

structure RalphLoopState where
  /-- Which object it is. -/
  loopId : ℕ
  status : RalphLoopStatus
  currentIteration : ℕ
  ownerSessionId : Option ℕ
  handlingStopFingerprint : Option RalphStop
  lastHandledStopFingerprint : Option RalphStop
  terminalRelaunchCount : ℕ
  deriving DecidableEq

def assignRalphLoop (loopId : ℕ) : RalphLoopState := ⟨loopId, .running, 0, none, none, none, 0⟩

inductive RalphCyclerAction where
  | noop
  | launchFresh
  | terminate (reason : RalphIterationExitReason)
  deriving DecidableEq

inductive LaunchProgress where
  | asked
  | created
  /-- `addSession` has been called. -/
  | registered
  deriving DecidableEq

/-- What a handler of a stop waits for. -/
inductive RalphStage where
  /-- The cost and the verdict file. -/
  | reading
  /-- The predicates, the diff and the log of the cycler. -/
  | cycling (loopId : ℕ)
  | sampling (action : RalphCyclerAction)
  /-- The verdict file that is unlinked, and the prompt. -/
  | preparing (loopId : ℕ) (relaunch : Bool)
  | launching (session : ℕ) (progress : LaunchProgress) (relaunch : Bool)
  | killing (session : ℕ) (relaunch : Bool)
  deriving DecidableEq

structure RalphHandler where
  fingerprint : RalphStop
  stage : RalphStage
  deriving DecidableEq

inductive RalphCallKind where
  | resume
  | claim
  | catchUp
  deriving DecidableEq

/-- A call that waits for `findLiveSession`. -/
structure RalphCall where
  kind : RalphCallKind
  candidates : List ℕ
  deriving DecidableEq

inductive RalphEvent where
  | stop (stop : RalphStop)
  | cancelLoop
  | pauseLoop
  | resumeLoop
  | startLoop
  | attachLoop
  | sessionDies (session : ℕ)
  /-- `findLiveSession` returns to the call. -/
  | found (call : ℕ) (session : Option ℕ)
  | verdictRead (handler : ℕ)
  /-- The cycler goes on, or terminates. -/
  | cycled (handler : ℕ) (terminates : Option RalphIterationExitReason)
  | sampled (handler : ℕ) (admitted : Bool)
  | prepared (handler : ℕ)
  | created (handler : ℕ)
  | registered (handler : ℕ)
  | launched (handler : ℕ)
  | launchFailed (handler : ℕ) (reaped : Bool)
  | killed (handler : ℕ) (ok : Bool)
  /-- What a handler waits for is rejected. -/
  | throws (handler : ℕ)
  deriving DecidableEq

structure RalphTask where
  loop : RalphLoopState
  sessions : List ℕ
  /-- The latest event of a session, where it is a stop. -/
  latestStop : ℕ → Option ℕ
  alive : List ℕ
  handlers : OrderedMap ℕ RalphHandler
  calls : OrderedMap ℕ RalphCall
  nextId : ℕ
  nextSession : ℕ
  /-- The latest stop of a session that owned the loop, and the launches with the stops that caused them,
  which nothing of the code reads. -/
  ownerStop : Option RalphStop
  launches : List (RalphStop × ℕ)

namespace RalphTask

variable (s : RalphTask)

def isStopFromMainTaskSession (session : ℕ) : Bool := s.loop.ownerSessionId = some session && session ∈ s.sessions

def setLoop (loop : RalphLoopState) : RalphTask := { s with loop }

def setStatus (status : RalphLoopStatus) : RalphTask := s.setLoop { s.loop with status }

def addCall (kind : RalphCallKind) : RalphTask := { s with calls := s.calls.set s.nextId ⟨kind, s.sessions⟩, nextId := s.nextId + 1 }

/-- The loop is assigned, and the call goes on with `claimLatestLiveOwner`. -/
def startLoop : RalphTask := (s.setLoop (assignRalphLoop (s.loop.loopId + 1))).addCall .claim

/-- A task whose loop has just been assigned, with the sessions that it had. -/
def start (sessions : ℕ) (latestStop : ℕ → Option ℕ) : RalphTask where
  loop := assignRalphLoop 0
  sessions := List.range sessions
  latestStop
  alive := List.range sessions
  handlers := .empty
  calls := OrderedMap.empty.set 0 ⟨.claim, List.range sessions⟩
  nextId := 1
  nextSession := sessions
  ownerStop := none
  launches := []

/-- Nobody handles the stop, nor has it been the last one. -/
def accepts (fingerprint : RalphStop) : Bool :=
  s.loop.status = .running && s.loop.lastHandledStopFingerprint ≠ some fingerprint && s.loop.handlingStopFingerprint ≠ some fingerprint

def handleStopFingerprint (fingerprint : RalphStop) : RalphTask :=
  if s.accepts fingerprint then
    { s with
      loop := { s.loop with handlingStopFingerprint := some fingerprint }
      handlers := s.handlers.set s.nextId ⟨fingerprint, .reading⟩
      nextId := s.nextId + 1 }
  else s

/-- The monitor has the event. -/
def recordStop (stop : RalphStop) : RalphTask :=
  { s with
    latestStop := Function.update s.latestStop stop.session (some stop.event)
    ownerStop := if s.isStopFromMainTaskSession stop.session then some stop else s.ownerStop }

/-- `none` where the session is not one of the task. -/
def handleStopEvent (stop : RalphStop) : Option RalphTask :=
  if stop.session ∈ s.sessions then
    some (if s.isStopFromMainTaskSession stop.session then (s.recordStop stop).handleStopFingerprint stop else s.recordStop stop)
  else none

def cancelLoop : RalphTask := if s.loop.status = .running ∨ s.loop.status = .paused then s.setStatus .cancelled else s

def pauseLoop : RalphTask := if s.loop.status = .running then s.setStatus .paused else s

def resumeLoop : RalphTask := if isTerminalRalphStatus s.loop.status then s else s.addCall .resume

def attachLoop : RalphTask := if s.loop.status = .running ∨ s.loop.status = .paused then s else s.startLoop

def claimRalphLoopOwner (session : ℕ) : RalphTask := s.setLoop { s.loop with ownerSessionId := some session }

def endCall (call : ℕ) : RalphTask := { s with calls := s.calls.delete call }

/-- The transfer of the ownership is allowed where it would be one. -/
def afterFound (call : ℕ) (session : Option ℕ) : Option RalphTask :=
  match s.calls.get call with
  | none => none
  | some ⟨kind, candidates⟩ =>
    match session with
    | none => some (s.endCall call)
    | some session =>
      if session ∉ candidates then none
      else
        match kind with
        | .resume =>
          some (if s.loop.status = .paused then (((s.endCall call).claimRalphLoopOwner session).setStatus .running).addCall .catchUp
            else s.endCall call)
        | .claim => some (if s.loop.status = .running then ((s.endCall call).claimRalphLoopOwner session).addCall .catchUp else s.endCall call)
        | .catchUp =>
          match s.latestStop session with
          | some event =>
            some (if s.isStopFromMainTaskSession session then (s.endCall call).handleStopFingerprint ⟨session, event⟩ else s.endCall call)
          | none => some (s.endCall call)

def goto (handler : ℕ) (fingerprint : RalphStop) (stage : RalphStage) : RalphTask :=
  { s with handlers := s.handlers.set handler ⟨fingerprint, stage⟩ }

def settle (handler : ℕ) : RalphTask := { s with handlers := s.handlers.delete handler }

/-- The cycler begins with the status. -/
def verdictRead (handler : ℕ) : Option RalphTask :=
  match s.handlers.get handler with
  | some ⟨fingerprint, .reading⟩ =>
    some (s.goto handler fingerprint (if s.loop.status = .running then .cycling s.loop.loopId else .sampling .noop))
  | _ => none

def cycled (handler : ℕ) (terminates : Option RalphIterationExitReason) : Option RalphTask :=
  match s.handlers.get handler with
  | some ⟨fingerprint, .cycling loopId⟩ =>
    match terminates with
    | some reason =>
      some ((if loopId = s.loop.loopId then s.setStatus .completed else s).goto handler fingerprint (.sampling (.terminate reason)))
    | none =>
      let continued := if loopId = s.loop.loopId then s.setLoop { s.loop with currentIteration := s.loop.currentIteration + 1 } else s
      some (continued.goto handler fingerprint (.sampling .launchFresh))
  | _ => none

/-- `tryTerminalRelaunch` comes to the write of the loop. -/
def rearms (terminalRelaunchMax : ℕ) (reason : RalphIterationExitReason) (admitted : Bool) : Bool :=
  classifyTerminalExit reason = .relaunch && admitted && !(0 < terminalRelaunchMax && terminalRelaunchMax ≤ s.loop.terminalRelaunchCount)

def rearm (fingerprint : RalphStop) : RalphTask :=
  s.setLoop { s.loop with
    status := .running
    currentIteration := 0
    terminalRelaunchCount := s.loop.terminalRelaunchCount + 1
    handlingStopFingerprint := none
    lastHandledStopFingerprint := some fingerprint }

/-- The delivery watchdog has its sample. -/
def sampled (terminalRelaunchMax : ℕ) (handler : ℕ) (admitted : Bool) : Option RalphTask :=
  match s.handlers.get handler with
  | some ⟨fingerprint, .sampling action⟩ =>
    match action with
    | .terminate reason =>
      some (if s.rearms terminalRelaunchMax reason admitted then (s.rearm fingerprint).goto handler fingerprint (.preparing s.loop.loopId true)
        else s.settle handler)
    | .launchFresh =>
      some (if s.loop.status = .running ∧ s.loop.handlingStopFingerprint = some fingerprint then
          s.goto handler fingerprint (.preparing s.loop.loopId false)
        else s.settle handler)
    | .noop =>
      some (if s.loop.status = .running ∧ s.loop.handlingStopFingerprint = some fingerprint then
          (s.setLoop { s.loop with handlingStopFingerprint := none }).settle handler
        else s.settle handler)
  | _ => none

/-- The new session has a name and owns the loop. -/
def prepared (handler : ℕ) : Option RalphTask :=
  match s.handlers.get handler with
  | some ⟨fingerprint, .preparing loopId relaunch⟩ =>
    let owned := if loopId = s.loop.loopId then s.claimRalphLoopOwner s.nextSession else s
    some { owned.goto handler fingerprint (.launching s.nextSession .asked relaunch) with nextSession := s.nextSession + 1 }
  | _ => none

def created (handler : ℕ) : Option RalphTask :=
  match s.handlers.get handler with
  | some ⟨fingerprint, .launching session .asked relaunch⟩ =>
    some { s.goto handler fingerprint (.launching session .created relaunch) with alive := session :: s.alive }
  | _ => none

def registered (handler : ℕ) : Option RalphTask :=
  match s.handlers.get handler with
  | some ⟨fingerprint, .launching session .created relaunch⟩ =>
    some { s.goto handler fingerprint (.launching session .registered relaunch) with sessions := s.sessions ++ [session] }
  | _ => none

def disown (session : ℕ) : RalphTask :=
  if s.loop.ownerSessionId = some session then s.setLoop { s.loop with ownerSessionId := none } else s

/-- The stop is the last one that was handled, if it is still the one that is. -/
def finish (fingerprint : RalphStop) : RalphTask :=
  if s.loop.handlingStopFingerprint = some fingerprint then
    s.setLoop { s.loop with handlingStopFingerprint := none, lastHandledStopFingerprint := some fingerprint }
  else s

/-- The check after the launch. -/
def launched (handler : ℕ) : Option RalphTask :=
  match s.handlers.get handler with
  | some ⟨fingerprint, .launching session .registered relaunch⟩ =>
    if s.loop.status = .running then
      let finished := if relaunch then s else s.finish fingerprint
      some { finished.settle handler with launches := (fingerprint, session) :: s.launches }
    else some ((s.disown session).goto handler fingerprint (.killing session relaunch))
  | _ => none

def failRunning : RalphTask := if s.loop.status = .running then s.setStatus .failed else s

/-- The catch of a launch that was interrupted. -/
def killed (handler : ℕ) (ok : Bool) : Option RalphTask :=
  match s.handlers.get handler with
  | some ⟨fingerprint, .killing session relaunch⟩ =>
    let ended := if relaunch then s.failRunning else s.finish fingerprint
    some { ended.settle handler with alive := if ok then s.alive.filter (· ≠ session) else s.alive }
  | _ => none

/-- The catch of a launch that failed. -/
def failLaunch (handler : ℕ) (fingerprint : RalphStop) (relaunch : Bool) : RalphTask :=
  (if relaunch then s.failRunning
    else if s.loop.handlingStopFingerprint = some fingerprint then (s.finish fingerprint).setStatus .failed
    else s).settle handler

/-- A session that was created is reaped. -/
def launchFailed (handler : ℕ) (reaped : Bool) : Option RalphTask :=
  match s.handlers.get handler with
  | some ⟨fingerprint, .preparing _ relaunch⟩ => some (s.failLaunch handler fingerprint relaunch)
  | some ⟨fingerprint, .launching session progress relaunch⟩ =>
    if progress = .registered then none
    else
      some { (s.disown session).failLaunch handler fingerprint relaunch with
        alive := if reaped then s.alive.filter (· ≠ session) else s.alive }
  | _ => none

def throws (handler : ℕ) : Option RalphTask :=
  match s.handlers.get handler with
  | some ⟨fingerprint, .reading⟩ | some ⟨fingerprint, .cycling _⟩ =>
    some ((if s.loop.handlingStopFingerprint = some fingerprint then s.setLoop { s.loop with handlingStopFingerprint := none } else s).settle handler)
  | _ => none

def step (terminalRelaunchMax : ℕ) (s : RalphTask) : RalphEvent → Option RalphTask
  | .stop stop => s.handleStopEvent stop
  | .cancelLoop => some s.cancelLoop
  | .pauseLoop => some s.pauseLoop
  | .resumeLoop => some s.resumeLoop
  | .startLoop => some s.startLoop
  | .attachLoop => some s.attachLoop
  | .sessionDies session => some { s with alive := s.alive.filter (· ≠ session) }
  | .found call session => s.afterFound call session
  | .verdictRead handler => s.verdictRead handler
  | .cycled handler terminates => s.cycled handler terminates
  | .sampled handler admitted => s.sampled terminalRelaunchMax handler admitted
  | .prepared handler => s.prepared handler
  | .created handler => s.created handler
  | .registered handler => s.registered handler
  | .launched handler => s.launched handler
  | .launchFailed handler reaped => s.launchFailed handler reaped
  | .killed handler ok => s.killed handler ok
  | .throws handler => s.throws handler

end RalphTask

end Kookr.Server
