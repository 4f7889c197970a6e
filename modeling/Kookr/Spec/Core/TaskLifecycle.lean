import Kookr.Lib.History
import Kookr.Spec.Core.TerminalReceipt

/-! The life of a task in the task store (`src/core/tasks.ts`, `src/core/session-registry.ts`): its
status, its sessions, its dependency marker, and what is recorded of its end. Beside the store there
is a list of what has happened to the tasks, which nothing of the code reads. A call that throws is
`none`, and leaves the store as it was. The mutators that write none of this differ by nothing but
the fields they write, and are one call. -/

namespace Kookr.Core

open Kookr.Lib Kookr.Launch

/-- Of a session, what attaching another one reads. -/
structure AttachedSession where
  tmuxSession : String
  lastStatus : Option String
  deriving DecidableEq

structure LifecycleTask where
  status : TaskStatus
  sessions : List AttachedSession
  launchAdmission : Option LaunchAdmission
  completionPath : Option CompletionPath
  updatedAt : Timestamp
  finishedAt : Option Timestamp
  terminatedAt : Option Timestamp
  terminationReason : Option TerminationReason
  terminationSignal : Option String
  terminationDetail : Option String
  terminalReceipt : Option TaskTerminalReceipt
  deriving DecidableEq

/-- A text that is there and not empty. -/
def filledText (text : Option String) : Option String := text.filter fun text => text ≠ ""

namespace LifecycleTask

variable (task : LifecycleTask) (now : Timestamp)

def create (launchAdmission : Option LaunchAdmission) : LifecycleTask :=
  ⟨.open, [], launchAdmission, none, now, none, none, none, none, none, none⟩

/-- What the receipt of a transition is made of. -/
def receiptContext (to' : TaskStatus) (context : TerminalTransitionContext) : TerminalTransitionContext :=
  if to' = .completed then context.withDefaults (terminalContextFromCompletionPath task.completionPath) else context

def transition (to' : TaskStatus) (context : TerminalTransitionContext) : Option LifecycleTask :=
  if to' ∉ VALID_TRANSITIONS task.status then none
  else if to'.isTerminalStatus then
    some { task with
      status := to'
      updatedAt := now
      finishedAt := task.finishedAt.or (some now)
      terminalReceipt := some (buildTerminalReceipt to' task.status (String.ofList (IsoDate.toISOString now))
        (task.receiptContext to' context))
      -- a probing marker owns the cleanup and outlives the task
      launchAdmission := if task.launchAdmission = some .probing then some .probing else none }
  else some { task with status := to', updatedAt := now, finishedAt := none }

/-- The context that the cause of a termination gives. -/
def causeContext (cause : Option TerminationCause) : TerminalTransitionContext :=
  let reason := (cause.map TerminationCause.reason).getD .unknown
  ⟨some reason.source, some reason.category, none, none, cause.bind TerminationCause.detail⟩

def terminateTask (cause : Option TerminationCause) (context : TerminalTransitionContext) : Option LifecycleTask :=
  (task.transition now .terminated (context.withDefaults (causeContext cause))).map fun task =>
    { task with
      terminatedAt := some now
      terminationReason := some ((cause.map TerminationCause.reason).getD .unknown)
      terminationSignal := (filledText (cause.bind TerminationCause.signal)).or task.terminationSignal
      terminationDetail := (filledText (cause.bind TerminationCause.detail)).or task.terminationDetail }

def reopenTask : Option LifecycleTask :=
  if task.launchAdmission = some .probing then none else task.transition now .open .empty

def addSession (session : AttachedSession) : Option LifecycleTask :=
  if task.status.isTerminalStatus then none
  else if task.status = .pending && isNoSlotDependencyAdmission task.launchAdmission then none
  else if task.sessions.any fun s => s.tmuxSession = session.tmuxSession then none
  else some { task with
    sessions := task.sessions ++ [session]
    updatedAt := now
    status := if task.status.launchable then .inProgress else task.status }

/-- Also a terminal task takes a session that is dead. -/
def recordAbandonedLaunchSession (session : AttachedSession) : Option LifecycleTask :=
  if task.sessions.any fun s => s.tmuxSession = session.tmuxSession then none
  else some { task with sessions := task.sessions ++ [{ session with lastStatus := some "aborted" }], updatedAt := now }

def updateSession (tmuxName : String) (lastStatus : Option String) : Option LifecycleTask :=
  if task.sessions.any fun s => s.tmuxSession = tmuxName then
    some { task with
      sessions := task.sessions.map fun s => if s.tmuxSession = tmuxName then { s with lastStatus } else s
      updatedAt := now }
  else none

def recordRecoveryDisposition (workDisposition : TerminalWorkDisposition) (recoveryCorrelationId : Option String) :
    Option LifecycleTask :=
  task.terminalReceipt.map fun receipt =>
    { task with
      terminalReceipt := some { receipt with
        workDisposition
        recoveryCorrelationId := recoveryCorrelationId.or receipt.recoveryCorrelationId }
      updatedAt := now }

def recordTerminalBookkeepingError (message : String) : Option LifecycleTask :=
  task.terminalReceipt.bind fun receipt =>
    if (filledText receipt.bookkeepingError).isSome then none
    else some { task with terminalReceipt := some { receipt with bookkeepingError := some message }, updatedAt := now }

end LifecycleTask

inductive TaskCall where
  | createTask (launchAdmission : Option LaunchAdmission)
  | deleteTask
  | startTask
  | pendTask
  | completeTask (context : TerminalTransitionContext)
  | terminateTask (cause : Option TerminationCause) (context : TerminalTransitionContext)
  | cancelTask (context : TerminalTransitionContext)
  | reopenTask
  | addSession (session : AttachedSession)
  | recordAbandonedLaunchSession (session : AttachedSession)
  | updateSession (tmuxName : String) (lastStatus : Option String)
  | setLaunchAdmission (admission : Option LaunchAdmission)
  | recordRecoveryDisposition (workDisposition : TerminalWorkDisposition) (recoveryCorrelationId : Option String)
  | recordTerminalBookkeepingError (message : String)
  /-- A name, a priority, a signal, a digest, a disposition, a claim: whatever else is set. -/
  | setOther

structure TaskStep where
  taskId : String
  now : Timestamp
  call : TaskCall

/-- A terminal transition as it was asked for. -/
structure TerminalMove where
  status : TaskStatus
  priorState : TaskStatus
  movedAt : Timestamp
  context : TerminalTransitionContext

inductive TaskMove where
  | created
  | ended (move : TerminalMove)
  | terminated (cause : Option TerminationCause)

namespace TaskMove

def move : TaskMove → Option TerminalMove
  | .ended move => some move
  | _ => none

def cause : TaskMove → Option (Option TerminationCause)
  | .terminated cause => some cause
  | _ => none

end TaskMove

structure TaskLifecycle where
  tasks : OrderedMap String LifecycleTask
  moves : List (String × TaskMove)

namespace LifecycleTask

variable (task : LifecycleTask) (now : Timestamp)

/-- The calls that change one task. -/
def apply : TaskCall → Option LifecycleTask
  | .createTask _ | .deleteTask => none
  | .startTask => task.transition now .inProgress .empty
  | .pendTask => task.transition now .pending .empty
  | .completeTask context => task.transition now .completed context
  | .terminateTask cause context => task.terminateTask now cause context
  | .cancelTask context => task.transition now .cancelled context
  | .reopenTask => task.reopenTask now
  | .addSession session => task.addSession now session
  | .recordAbandonedLaunchSession session => task.recordAbandonedLaunchSession now session
  | .updateSession tmuxName lastStatus => task.updateSession now tmuxName lastStatus
  | .setLaunchAdmission admission => some { task with launchAdmission := admission, updatedAt := now }
  | .recordRecoveryDisposition workDisposition recoveryCorrelationId =>
    task.recordRecoveryDisposition now workDisposition recoveryCorrelationId
  | .recordTerminalBookkeepingError message => task.recordTerminalBookkeepingError now message
  | .setOther => some { task with updatedAt := now }

/-- What a call on the task that succeeds is remembered as. -/
def movesOf : TaskCall → List TaskMove
  | .completeTask context => [.ended ⟨.completed, task.status, now, task.receiptContext .completed context⟩]
  | .terminateTask cause context => [.ended ⟨.terminated, task.status, now, context.withDefaults (causeContext cause)⟩, .terminated cause]
  | .cancelTask context => [.ended ⟨.cancelled, task.status, now, context⟩]
  | _ => []

end LifecycleTask

namespace TaskLifecycle

def empty : TaskLifecycle := ⟨.empty, []⟩

/-- The id of a new task is one that no task had. -/
def createTask (s : TaskLifecycle) (taskId : String) (now : Timestamp) (launchAdmission : Option LaunchAdmission) :
    Option TaskLifecycle :=
  if s.moves.any fun entry => entry.1 = taskId then none
  else some ⟨s.tasks.set taskId (.create now launchAdmission), s.moves ++ [(taskId, .created)]⟩

def deleteTask (s : TaskLifecycle) (taskId : String) : Option TaskLifecycle :=
  (s.tasks.get taskId).bind fun task =>
    if task.launchAdmission = some .probing then none else some { s with tasks := s.tasks.delete taskId }

def step (s : TaskLifecycle) (e : TaskStep) : Option TaskLifecycle :=
  match e.call with
  | .createTask launchAdmission => s.createTask e.taskId e.now launchAdmission
  | .deleteTask => s.deleteTask e.taskId
  | call =>
    (s.tasks.get e.taskId).bind fun task => (task.apply e.now call).map fun task' =>
      ⟨s.tasks.set e.taskId task', s.moves ++ (task.movesOf e.now call).map fun move => (e.taskId, move)⟩

/-- The latest terminal transition of the task. -/
def lastEnded (s : TaskLifecycle) (taskId : String) : Option TerminalMove :=
  lastOf (fun entry => if entry.1 = taskId then entry.2.move else none) s.moves

/-- The cause of its latest termination, which may be one without a cause. -/
def lastCause (s : TaskLifecycle) (taskId : String) : Option (Option TerminationCause) :=
  lastOf (fun entry => if entry.1 = taskId then entry.2.cause else none) s.moves

end TaskLifecycle

end Kookr.Core
