import Kookr.Lib.Exec
import Kookr.Spec.Launch.Slots

/-! The reconciliation of tasks with the sessions of the backend, between its awaits (`reconcile` in
`src/server/reconciliation.ts`, `addSession` in `src/core/session-registry.ts`). The backend answers
with the sessions that were alive at some moment before the answer arrives. Sessions and tasks are
then gone through one by one, each as it was when the tasks were listed; here the reconciliation may
be interrupted between any two of them. Meanwhile sessions are created, attached to tasks and end,
and tasks are marked by launches and deleted. What is recorded of worktrees is left out. -/

namespace Kookr.Server.Reconcile

open Kookr.Lib Kookr.Launch

inductive LastStatus where
  /-- None, or what the agent was doing. -/
  | agent
  | completed
  | aborted
  deriving DecidableEq

structure Session where
  tmuxSession : String
  lastStatus : LastStatus
  /-- `lastTurnState` is `completed_turn`. -/
  completedTurn : Bool
  deriving DecidableEq

def Session.isDone (session : Session) : Bool := session.lastStatus = .completed || session.lastStatus = .aborted

inductive LaunchAdmission where
  | parked (reason : ParkedReason)
  | probing (sessionId : Option String)
  deriving DecidableEq

namespace LaunchAdmission

def isProbing : LaunchAdmission → Bool
  | .probing _ => true
  | .parked _ => false

/-- Parked, and not for want of a slot: no session is attached. -/
def refusesSession : LaunchAdmission → Bool
  | .probing _ => false
  | .parked reason => reason ≠ .halfOpenWaitingForCapacity

end LaunchAdmission

structure Task where
  status : TaskStatus
  sessions : List Session
  launchAdmission : Option LaunchAdmission
  /-- Its Ralph loop is running or paused. -/
  ralphActive : Bool
  deriving DecidableEq

namespace Task

variable (task : Task)

def isProbing : Bool := task.launchAdmission.any LaunchAdmission.isProbing

def allSessionsDone : Bool := task.sessions ≠ [] && task.sessions.all Session.isDone

/-- The session that the marker of the task has allocated. -/
def exactProbeSession (name : String) : Bool := task.launchAdmission = some (.probing (some name))

def exactProbeSessionAttached : Bool :=
  match task.launchAdmission with
  | some (.probing (some sessionId)) => task.sessions.any fun session => session.tmuxSession = sessionId
  | _ => true

def endedOnCleanTurn : Bool := task.sessions.getLast?.any Session.completedTurn

/-- In progress or open: the reconciliation may end the task. -/
def unfinished : Bool := task.status = .inProgress || task.status = .open

end Task

/-- The status of the first session with the name; `none` is an error. -/
def updateSession (name : String) (lastStatus : LastStatus) : List Session → Option (List Session)
  | [] => none
  | session :: sessions =>
    if session.tmuxSession = name then some ({ session with lastStatus } :: sessions)
    else (updateSession name lastStatus sessions).map (session :: ·)

/-- What the loop over the tasks remembers: the list of the backend, the task as it was listed, and
those that follow. -/
structure Loop where
  live : List String
  id : ℕ
  task : Task
  rest : List (ℕ × Task)

inductive Stage where
  | idle
  /-- Waits for `listSessions`, with its answer if the moment has been. -/
  | listing (snapshot : Option (List String))
  | looping (live : List String) (rest : List (ℕ × Task))
  | checking (loop : Loop) (sessions : List Session)
  /-- Waits for `isAlive`, with its answer if the moment has been. -/
  | probing (loop : Loop) (session : Session) (sessions : List Session) (answer : Option Bool)
  | failed

structure State where
  tasks : OrderedMap ℕ Task
  alive : List String
  /-- The names that were given to sessions. No name is given twice. -/
  known : List String
  stage : Stage

namespace State

inductive Event where
  | start
  | takeSnapshot
  | listed
  | nextTask
  | judge
  | ask
  | asked (fails : Bool)
  | settle
  /-- The backend starts a session. -/
  | create (name : String)
  | addSession (id : ℕ) (name : String)
  | exit (name : String)
  | mark (id : ℕ) (launchAdmission : Option LaunchAdmission) (ralphActive : Bool)
  | deleteTask (id : ℕ)

def initial (tasks : OrderedMap ℕ Task) (alive known : List String) : State := ⟨tasks, alive, known, .idle⟩

variable (s : State)

def goto (stage : Stage) : State := { s with stage }

def update (id : ℕ) (task : Task) : State := { s with tasks := s.tasks.set id task }

/-- The session is found dead. -/
def markCompleted (loop : Loop) (session : Session) (sessions : List Session) : State :=
  match s.tasks.get loop.id with
  | none => s.goto .failed
  | some task =>
    match updateSession session.tmuxSession .completed task.sessions with
    | none => s.goto .failed
    | some updated => (s.update loop.id { task with sessions := updated }).goto (.checking loop sessions)

def judge (loop : Loop) (session : Session) (sessions : List Session) : State :=
  if session.isDone then s.goto (.checking loop sessions)
  else if session.tmuxSession ∈ loop.live then s.goto (.checking loop sessions)
  else if loop.task.exactProbeSession session.tmuxSession then s.goto (.probing loop session sessions none)
  else s.markCompleted loop session sessions

/-- A failure of the probe is no proof of absence. -/
def asked (loop : Loop) (session : Session) (sessions : List Session) (alive fails : Bool) : State :=
  if fails || alive then s.goto (.checking loop sessions) else s.markCompleted loop session sessions

/-- What the last part of the loop does with the task; `none` leaves it as it is. -/
def settled (loop : Loop) (latestTask : Task) : Option Task :=
  let exactProbeCleanupDone := latestTask.allSessionsDone && loop.task.exactProbeSessionAttached
  if latestTask.isProbing && latestTask.unfinished && exactProbeCleanupDone then
    -- reopened if it was in progress, and queued
    some { latestTask with status := .pending, launchAdmission := some (.parked .dependencyDegraded) }
  else if latestTask.isProbing && latestTask.status.isTerminalStatus && exactProbeCleanupDone then
    some { latestTask with launchAdmission := none }
  else if !latestTask.ralphActive && !latestTask.isProbing && latestTask.unfinished && latestTask.allSessionsDone then
    some { latestTask with
      status := if latestTask.endedOnCleanTurn then .completed else .terminated
      launchAdmission := none }
  else none

def settle (loop : Loop) : State :=
  match settled loop ((s.tasks.get loop.id).getD loop.task) with
  | none => s.goto (.looping loop.live loop.rest)
  | some task => if s.tasks.has loop.id then (s.update loop.id task).goto (.looping loop.live loop.rest) else s.goto .failed

def reconcileStep : Stage → Event → Option State
  | .idle, .start | .failed, .start => some (s.goto (.listing none))
  | .listing none, .takeSnapshot => some (s.goto (.listing (some s.alive)))
  | .listing (some live), .listed => some (s.goto (.looping live s.tasks.entries))
  | .looping _ [], .nextTask => some (s.goto .idle)
  | .looping live ((id, task) :: rest), .nextTask => some (s.goto (.checking ⟨live, id, task, rest⟩ task.sessions))
  | .checking loop (session :: sessions), .judge => some (s.judge loop session sessions)
  | .checking loop [], .settle => some (s.settle loop)
  | .probing loop session sessions none, .ask =>
    some (s.goto (.probing loop session sessions (some (session.tmuxSession ∈ s.alive))))
  | .probing loop session sessions (some alive), .asked fails => some (s.asked loop session sessions alive fails)
  | .probing loop session sessions none, .asked true => some (s.asked loop session sessions false true)
  | _, _ => none

def addSession (id : ℕ) (name : String) : Option State :=
  (s.tasks.get id).bind fun task =>
    if name ∉ s.known || task.status.isTerminalStatus then none
    else if task.status = .pending && task.launchAdmission.any LaunchAdmission.refusesSession then none
    else if task.sessions.any fun session => session.tmuxSession = name then none
    else
      some (s.update id { task with
        sessions := task.sessions ++ [⟨name, .agent, false⟩]
        status := if task.status.launchable then .inProgress else task.status })

def step (e : Event) : Option State :=
  match e with
  | .create name => if name ∈ s.known then none else some { s with alive := s.alive ++ [name], known := s.known ++ [name] }
  | .addSession id name => s.addSession id name
  | .exit name => some { s with alive := s.alive.filter fun other => other ≠ name }
  | .mark id launchAdmission ralphActive =>
    (s.tasks.get id).map fun task => s.update id { task with launchAdmission, ralphActive }
  | .deleteTask id => some { s with tasks := s.tasks.delete id }
  | .start | .takeSnapshot | .listed | .nextTask | .judge | .ask | .asked _ | .settle => s.reconcileStep s.stage e

end State

end Kookr.Server.Reconcile
