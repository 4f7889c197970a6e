import Mathlib.Data.List.Sort
import Kookr.Lib.Exec
import Kookr.Spec.Core.Task
import Kookr.Spec.Launch.Slots

/-! The search for duplicates of a launch, between its awaits (`checkSubmission`,
`validateDuplicateCandidate`, `launchTaskCore` in `src/server/launch-service.ts`;
`src/core/task-launch-intent.ts`). A launch searches, waits for the repository of its claim, for the
quota and for the sync of its checkout, and then creates its task. It searches again only where the
quota has made it take another agent. After that its task is moved like any other: whatever calls
the store may do to a task, short of reopening a finished one, is an event. -/

namespace Kookr.Launch.Dedup

open Kookr.Lib Kookr.Core

inductive ModelTier where
  | small
  deriving DecidableEq

inductive LaunchDependency where
  | kb
  | evolutionConfig
  deriving DecidableEq

def LaunchDependency.text : LaunchDependency → String
  | .kb => "kb"
  | .evolutionConfig => "evolution-config"

structure TaskLaunchIntent where
  agentType : AgentType
  modelTier : Option ModelTier
  model : Option String
  effort : Option String
  ralphVerdictEnv : Option Bool
  dependencies : Option (List LaunchDependency)

def buildTaskLaunchIntent (agentType : AgentType) (modelTier : Option ModelTier) (model effort : Option String)
    (ralphVerdictEnv : Option Bool) (dependencies : Option (List LaunchDependency)) : TaskLaunchIntent :=
  ⟨agentType, modelTier, model, effort, ralphVerdictEnv, dependencies.map List.eraseDups⟩

/-- What the text of a fingerprint is made of. -/
structure Fingerprint where
  agentType : AgentType
  model : Option String
  effort : Option String
  modelTier : Option ModelTier
  dependencies : List LaunchDependency
  ralphVerdictEnv : Bool
  deriving DecidableEq

def launchIntentFingerprint (intent : TaskLaunchIntent) : Fingerprint where
  agentType := intent.agentType
  model := intent.model
  effort := intent.effort
  modelTier := intent.modelTier
  dependencies := (intent.dependencies.getD []).eraseDups.insertionSort fun a b => a.text ≤ b.text
  ralphVerdictEnv := intent.ralphVerdictEnv = some true

/-- `none` for the agent that takes no tier. -/
def resolveModelTier : AgentType → ModelTier → Option (String × Option String)
  | .claudeCode, .small => some ("claude-haiku-4-5", none)
  | .codexCli, .small => some ("gpt-5.6-luna", some "high")
  | .grokBuild, .small => some ("grok-4.6", none)
  | .hermesFleet, .small => none

structure Session where
  tmuxSession : String
  /-- `lastStatus` is `completed` or `aborted`. -/
  isSessionTerminal : Bool

structure Task where
  status : TaskStatus
  prompt : String
  cwd : String
  agentType : AgentType
  /-- Tasks of older versions have none. -/
  launchIntent : Option TaskLaunchIntent
  sessions : List Session
  isRalphLoopActive : Bool
  /-- `launchAdmission` is `probing`. -/
  probing : Bool

/-- What the server runs on. -/
structure Host where
  hashPrompt : String → String
  canonicalizeCwd : String → String
  /-- Whether there is a `terminalBackend`. -/
  terminalBackend : Bool

/-- The launch identity. -/
structure Identity where
  promptHash : String
  agentType : AgentType
  canonicalCwd : String
  fingerprint : Fingerprint
  deriving DecidableEq

def Task.identity (host : Host) (task : Task) : Option Identity :=
  task.launchIntent.map fun intent =>
    ⟨host.hashPrompt task.prompt, task.agentType, host.canonicalizeCwd task.cwd, launchIntentFingerprint intent⟩

def ACTIVE_STATUSES : List TaskStatus := [.open, .pending, .inProgress]

def sameLaunchIntent (intent : Option TaskLaunchIntent) (requested : TaskLaunchIntent) : Bool :=
  intent.any fun intent => launchIntentFingerprint intent = launchIntentFingerprint requested

def viewLiveTasks (tasks : OrderedMap ℕ Task) : List (ℕ × Task) :=
  tasks.entries.filter fun (_, task) => !task.status.isTerminalStatus

def checkSubmission (host : Host) (tasks : OrderedMap ℕ Task) (prompt : String) (agentType : AgentType) (cwd : String)
    (intent : TaskLaunchIntent) : Option (ℕ × Task) :=
  (viewLiveTasks tasks).find? fun (id, task) =>
    task.status ∈ ACTIVE_STATUSES && task.agentType = agentType && host.hashPrompt task.prompt = host.hashPrompt prompt &&
      host.canonicalizeCwd task.cwd = host.canonicalizeCwd cwd && sameLaunchIntent task.launchIntent intent &&
      (tasks.get id).any fun liveTask => liveTask.agentType = agentType && liveTask.status ∈ ACTIVE_STATUSES

def reconcileStaleDuplicate (tasks : OrderedMap ℕ Task) (id : ℕ) : OrderedMap ℕ Task :=
  match tasks.get id with
  | none => tasks
  | some current =>
    if current.status ≠ .inProgress then tasks
    else tasks.set id { current with
      status := .terminated
      sessions := current.sessions.map fun session => { session with isSessionTerminal := true } }

/-- The prompt has its guardrails, and the agent is the one that was resolved. -/
structure LaunchOpts where
  prompt : String
  cwd : String
  agentType : AgentType
  modelTier : Option ModelTier
  model : Option String
  effort : Option String
  ralphVerdictEnv : Option Bool
  dependencies : Option (List LaunchDependency)

inductive Stage where
  /-- At the head of the loop of `findDuplicate`. -/
  | searching (rotated : Bool)
  /-- The candidate's sessions that are still to be asked for. -/
  | probing (rotated : Bool) (candidate : ℕ) (sessions : List String)
  | resolvingClaim
  | pollingQuota
  | syncing
  | duplicate (id : ℕ)
  | created (id : ℕ)
  | rejected

/-- The last search has found nothing, and the task is still to be created. -/
def Stage.cleared : Stage → Bool
  | .resolvingClaim | .pollingQuota | .syncing => true
  | _ => false

structure LaunchCall where
  opts : LaunchOpts
  agentType : AgentType
  effectiveModel : Option String
  effectiveEffort : Option String
  stage : Stage
  /-- How many tasks had been made when the launch last searched. The code keeps no such number. -/
  searchedAt : ℕ

namespace LaunchCall

variable (host : Host) (call : LaunchCall)

def start (opts : LaunchOpts) : LaunchCall := ⟨opts, opts.agentType, opts.model, opts.effort, .searching false, 0⟩

/-- The intent that `findDuplicate` looks for. -/
def searchedIntent : TaskLaunchIntent :=
  buildTaskLaunchIntent call.agentType call.opts.modelTier call.effectiveModel call.effectiveEffort
    call.opts.ralphVerdictEnv call.opts.dependencies

/-- The intent that the task is created with. -/
def buildLaunchIntent : TaskLaunchIntent :=
  buildTaskLaunchIntent call.agentType call.opts.modelTier call.effectiveModel call.effectiveEffort
    (if call.opts.ralphVerdictEnv = some true then some true else none) call.opts.dependencies

def task : Task :=
  ⟨.open, call.opts.prompt, call.opts.cwd, call.agentType, some call.buildLaunchIntent, [], false, false⟩

def identity : Identity :=
  ⟨host.hashPrompt call.opts.prompt, call.agentType, host.canonicalizeCwd call.opts.cwd,
    launchIntentFingerprint call.searchedIntent⟩

def goto (stage : Stage) : LaunchCall := { call with stage }

/-- Another agent, which keeps the pins that it knows. -/
def rotate (toAgent : AgentType) (keepsModel keepsEffort : Bool) : LaunchCall :=
  match call.opts.modelTier with
  | some tier =>
    match resolveModelTier toAgent tier with
    | none => call.goto .rejected
    | some (model, effort) =>
      { call with agentType := toAgent, effectiveModel := some model, effectiveEffort := effort, stage := .searching true }
  | none =>
    { call with
      agentType := toAgent
      effectiveModel := if keepsModel then call.effectiveModel else none
      effectiveEffort := if keepsEffort then call.effectiveEffort else none
      stage := .searching true }

end LaunchCall

structure State where
  tasks : OrderedMap ℕ Task
  /-- The number of the next task. -/
  nextTask : ℕ
  launches : List LaunchCall
  /-- The sessions that are alive. -/
  alive : List String

namespace State

inductive ProbeFailure where
  | hostUnavailable
  | other

inductive Event where
  | launch (opts : LaunchOpts)
  | search (p : ℕ)
  /-- The backend tells whether a session is alive, or fails to. -/
  | probed (p : ℕ) (failure : Option ProbeFailure)
  | claimResolved (p : ℕ)
  /-- The quota is there, or the launch takes another agent. -/
  | quotaPolled (p : ℕ) (rotation : Option (AgentType × Bool × Bool))
  | synced (p : ℕ) (claimLost : Bool)
  /-- Anything before the creation that throws. -/
  | rejected (p : ℕ)
  | moveTask (id : ℕ) (status : TaskStatus)
  | setSessions (id : ℕ) (sessions : List Session)
  | mark (id : ℕ) (isRalphLoopActive probing : Bool)
  | deleteTask (id : ℕ)
  | setAlive (alive : List String)

/-- No launch has been made yet. -/
def initial (tasks : OrderedMap ℕ Task) (nextTask : ℕ) (alive : List String) : State := ⟨tasks, nextTask, [], alive⟩

variable (host : Host) (s : State) (p : ℕ) (call : LaunchCall)

def goto : State := { s with launches := s.launches.set p call }

/-- One round of `findDuplicate`. -/
def search (rotated : Bool) : State :=
  match checkSubmission host s.tasks call.opts.prompt call.agentType call.opts.cwd call.searchedIntent with
  | none => s.goto p { call with stage := if rotated then .syncing else .resolvingClaim, searchedAt := s.nextTask }
  | some (id, candidate) =>
    if candidate.status ≠ .inProgress || candidate.isRalphLoopActive || candidate.probing || !host.terminalBackend then
      s.goto p (call.goto (.duplicate id))
    else
      s.goto p (call.goto (.probing rotated id
        ((candidate.sessions.filter fun session => !session.isSessionTerminal).map Session.tmuxSession)))

/-- The answer for one session of the candidate. -/
def probed (rotated : Bool) (candidate : ℕ) (session : String) (rest : List String) (failure : Option ProbeFailure) : State :=
  match failure with
  | none =>
    if session ∈ s.alive then s.goto p (call.goto (.duplicate candidate))
    else s.goto p (call.goto (.probing rotated candidate rest))
  | some .hostUnavailable => s.goto p (call.goto (.duplicate candidate))
  | some .other => s.goto p (call.goto (.probing rotated candidate rest))

/-- No session of the candidate is alive. -/
def staleDuplicate (rotated : Bool) (candidate : ℕ) : State :=
  { s.goto p (call.goto (.searching rotated)) with tasks := reconcileStaleDuplicate s.tasks candidate }

/-- The task is created; it is deleted again if the claim is held by another. -/
def createTask (claimLost : Bool) : State :=
  let next := s.goto p (call.goto (if claimLost then .rejected else .created s.nextTask))
  { next with tasks := if claimLost then s.tasks else s.tasks.set s.nextTask call.task, nextTask := s.nextTask + 1 }

def launchStep : Stage → Event → Option State
  | .searching rotated, .search _ => some (s.search host p call rotated)
  | .probing rotated candidate (session :: rest), .probed _ failure =>
    some (s.probed p call rotated candidate session rest failure)
  | .probing rotated candidate [], .search _ => some (s.staleDuplicate p call rotated candidate)
  | .resolvingClaim, .claimResolved _ => some (s.goto p (call.goto .pollingQuota))
  | .pollingQuota, .quotaPolled _ none => some (s.goto p (call.goto .syncing))
  | .pollingQuota, .quotaPolled _ (some (toAgent, keepsModel, keepsEffort)) =>
    if call.agentType = .claudeCode ∧ toAgent ≠ .claudeCode then
      some (s.goto p (call.rotate toAgent keepsModel keepsEffort))
    else none
  | .syncing, .synced _ claimLost => some (s.createTask p call claimLost)
  | .resolvingClaim, .rejected _ | .pollingQuota, .rejected _ | .syncing, .rejected _ =>
    some (s.goto p (call.goto .rejected))
  | _, _ => none

def updateTask (id : ℕ) (f : Task → Task) : Option State :=
  (s.tasks.get id).map fun task => { s with tasks := s.tasks.set id (f task) }

/-- A finished task stays finished. -/
def moveTask (id : ℕ) (status : TaskStatus) : Option State :=
  (s.tasks.get id).bind fun task =>
    if status ∈ VALID_TRANSITIONS task.status ∧ (task.status.isTerminalStatus → status.isTerminalStatus) then
      s.updateTask id fun task => { task with status }
    else none

def step (e : Event) : Option State :=
  match e with
  | .launch opts => some { s with launches := s.launches ++ [.start opts] }
  | .moveTask id status => s.moveTask id status
  | .setSessions id sessions => s.updateTask id fun task => { task with sessions }
  | .mark id isRalphLoopActive probing => s.updateTask id fun task => { task with isRalphLoopActive, probing }
  | .deleteTask id => some { s with tasks := s.tasks.delete id }
  | .setAlive alive => some { s with alive }
  | .search p | .probed p _ | .claimResolved p | .quotaPolled p _ | .synced p _ | .rejected p =>
    s.launches[p]?.bind fun call => s.launchStep host p call call.stage e

end State

end Kookr.Launch.Dedup
