import Mathlib.Data.Int.Notation
import Mathlib.Data.List.Sort
import Kookr.Lib.OrderedMap

/-! The slots of the task store (`src/core/tasks.ts`, `src/core/session-registry.ts`): statuses and
their transitions, launch reservations, the counts, and the picking of the next pending task
(`src/server/agent-lifecycle.ts`). Tasks are known by numbers, which are given in order and never
twice. What a failed call throws is `none`. -/

namespace Kookr.Launch

open Kookr.Lib

inductive TaskStatus where
  | «open»
  | pending
  | inProgress
  | completed
  | terminated
  | cancelled
  deriving DecidableEq

namespace TaskStatus

def isTerminalStatus : TaskStatus → Bool
  | .completed | .terminated | .cancelled => true
  | _ => false

/-- Open or pending: a launch may be reserved. -/
def launchable : TaskStatus → Bool
  | .open | .pending => true
  | _ => false

end TaskStatus

def VALID_TRANSITIONS : TaskStatus → List TaskStatus
  | .open => [.pending, .inProgress, .terminated, .cancelled]
  | .pending => [.inProgress, .cancelled]
  | .inProgress => [.open, .completed, .terminated, .cancelled]
  | .completed => [.open]
  | .terminated => [.open, .completed, .cancelled]
  | .cancelled => [.open]

inductive ParkedReason where
  | dependencyDegraded
  | halfOpenProbeBusy
  | halfOpenWaitingForCapacity
  deriving DecidableEq

/-- The dependency marker of a task. -/
inductive LaunchAdmission where
  | parked (reason : ParkedReason)
  | probing
  deriving DecidableEq

/-- Parked work that takes no slot. -/
def isNoSlotDependencyAdmission : Option LaunchAdmission → Bool
  | some (.parked reason) => reason ≠ .halfOpenWaitingForCapacity
  | _ => false

structure Task where
  status : TaskStatus
  createdAt : ℤ
  launchAdmission : Option LaunchAdmission
  autoCloseOnSignal : Bool
  launchSource : Option String
  /-- Whether its launch may use the reserved slots. -/
  privileged : Bool

structure LaunchReservation where
  reservedAt : ℤ
  token : ℕ
  countsAsActive : Bool

def LAUNCH_RESERVATION_TTL_MS : ℤ := 900 * 1000 + 2 * 60 * 1000

structure Slots where
  tasks : OrderedMap ℕ Task
  launchReservations : OrderedMap ℕ LaunchReservation
  launchReservationSequence : ℕ
  /-- The number of the next task. -/
  nextTask : ℕ
  /-- `Date.now()`. -/
  now : ℤ

namespace Slots

def empty (now : ℤ) : Slots := ⟨.empty, .empty, 0, 0, now⟩

variable (s : Slots)

def fresh (reservation : LaunchReservation) : Bool := s.now - reservation.reservedAt < LAUNCH_RESERVATION_TTL_MS

def hasFreshLaunchReservation (id : ℕ) : Bool := (s.launchReservations.get id).any s.fresh

def hasFreshActiveLaunchReservation (id : ℕ) : Bool :=
  (s.launchReservations.get id).any fun reservation => s.fresh reservation && reservation.countsAsActive

def ownsLaunchReservation (id token : ℕ) : Bool :=
  (s.launchReservations.get id).any fun reservation => s.fresh reservation && reservation.token = token

def hasForeignFreshLaunchReservation (id token : ℕ) : Bool :=
  (s.launchReservations.get id).any fun reservation => s.fresh reservation && reservation.token ≠ token

def beginReservationWithToken (id : ℕ) (countsAsActive : Bool) : Option (ℕ × Slots) :=
  match s.tasks.get id with
  | none => none
  | some task =>
    if !task.status.launchable then none
    else if s.hasFreshLaunchReservation id then none
    else
      let token := s.launchReservationSequence + 1
      some (token, { s with
        launchReservationSequence := token
        launchReservations := s.launchReservations.set id ⟨s.now, token, countsAsActive⟩ })

def endLaunch (id token : ℕ) : Slots :=
  if (s.launchReservations.get id).map LaunchReservation.token = some token then
    { s with launchReservations := s.launchReservations.delete id }
  else s

structure CreateTaskOptions where
  launchAdmission : Option LaunchAdmission
  autoCloseOnSignal : Bool
  launchSource : Option String
  privileged : Bool

def createTask (opts : CreateTaskOptions) : ℕ × Slots :=
  let task : Task := ⟨.open, s.now, opts.launchAdmission, opts.autoCloseOnSignal, opts.launchSource, opts.privileged⟩
  (s.nextTask, { s with tasks := s.tasks.set s.nextTask task, nextTask := s.nextTask + 1 })

/-- The task changes; an unknown id changes nothing. -/
def update (id : ℕ) (f : Task → Task) : Slots :=
  match s.tasks.get id with
  | none => s
  | some task => { s with tasks := s.tasks.set id (f task) }

def setLaunchAdmission (id : ℕ) (launchAdmission : Option LaunchAdmission) : Slots :=
  s.update id fun task => { task with launchAdmission }

/-- A terminal task loses its marker, except for one that owns the cleanup of a probe. -/
def transition (id : ℕ) (status : TaskStatus) : Option Slots :=
  match s.tasks.get id with
  | none => none
  | some task =>
    if status ∈ VALID_TRANSITIONS task.status then
      some (s.update id fun task =>
        { task with
          status
          launchAdmission :=
            if status.isTerminalStatus && task.launchAdmission ≠ some .probing then none else task.launchAdmission })
    else none

/-- A transition whose error is caught. -/
def tryTransition (id : ℕ) (status : TaskStatus) : Slots := (s.transition id status).getD s

def reopenTask (id : ℕ) : Option Slots :=
  if (s.tasks.get id).bind Task.launchAdmission = some .probing then none else s.transition id .open

def deleteTask (id : ℕ) : Option Slots :=
  match s.tasks.get id with
  | none => none
  | some task =>
    if task.launchAdmission = some .probing then none
    else some { s with tasks := s.tasks.delete id, launchReservations := s.launchReservations.delete id }

/-- The session is new to the task. -/
def addSession (id : ℕ) : Option Slots :=
  match s.tasks.get id with
  | none => none
  | some task =>
    if task.status.isTerminalStatus then none
    else if task.status = .pending ∧ isNoSlotDependencyAdmission task.launchAdmission then none
    else
      let s := { s with launchReservations := s.launchReservations.delete id }
      some (s.update id fun task => { task with status := if task.status.launchable then .inProgress else task.status })

def occupiesSlot (id : ℕ) (task : Task) : Bool :=
  task.status = .inProgress || task.status.launchable && s.hasFreshActiveLaunchReservation id

def getActiveCount : ℕ := s.tasks.entries.countP fun e => s.occupiesSlot e.1 e.2

def getPendingCount : ℕ :=
  s.tasks.values.countP fun task => task.status = .pending && !isNoSlotDependencyAdmission task.launchAdmission

/-- The pending tasks without a reservation. -/
def waiting : List (ℕ × Task) :=
  s.tasks.entries.filter fun (id, task) => task.status = .pending && !s.hasFreshLaunchReservation id

/-- The first of the oldest. -/
def getNextPending : Option (ℕ × Task) :=
  s.waiting.foldl (fun oldest next =>
    match oldest with
    | none => some next
    | some oldest => if next.2.createdAt < oldest.2.createdAt then some next else some oldest) none

def isSelfReleasingPending (task : Task) : Bool :=
  task.autoCloseOnSignal || task.launchSource = some "schedule" || task.launchSource = some "idle-refinery"

def pickNextPendingForPromotion (freeSlots : ℕ) (excludedTaskIds : List ℕ) : Option ℕ :=
  let eligible := (s.waiting.filter fun (id, _) => id ∉ excludedTaskIds).insertionSort fun a b =>
    a.2.createdAt ≤ b.2.createdAt
  if freeSlots > 1 then
    match s.getNextPending with
    | some next => if next.1 ∈ excludedTaskIds then eligible.head?.map Prod.fst else some next.1
    | none => none
  else ((eligible.find? fun (_, task) => isSelfReleasingPending task).or eligible.head?).map Prod.fst

end Slots

end Kookr.Launch
