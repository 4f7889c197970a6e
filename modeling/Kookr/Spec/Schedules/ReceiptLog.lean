import Kookr.Spec.Schedules.TriggerBudget
import Kookr.Spec.Server.ScheduleRunner

/-! The file of a schedule under its fires (`src/core/schedule.ts`, `src/server/schedule-service.ts`),
one write after the other, each of what the row is by then, and a restart at any moment, which reads the
file and reconciles. A write of which the fire does not wait is one of the other schedules or of
whatever else has written the row. -/

namespace Kookr.Schedules

open Kookr.Server (WriteResult)

variable {ν : Type}

/-- What the reader of the file makes of a row that the service has written. -/
def Schedule.loaded (s : Schedule ν) : Schedule ν := { s with executionLedger := pruneExecutionLedger s.executionLedger }

/-- A row and, which nothing of the code reads, the ids of all rows that were ever appended to its
ledger, and how many there were when its receipt was reserved. -/
structure ReceiptLog (ν : Type) where
  schedule : Schedule ν
  appended : List LedgerKey
  reservedAt : ℕ

namespace ReceiptLog

variable (log : ReceiptLog ν)

/-- The receipt, with how many rows there were. -/
def reservation : Option (ScheduleExecutionReceipt × ℕ) := log.schedule.currentExecution.map fun receipt => (receipt, log.reservedAt)

/-- The row is written. -/
def write (schedule : Schedule ν) : ReceiptLog ν :=
  { log with
    schedule
    appended := log.appended ++
      (schedule.executionLedger.map ScheduleExecutionLedgerEntry.id).filter fun id =>
        id ∉ log.schedule.executionLedger.map ScheduleExecutionLedgerEntry.id }

/-- The file is loaded and reconciled. -/
def recovered (getTask : String → Option (Schedule.ReconcileTask ν)) (serverRestartActive : Bool) (threshold now : ℕ) : ReceiptLog ν :=
  let loaded := log.write log.schedule.loaded
  loaded.write (loaded.schedule.reconcileOnStartup getTask serverRestartActive threshold now)

end ReceiptLog

/-- The write that the fire waits for. -/
inductive FireWait where
  | asked
  | writing
  | finished (written : Bool)
  deriving DecidableEq

inductive ReceiptEvent (ν : Type) where
  | run (e : BudgetEvent ν)
  | startWrite (awaited : Bool)
  | endWrite (result : WriteResult)
  | restart (getTask : String → Option (Schedule.ReconcileTask ν)) (serverRestartActive : Bool) (threshold now : ℕ)

structure ReceiptRun (ν : Type) where
  fire : Option BudgetStage
  receipts : ℕ
  memory : ReceiptLog ν
  wait : FireWait
  writing : Option (ReceiptLog ν)
  file : ReceiptLog ν
  /-- Every receipt that the file has had, which nothing of the code reads. -/
  durable : List (ScheduleExecutionReceipt × ℕ)

namespace ReceiptRun

def start (id : String) (definition : ScheduleDefinition) (enabled : Bool) (maxTriggers : Option ℕ) (now : ℕ) : ReceiptRun ν :=
  let created : ReceiptLog ν := ⟨.created id definition enabled maxTriggers now, [], 0⟩
  ⟨none, 0, created, .asked, none, created, []⟩

variable (s : ReceiptRun ν)

def run : BudgetRun ν := ⟨s.memory.schedule, s.fire, s.receipts, []⟩

/-- A fire goes on from a write when that write is over, as it went. -/
def waitOver (e : BudgetEvent ν) : Bool :=
  match e, s.fire with
  | .reserved written, _ | .accepted written _, _ => s.wait = .finished written
  | .settled, some .recording => s.wait = .finished true || s.wait = .finished false
  | _, _ => true

/-- A fire that goes on from here asks for a write first. -/
def nextWait (e : BudgetEvent ν) (after : Option BudgetStage) : FireWait :=
  match e, after with
  | .fire .., _ => if s.fire = none then .asked else s.wait
  | .launched .., _ | .outcome .., _ | .probeCompleted .., _ | .accepted .., some (.accepting ..) => .asked
  | _, _ => s.wait

def runStep (e : BudgetEvent ν) (next : BudgetRun ν) : ReceiptRun ν :=
  let reserves : Bool := s.fire = none && next.fire.isSome
  { s with
    fire := next.fire
    receipts := next.receipts
    memory := { s.memory.write next.schedule with reservedAt := if reserves then s.memory.appended.length else s.memory.reservedAt }
    wait := s.nextWait e next.fire }

def startWrite (awaited : Bool) : Option (ReceiptRun ν) :=
  if s.writing.isSome then none
  else if awaited then
    if s.wait = .asked then some { s with writing := some s.memory, wait := .writing } else none
  else some { s with writing := some s.memory }

/-- The rename is part of a write that is written. -/
def endWrite (result : WriteResult) : Option (ReceiptRun ν) :=
  s.writing.map fun data =>
    { s with
      writing := none
      wait := if s.wait = .writing then .finished (result = .written) else s.wait
      file := if result = .failed then s.file else data
      durable := if result = .failed then s.durable else s.durable ++ data.reservation.toList }

def step : ReceiptEvent ν → Option (ReceiptRun ν)
  | .run e => if s.waitOver e then (s.run.step e).map (s.runStep e) else none
  | .startWrite awaited => s.startWrite awaited
  | .endWrite result => s.endWrite result
  | .restart getTask serverRestartActive threshold now =>
    some { s with
      fire := none
      memory := s.file.recovered getTask serverRestartActive threshold now
      wait := .asked
      writing := none }

end ReceiptRun

end Kookr.Schedules
