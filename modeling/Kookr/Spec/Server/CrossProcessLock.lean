import Mathlib.Data.Nat.Notation
import Kookr.Lib.Exec

/-! The lock of several processes on one path (`src/server/cross-process-lock.ts`), one file operation
at a time. A process is known by its pid, and the ones that are alive stay so. The directory above
the lock is there. A file operation may fail for a reason of its own, and then changes nothing. -/

namespace Kookr.Server

open Kookr.Lib

/-- What `holder.json` has; a text that is no lock holder is malformed. -/
inductive HolderFile where
  | absent
  | malformed
  | record (pid : ℕ) (startedAt : String)
  deriving DecidableEq

/-- What is known of the holder. -/
structure LockHolder where
  holderPid : Option ℕ
  heldSince : Option String
  deriving DecidableEq

inductive CrossProcessLockResult where
  | acquired
  | busy (holder : LockHolder)
  | error
  deriving DecidableEq

/-- The next file operation of a call. -/
inductive LockStage where
  | idle
  | mkdir (attempt : ℕ)
  | writeHolder (attempt : ℕ)
  | readHolder (attempt : ℕ)
  | remove (attempt : ℕ) (holder : LockHolder)
  | readLast
  deriving DecidableEq

structure LockProcess where
  stage : LockStage
  /-- The locks that were acquired and not released. -/
  acquired : ℕ
  result : Option CrossProcessLockResult

structure CrossProcessLock where
  /-- The lock directory, when it is there. -/
  directory : Option HolderFile
  processes : ℕ → LockProcess

inductive LockEvent where
  | tryAcquire (pid : ℕ)
  /-- The next file operation of the call. -/
  | operation (pid : ℕ) (now : String) (fails : Bool)
  | release (pid : ℕ) (fails : Bool)

/-- `readHolder`. -/
def readHolder (directory : Option HolderFile) (fails : Bool) : LockHolder :=
  match directory, fails with
  | some (.record pid startedAt), false => ⟨some pid, some startedAt⟩
  | _, _ => ⟨none, none⟩

namespace LockProcess

variable (p : LockProcess)

def goto (stage : LockStage) : LockProcess := { p with stage }

def returns (result : CrossProcessLockResult) : LockProcess := { p with stage := .idle, result := some result }

def acquires : LockProcess := { p with stage := .idle, acquired := p.acquired + 1, result := some .acquired }

/-- After the removal comes the next of two attempts. -/
def retry (attempt : ℕ) : LockProcess := p.goto (if attempt + 1 < 2 then .mkdir (attempt + 1) else .readLast)

/-- Only a recorded dead pid is reclaimed. -/
def found (isAlive : ℕ → Bool) (pid attempt : ℕ) (holder : LockHolder) : LockProcess :=
  match holder.holderPid with
  | some holderPid =>
    if holderPid ≠ pid ∧ isAlive holderPid then p.returns (.busy holder)
    else if holderPid = pid then p.returns (.busy holder)
    else p.goto (.remove attempt holder)
  | none => p.returns (.busy holder)

end LockProcess

namespace CrossProcessLock

variable (isAlive : ℕ → Bool) (s : CrossProcessLock)

/-- The process moves, and leaves the directory like that. -/
def put (pid : ℕ) (directory : Option HolderFile) (process : LockProcess) : CrossProcessLock :=
  ⟨directory, fun q => if q = pid then process else s.processes q⟩

def operation (pid : ℕ) (now : String) (fails : Bool) : Option CrossProcessLock :=
  let p := s.processes pid
  match p.stage with
  | .idle => none
  | .mkdir attempt =>
    if fails then some (s.put pid s.directory (p.returns .error))
    else
      match s.directory with
      | none => some (s.put pid (some .absent) (p.goto (.writeHolder attempt)))
      | some file => some (s.put pid (some file) (p.goto (.readHolder attempt)))
  | .writeHolder attempt =>
    if fails then some (s.put pid s.directory (p.returns .error))
    else
      match s.directory with
      | none => some (s.put pid none (p.returns .error))
      | some .absent => some (s.put pid (some (.record pid now)) p.acquires)
      | some file => some (s.put pid (some file) (p.goto (.readHolder attempt)))
  | .readHolder attempt => some (s.put pid s.directory (p.found isAlive pid attempt (readHolder s.directory fails)))
  | .remove attempt holder =>
    if fails then some (s.put pid s.directory (p.returns (.busy holder)))
    else some (s.put pid none (p.retry attempt))
  | .readLast => some (s.put pid s.directory (p.returns (.busy (readHolder s.directory fails))))

def step : LockEvent → Option CrossProcessLock
  | .tryAcquire pid =>
    if isAlive pid ∧ (s.processes pid).stage = .idle then
      some (s.put pid s.directory ((s.processes pid).goto (.mkdir 0)))
    else none
  | .operation pid now fails => if isAlive pid then s.operation isAlive pid now fails else none
  | .release pid fails =>
    let p := s.processes pid
    if isAlive pid ∧ p.stage = .idle ∧ 0 < p.acquired then
      some (s.put pid (if fails then s.directory else none) { p with acquired := p.acquired - 1 })
    else none

/-- Nobody runs, and the directory is as it was left. -/
def start (directory : Option HolderFile) : CrossProcessLock := ⟨directory, fun _ => ⟨.idle, 0, none⟩⟩

end CrossProcessLock

end Kookr.Server
