import Kookr.Lib.OrderedMap
import Mathlib.Algebra.Order.Ring.Int

/-! The leases of the worktrees and how they are reconciled with the sessions of the task store
(`src/core/worktree-lease-service.ts`). A routine reads the clock once. -/

namespace Kookr.Core

open Kookr.Lib

/-- A session as the lease service looks at it. -/
structure WorktreeSession where
  cwd : String
  gitIsWorktree : Bool
  lastStatus : Option String
  deriving DecidableEq

structure ActiveSession where
  taskId : String
  session : WorktreeSession
  deriving DecidableEq

/-- The tasks of a store with their sessions. -/
abbrev WorktreeTasks := List (String × List WorktreeSession)

def WorktreeSession.isActive (session : WorktreeSession) : Bool :=
  session.lastStatus ≠ some "completed" && session.lastStatus ≠ some "aborted"

def getActiveSessions (tasks : WorktreeTasks) : List ActiveSession :=
  tasks.flatMap fun task => (task.2.filter fun session => session.isActive).map fun session => ⟨task.1, session⟩

structure WorktreeLease where
  worktreePath : String
  ownerId : String
  acquiredAt : ℤ
  lastHeartbeatAt : ℤ
  deriving DecidableEq

abbrev WorktreeLeases := OrderedMap String WorktreeLease

namespace WorktreeLeases

variable (staleThresholdMs now : ℤ) (leases : WorktreeLeases)

def acquire (worktreePath ownerId : String) : Except String WorktreeLeases :=
  let lease acquiredAt := leases.set worktreePath ⟨worktreePath, ownerId, acquiredAt, now⟩
  match leases.get worktreePath with
  | none => .ok (lease now)
  | some existing =>
    if existing.ownerId = ownerId then .ok (lease existing.acquiredAt)
    else if now - existing.lastHeartbeatAt < staleThresholdMs then
      .error ("Worktree " ++ worktreePath ++ " is already leased by " ++ existing.ownerId)
    else .ok (lease now)

def isLeased (worktreePath : String) : Bool :=
  (leases.get worktreePath).any fun lease => now - lease.lastHeartbeatAt < staleThresholdMs

/-- The loop over the active sessions, with the leases, the paths that are in use, and the count so far. -/
def backfill (acc : WorktreeLeases × List String × ℕ) (entry : ActiveSession) : Except String (WorktreeLeases × List String × ℕ) :=
  let session := entry.session
  if session.gitIsWorktree ∧ session.cwd ≠ "" then
    let activeWorktrees := OrderedSet.add acc.2.1 session.cwd
    if acc.1.has session.cwd then .ok (acc.1, activeWorktrees, acc.2.2)
    else (acquire staleThresholdMs now acc.1 session.cwd entry.taskId).map fun leases => (leases, activeWorktrees, acc.2.2 + 1)
  else .ok acc

/-- With the counts of leases that were backfilled and released. -/
def reconcileFromTaskStore (tasks : WorktreeTasks) : Except String (WorktreeLeases × ℕ × ℕ) :=
  ((getActiveSessions tasks).foldlM (backfill staleThresholdMs now) (leases, [], 0)).map fun result =>
    let kept := result.1.filter fun path _ => path ∈ result.2.1
    (kept, result.2.2, result.1.size - kept.size)

end WorktreeLeases

end Kookr.Core
