import Kookr.Spec.Launch.Slots

/-! Who owns an issue: the registry of claims (`src/core/issue-claim-registry.ts`,
`src/core/issue-claim-types.ts`) over the tasks of the store (`setIssueClaim` and `clearIssueClaim` of
`src/core/tasks.ts`). Of a task there is what the registry sees. The audit log of decisions is left
out, for nothing reads it; the keys that a release returns are the keys of the map. -/

namespace Kookr.Core

open Kookr.Lib Kookr.Launch

structure ClaimKey where
  repo : String
  number : ℕ
  deriving DecidableEq

def claimKeyString (key : ClaimKey) : String := key.repo ++ "\t" ++ toString key.number

structure IssueClaim extends ClaimKey where
  sessionId : Option String
  claimedAt : String
  takeoverOf : Option String
  deriving DecidableEq

structure ClaimTaskView where
  status : TaskStatus
  name : Option String
  issueClaim : Option IssueClaim
  worktreePath : Option String
  deriving DecidableEq

structure ClaimOwnerRecord where
  repo : String
  number : ℕ
  taskId : String
  sessionId : Option String
  claimedAt : String
  takeoverOf : Option String
  ownerStatus : TaskStatus
  ownerName : Option String
  worktreePath : Option String
  deriving DecidableEq

inductive ClaimResult where
  | ok (reentrant : Bool) (tookOver : Option ClaimOwnerRecord)
  | held (owner : ClaimOwnerRecord)
  deriving DecidableEq

structure Claimant where
  taskId : String
  sessionId : Option String

namespace ClaimTaskView

def isLive (task : ClaimTaskView) : Bool := !task.status.isTerminalStatus

/-- The key of the map that the claim of the task stands for. -/
def claimKey (task : ClaimTaskView) : Option String := task.issueClaim.map fun claim => claimKeyString claim.toClaimKey

end ClaimTaskView

/-- The map of owners, and the store. -/
structure IssueClaims where
  owners : OrderedMap String String
  tasks : OrderedMap String ClaimTaskView

namespace IssueClaims

def empty : IssueClaims := ⟨.empty, .empty⟩

def setIssueClaim (s : IssueClaims) (taskId : String) (claim : IssueClaim) : IssueClaims :=
  match s.tasks.get taskId with
  | some task => { s with tasks := s.tasks.set taskId { task with issueClaim := some claim } }
  | none => s

def clearIssueClaim (s : IssueClaims) (taskId : String) : IssueClaims :=
  match s.tasks.get taskId with
  | some task => { s with tasks := s.tasks.set taskId { task with issueClaim := none } }
  | none => s

def toOwnerRecord (taskId : String) (view : ClaimTaskView) : ClaimOwnerRecord where
  repo := (view.issueClaim.map fun claim => claim.repo).getD ""
  number := (view.issueClaim.map fun claim => claim.number).getD 0
  taskId := taskId
  sessionId := view.issueClaim.bind IssueClaim.sessionId
  claimedAt := (view.issueClaim.map IssueClaim.claimedAt).getD ""
  takeoverOf := view.issueClaim.bind IssueClaim.takeoverOf
  ownerStatus := view.status
  ownerName := view.name
  worktreePath := view.worktreePath

/-- The first live task with a claim owns its issue. -/
def rebuildOwner (owners : OrderedMap String String) (entry : String × ClaimTaskView) : OrderedMap String String :=
  match entry.2.claimKey with
  | none => owners
  | some k => if entry.2.isLive && !owners.has k then owners.set k entry.1 else owners

def rebuildFromTasks (s : IssueClaims) : IssueClaims :=
  { s with owners := s.tasks.entries.foldl rebuildOwner .empty }

/-- The state, and the keys of the map that were released. -/
def releaseAllFor (s : IssueClaims) (taskId : String) : IssueClaims × List String :=
  let released := (s.owners.filter fun _ owner => owner = taskId).keys
  let s := { s with owners := s.owners.filter fun _ owner => owner ≠ taskId }
  (if released = [] then s else s.clearIssueClaim taskId, released)

def grant (s : IssueClaims) (key : ClaimKey) (claimant : Claimant) (takeoverOf : Option String) (claimedAt : String) :
    IssueClaims :=
  let s := (s.releaseAllFor claimant.taskId).1
  { s with owners := s.owners.set (claimKeyString key) claimant.taskId }.setIssueClaim claimant.taskId
    ⟨key, claimant.sessionId, claimedAt, takeoverOf⟩

/-- The session of an owner that claims again is the new one. -/
def refresh (s : IssueClaims) (holder : ClaimTaskView) (claimant : Claimant) : IssueClaims :=
  match claimant.sessionId, holder.issueClaim with
  | some sessionId, some claim => s.setIssueClaim claimant.taskId { claim with sessionId := some sessionId }
  | _, _ => s

def claim (s : IssueClaims) (key : ClaimKey) (claimant : Claimant) (force : Bool) (claimedAt : String) :
    IssueClaims × ClaimResult :=
  let k := claimKeyString key
  match s.owners.get k with
  | none => (s.grant key claimant none claimedAt, .ok false none)
  | some holderId =>
    match (s.tasks.get holderId).filter ClaimTaskView.isLive with
    | some holder =>
      if holderId = claimant.taskId then (s.refresh holder claimant, .ok true none)
      else if force then
        let cleared := s.clearIssueClaim holderId
        ({ cleared with owners := cleared.owners.delete k }.grant key claimant (some holderId) claimedAt,
          .ok false (some (toOwnerRecord holderId holder)))
      else (s, .held (toOwnerRecord holderId holder))
    | none =>
      -- the holder is terminal or gone
      (({ s with owners := s.owners.delete k }.clearIssueClaim holderId).grant key claimant none claimedAt, .ok false none)

def ownerRecord (s : IssueClaims) (key : ClaimKey) : Option ClaimOwnerRecord := do
  let holderId ← s.owners.get (claimKeyString key)
  let holder ← (s.tasks.get holderId).filter ClaimTaskView.isLive
  return toOwnerRecord holderId holder

end IssueClaims

/-- Whoever claims, it is a task or was one; the id of a new task is one that nobody has heard of. -/
inductive ClaimStep where
  | create (taskId : String) (name worktreePath : Option String)
  | claim (key : ClaimKey) (claimant : Claimant) (force : Bool) (claimedAt : String)
  | release (taskId : String)
  | transition (taskId : String) (status : TaskStatus)
  | delete (taskId : String)
  | restart

namespace IssueClaims

def step (s : IssueClaims) : ClaimStep → Option IssueClaims
  | .create taskId name worktreePath =>
    if s.tasks.has taskId ∨ taskId ∈ s.owners.values then none
    else some { s with tasks := s.tasks.set taskId ⟨.open, name, none, worktreePath⟩ }
  | .claim key claimant force claimedAt => some (s.claim key claimant force claimedAt).1
  | .release taskId => some (s.releaseAllFor taskId).1
  | .transition taskId status => do
    let task ← s.tasks.get taskId
    if status ∈ VALID_TRANSITIONS task.status then return { s with tasks := s.tasks.set taskId { task with status } }
    else none
  | .delete taskId => if s.tasks.has taskId then some { s with tasks := s.tasks.delete taskId } else none
  | .restart => some s.rebuildFromTasks

end IssueClaims

end Kookr.Core
