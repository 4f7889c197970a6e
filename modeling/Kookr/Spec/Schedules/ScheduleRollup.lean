import Kookr.Lib.KeyedRows
import Kookr.Spec.Schedules.ScheduleService

/-! What the ledgers of the schedules come to (`src/core/schedule-rollup.ts`), kept next to the schedules
of the store (`src/core/schedule.ts`). A file is what has been read of it: the rows and rollups that were
well formed, a count that is no natural number being equal to none. -/

namespace Kookr.Schedules

open Kookr.Lib

structure ScheduleRollup (ν : Type) where
  scheduleId : String
  fires : ℕ
  outcomes : OrderedMap ScheduleExecutionOutcome ℕ
  measuredFires : ℕ
  merged : ℕ
  liveVerified : ℕ
  costUsd : ν
  tokens : ν
  artifacts : ℕ
  windowStart : Option ℕ
  windowEnd : Option ℕ
  updatedAt : ℕ

variable {ν : Type}

/-- An empty text is no commit. -/
def ScheduleExecutionLedgerEntry.mergedCommit (entry : ScheduleExecutionLedgerEntry ν) : Option String :=
  entry.enrichment.mergeCommit.filter fun commit => commit ≠ ""

section Numbers

variable [Zero ν] [Add ν]

/-- One row of the ledger. -/
def ScheduleRollup.addEntry (liveVerifiedCommits : List String) (r : ScheduleRollup ν) (entry : ScheduleExecutionLedgerEntry ν) :
    ScheduleRollup ν :=
  let windowEnd := entry.completedAt.getD entry.evaluatedAt
  { r with
    outcomes := r.outcomes.set entry.outcome ((r.outcomes.get entry.outcome).getD 0 + 1)
    merged := if entry.mergedCommit.isSome then r.merged + 1 else r.merged
    liveVerified := if entry.mergedCommit.any (fun commit => commit ∈ liveVerifiedCommits) then r.liveVerified + 1 else r.liveVerified
    measuredFires := if entry.enrichment.tokenUsage.isSome then r.measuredFires + 1 else r.measuredFires
    costUsd := entry.enrichment.tokenUsage.elim r.costUsd fun usage => r.costUsd + usage.costUsd
    tokens := entry.enrichment.tokenUsage.elim r.tokens fun usage =>
      r.tokens + (usage.inputTokens + usage.outputTokens + usage.cacheReadTokens + usage.cacheWriteTokens)
    artifacts := r.artifacts + (entry.enrichment.artifacts.getD []).length
    windowStart := if r.windowStart.all (fun start => entry.evaluatedAt < start) then some entry.evaluatedAt else r.windowStart
    windowEnd := if r.windowEnd.all (fun last => last < windowEnd) then some windowEnd else r.windowEnd }

def computeScheduleRollup (schedule : Schedule ν) (now : ℕ) (liveVerifiedCommits : List String) : ScheduleRollup ν :=
  schedule.executionLedger.foldl (ScheduleRollup.addEntry liveVerifiedCommits)
    ⟨schedule.id, schedule.executionLedger.length, .empty, 0, 0, 0, 0, 0, 0, none, none, now⟩

/-- But for `updatedAt`. -/
def rollupsEqual [DecidableEq ν] (a b : ScheduleRollup ν) : Bool :=
  a.scheduleId = b.scheduleId && a.fires = b.fires && a.measuredFires = b.measuredFires && a.merged = b.merged &&
    a.liveVerified = b.liveVerified && a.costUsd = b.costUsd && a.tokens = b.tokens && a.artifacts = b.artifacts &&
    a.windowStart = b.windowStart && a.windowEnd = b.windowEnd && a.outcomes.size = b.outcomes.size &&
    a.outcomes.keys.all fun key => a.outcomes.get key = b.outcomes.get key

/-- What has been read of `schedule-rollups.json`. -/
structure PersistedRollups (ν : Type) where
  rollups : List (ScheduleRollup ν)
  liveVerifiedCommits : List String
  lastVerifiedSha : Option String

structure ScheduleRollupStore (ν : Type) where
  rollups : OrderedMap String (ScheduleRollup ν)
  liveVerifiedCommits : List String
  lastVerifiedSha : Option String

namespace ScheduleRollupStore

def empty : ScheduleRollupStore ν := ⟨.empty, [], none⟩

variable (s : ScheduleRollupStore ν)

/-- The commits that a reader keeps. -/
def readCommits (persisted : Option (PersistedRollups ν)) : List String :=
  OrderedSet.ofList ((persisted.elim [] PersistedRollups.liveVerifiedCommits).filter fun commit => commit ≠ "")

/-- A stored rollup is trusted where it agrees with the ledger. -/
def loaded [DecidableEq ν] (persisted : Option (PersistedRollups ν)) (now : ℕ) (schedule : Schedule ν) : ScheduleRollup ν :=
  let fresh := computeScheduleRollup schedule now (readCommits persisted)
  match persisted.bind fun file => (mapBy ScheduleRollup.scheduleId file.rollups).get schedule.id with
  | none => fresh
  | some prior => if rollupsEqual prior fresh then prior else fresh

def load [DecidableEq ν] (schedules : List (Schedule ν)) (persisted : Option (PersistedRollups ν)) (now : ℕ) : ScheduleRollupStore ν where
  rollups := schedules.foldl (fun rollups schedule => rollups.set schedule.id (loaded persisted now schedule)) .empty
  liveVerifiedCommits := readCommits persisted
  lastVerifiedSha := persisted.bind PersistedRollups.lastVerifiedSha

def updateFromSchedule (schedule : Schedule ν) (now : ℕ) : ScheduleRollupStore ν :=
  { s with rollups := s.rollups.set schedule.id (computeScheduleRollup schedule now s.liveVerifiedCommits) }

def remove (id : String) : ScheduleRollupStore ν := { s with rollups := s.rollups.delete id }

def applyDeployVerification (schedules : List (Schedule ν)) (deployedSha : String) (verifiedCommits : List String) (now : ℕ) :
    ScheduleRollupStore ν :=
  let liveVerifiedCommits := OrderedSet.addAll s.liveVerifiedCommits verifiedCommits
  { rollups := schedules.foldl (fun rollups schedule => rollups.set schedule.id (computeScheduleRollup schedule now liveVerifiedCommits)) s.rollups
    liveVerifiedCommits
    lastVerifiedSha := some deployedSha }

/-- `writeRollups`. -/
def persisted : PersistedRollups ν := ⟨s.rollups.values, s.liveVerifiedCommits, s.lastVerifiedSha.filter fun sha => sha ≠ ""⟩

end ScheduleRollupStore

/-- What has been read of `schedules.json`. -/
inductive ScheduleFile (ν : Type) where
  | missing
  | unreadable
  | notAnArray
  | rows (schedules : List (Schedule ν))

/-- A deploy that waits for the ancestry of a commit. -/
structure DeployCheck where
  deployedSha : String
  /-- Not yet answered, the first one being asked for. -/
  candidates : List String
  verified : List String

structure ScheduleStore (ν : Type) where
  schedules : ScheduleRows ν
  rollupStore : ScheduleRollupStore ν
  deploys : List DeployCheck

inductive StoreEvent (ν : Type) where
  | load (file : ScheduleFile ν) (rollups : Option (PersistedRollups ν))
  | create (id : String) (definition : ScheduleDefinition) (enabled : Bool) (maxTriggers : Option ℕ)
  | updateDefinition (id : String) (patch : Schedule.UpdateScheduleDefinitionInput)
  | setEnabled (id : String) (enabled : Bool) (operatorHold : Option Bool)
  | archive (id : String)
  | unarchive (id : String)
  | delete (id : String)
  | replace (schedule : Schedule ν)
  | recordDeployVerification (deployedSha : String)
  /-- The answer for the commit that a deploy waits for, or the failure to give one. -/
  | contained (i : ℕ) (answer : Option Bool)

namespace ScheduleStore

def empty : ScheduleStore ν := ⟨.empty, .empty, []⟩

variable (s : ScheduleStore ν)

def getRollup (id : String) : Option (ScheduleRollup ν) := s.rollupStore.rollups.get id

/-- Every write of a row goes through `syncRollup`. -/
def put (schedule : Schedule ν) (now : ℕ) : ScheduleStore ν :=
  { s with
    schedules := s.schedules.replace schedule
    rollupStore := if schedule.archived then s.rollupStore.remove schedule.id else s.rollupStore.updateFromSchedule schedule now }

/-- What throws changes nothing. -/
def putSome (schedule : Option (Schedule ν)) (now : ℕ) : ScheduleStore ν :=
  match schedule with
  | none => s
  | some schedule => s.put schedule now

def delete (id : String) : ScheduleStore ν :=
  if (s.schedules.get id).isSome then { s with schedules := s.schedules.delete id, rollupStore := s.rollupStore.remove id } else s

def loadRows (file : ScheduleFile ν) : ScheduleRows ν :=
  match file with
  | .missing | .notAnArray => s.schedules
  | .unreadable => .empty
  | .rows schedules => schedules.foldl ScheduleRows.replace s.schedules

def load [DecidableEq ν] (file : ScheduleFile ν) (rollups : Option (PersistedRollups ν)) (now : ℕ) : ScheduleStore ν :=
  { s with
    schedules := s.loadRows file
    rollupStore := ScheduleRollupStore.load (s.loadRows file).list rollups now }

/-- The merge commits of all ledgers, each once. -/
def mergeCommits : List String :=
  OrderedSet.ofList (s.schedules.listAll.flatMap fun schedule => schedule.executionLedger.filterMap ScheduleExecutionLedgerEntry.mergedCommit)

def applyDeploy (deploy : DeployCheck) (now : ℕ) : ScheduleStore ν :=
  { s with rollupStore := s.rollupStore.applyDeployVerification s.schedules.list deploy.deployedSha deploy.verified now }

/-- Without a commit to ask for there is no wait. -/
def recordDeployVerification (deployedSha : String) (now : ℕ) : ScheduleStore ν :=
  match s.mergeCommits with
  | [] => s.applyDeploy ⟨deployedSha, [], []⟩ now
  | commit :: rest => { s with deploys := s.deploys ++ [⟨deployedSha, commit :: rest, []⟩] }

def contained (i : ℕ) (answer : Option Bool) (now : ℕ) : Option (ScheduleStore ν) :=
  s.deploys[i]?.bind fun deploy =>
    match deploy.candidates, answer with
    | [], _ => none
    | _, none => some { s with deploys := s.deploys.eraseIdx i }
    | commit :: rest, some isContained =>
      let deploy := { deploy with candidates := rest, verified := if isContained then deploy.verified ++ [commit] else deploy.verified }
      if rest = [] then some ({ s with deploys := s.deploys.eraseIdx i }.applyDeploy deploy now)
      else some { s with deploys := s.deploys.set i deploy }

/-- The event and the time of it. -/
def step [DecidableEq ν] (s : ScheduleStore ν) : StoreEvent ν × ℕ → Option (ScheduleStore ν)
  | (.load file rollups, now) => some (s.load file rollups now)
  | (.create id definition enabled maxTriggers, now) => some (s.putSome (Schedule.create id definition enabled maxTriggers now) now)
  | (.updateDefinition id patch, now) =>
    some (s.putSome ((s.schedules.get id).bind fun schedule => schedule.updateDefinition patch now) now)
  | (.setEnabled id enabled operatorHold, now) =>
    some (s.putSome ((s.schedules.get id).map fun schedule => schedule.storeSetEnabled enabled operatorHold now) now)
  | (.archive id, now) => some (s.putSome ((s.schedules.get id).map Schedule.archive) now)
  | (.unarchive id, now) => some (s.putSome ((s.schedules.get id).map Schedule.unarchive) now)
  | (.delete id, _) => some (s.delete id)
  | (.replace schedule, now) => some (s.put schedule now)
  | (.recordDeployVerification deployedSha, now) => some (s.recordDeployVerification deployedSha now)
  | (.contained i answer, now) => s.contained i answer now

end ScheduleStore

end Numbers

end Kookr.Schedules
