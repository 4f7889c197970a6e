import Mathlib.Algebra.Order.Floor.Defs
import Mathlib.Data.Rat.Floor
import Mathlib.Logic.Function.Basic

/-! Two gates in front of a launch: the spawn budget of a launch source (`src/core/spawn-rate-limiter.ts`) and the gate on the
capacity of the data directory (`src/server/task-admission.ts`, `src/core/system-resource-metrics.ts`). -/

namespace Kookr.Server

structure SpawnRateVerdict where
  allowed : Bool
  source : String
  count : ℕ
  limit : ℕ
  windowMs : ℤ
  retryAfterMs : ℤ
  deriving DecidableEq

structure SpawnRateLimiter where
  buckets : String → Option (List ℤ)

namespace SpawnRateLimiter

def start : SpawnRateLimiter := ⟨fun _ => none⟩

/-- Entries that slid out of the window go, and a bucket that is empty. -/
def prune (bucket : Option (List ℤ)) (cutoff : ℤ) : Option (List ℤ) :=
  (bucket.map fun times => times.dropWhile fun t => t ≤ cutoff).filter fun times => times ≠ []

/-- A full bucket has an oldest entry when the limit is positive; `bucket![0]` throws for a limit of 0. -/
def tryAcquire (limiter : SpawnRateLimiter) (limit : ℕ) (windowMs : ℤ) (key : String) (now : ℤ) : SpawnRateVerdict × SpawnRateLimiter :=
  let bucket := prune (limiter.buckets key) (now - windowMs)
  let times := bucket.getD []
  if limit ≤ times.length then
    (⟨false, key, times.length, limit, windowMs, max 0 (times.headD now + windowMs - now)⟩, ⟨Function.update limiter.buckets key bucket⟩)
  else (⟨true, key, times.length, limit, windowMs, 0⟩, ⟨Function.update limiter.buckets key (some (times ++ [now]))⟩)

end SpawnRateLimiter

/-- Readings that are missing or not finite, and counts that are no integers, are `none`. -/
structure DataDirectoryDiskSample where
  diskFreePercent : Option ℚ
  diskFreeBytes : Option ℚ
  diskFreeInodes : Option ℤ
  diskTotalInodes : Option ℤ
  sampledAt : Option String

structure DiskAdmissionConfig where
  freePercentThreshold : ℚ
  freeBytesThreshold : ℚ
  sustainSamples : ℚ
  deriving DecidableEq

inductive DataDirectoryDiskPressureCause where
  | freeSpaceCritical
  | inodesExhausted
  deriving DecidableEq

def isDataDirectoryFreeCritical (freePercent freeBytes : Option ℚ) (percentThreshold bytesThreshold : ℚ) : Bool :=
  (decide (0 < percentThreshold) && freePercent.any fun free => free ≤ percentThreshold) ||
    (decide (0 < bytesThreshold) && freeBytes.any fun free => free ≤ bytesThreshold)

def isSafeCount (n : ℤ) : Bool := n.natAbs ≤ 9007199254740991

def normalizeDataDirectoryInodeCounts : Option ℤ → Option ℤ → Option (ℤ × ℤ)
  | some diskFreeInodes, some diskTotalInodes =>
    if isSafeCount diskFreeInodes && isSafeCount diskTotalInodes && 0 ≤ diskFreeInodes && 0 < diskTotalInodes &&
        diskFreeInodes ≤ diskTotalInodes then some (diskFreeInodes, diskTotalInodes)
    else none
  | _, _ => none

namespace DataDirectoryDiskSample

variable (sample : DataDirectoryDiskSample) (config : DiskAdmissionConfig)

def inodeCounts : Option (ℤ × ℤ) := normalizeDataDirectoryInodeCounts sample.diskFreeInodes sample.diskTotalInodes

def freeSpacePressure : Bool :=
  isDataDirectoryFreeCritical sample.diskFreePercent sample.diskFreeBytes config.freePercentThreshold config.freeBytesThreshold

def inodePressure : Bool := sample.inodeCounts.any fun counts => counts.1 = 0

def allEnabledReadingsKnown : Bool :=
  (config.freePercentThreshold ≤ 0 || sample.diskFreePercent.isSome) && (config.freeBytesThreshold ≤ 0 || sample.diskFreeBytes.isSome)

def hasAnyEnabledReading : Bool :=
  (0 < config.freePercentThreshold && sample.diskFreePercent.isSome) || (0 < config.freeBytesThreshold && sample.diskFreeBytes.isSome) ||
    sample.inodeCounts.isSome

/-- `evaluateDataDirectoryDiskPressure`. -/
def evaluatePressure : Option DataDirectoryDiskPressureCause :=
  if sample.inodePressure then some .inodesExhausted else if sample.freeSpacePressure config then some .freeSpaceCritical else none

end DataDirectoryDiskSample

structure DataDirectoryDiskAdmissionTracker where
  consecutive : ℕ
  critical : Bool
  pressureCause : Option DataDirectoryDiskPressureCause
  freeSpaceRecoveryPending : Bool
  inodeRecoveryPending : Bool
  /-- The thresholds and the number of samples that the key is made of. -/
  configKey : Option (ℚ × ℚ × ℤ)
  lastSampledAt : Option String

namespace DataDirectoryDiskAdmissionTracker

def start : DataDirectoryDiskAdmissionTracker := ⟨0, false, none, false, false, none, none⟩

variable (tracker : DataDirectoryDiskAdmissionTracker) (sample : DataDirectoryDiskSample) (config : DiskAdmissionConfig)

/-- The sample was observed before. -/
def isRepeat : Bool := sample.sampledAt.isSome && sample.sampledAt = tracker.lastSampledAt

def sustainSamples (config : DiskAdmissionConfig) : ℤ := max 1 ⌊config.sustainSamples⌋

/-- Another configuration starts anew. -/
def configured : DataDirectoryDiskAdmissionTracker :=
  let configKey := (config.freePercentThreshold, config.freeBytesThreshold, sustainSamples config)
  let kept := if tracker.configKey.all (· = configKey) then tracker
    else { tracker with
      consecutive := 0
      critical := false
      pressureCause := none
      freeSpaceRecoveryPending := false
      inodeRecoveryPending := false }
  { kept with configKey := some configKey, lastSampledAt := sample.sampledAt.or tracker.lastSampledAt }

/-- The dimensions that are yet to recover. -/
def remember : DataDirectoryDiskAdmissionTracker :=
  { tracker with
    freeSpaceRecoveryPending :=
      sample.freeSpacePressure config || (!sample.allEnabledReadingsKnown config && tracker.freeSpaceRecoveryPending)
    inodeRecoveryPending := sample.inodePressure || (sample.inodeCounts.isNone && tracker.inodeRecoveryPending) }

def observe : DataDirectoryDiskAdmissionTracker :=
  if tracker.isRepeat sample then tracker
  else
    let tracker := tracker.configured sample config
    if !sample.hasAnyEnabledReading config then tracker
    else
      let tracker := tracker.remember sample config
      match sample.evaluatePressure config with
      | some pressureCause =>
        let consecutive := tracker.consecutive + 1
        let critical := tracker.critical || sustainSamples config ≤ consecutive
        { tracker with
          consecutive
          critical
          pressureCause := if critical then some pressureCause else tracker.pressureCause }
      | none =>
        if tracker.freeSpaceRecoveryPending || tracker.inodeRecoveryPending then
          { tracker with pressureCause := some (if tracker.inodeRecoveryPending then .inodesExhausted else .freeSpaceCritical) }
        else { tracker with consecutive := 0, critical := false, pressureCause := none }

end DataDirectoryDiskAdmissionTracker

end Kookr.Server
