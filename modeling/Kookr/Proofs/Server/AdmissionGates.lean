import Kookr.Lib.ListAt
import Kookr.Lib.Exec
import Kookr.Spec.Server.TaskAdmission
import Mathlib.Data.List.Pairwise

/-! The gates in front of a launch. A bucket of the spawn budget holds the launches of its key that are within the window, so
the budget is exact; the gate on the data directory stays shut while pressure of some kind has not been seen to be over. -/

namespace Kookr.Server

open Kookr.Lib DataDirectoryDiskSample DataDirectoryDiskAdmissionTracker List

/-- A limiter with the last reading of the clock and the launches that it allowed. -/
structure SpawnRun where
  limiter : SpawnRateLimiter
  clock : ℤ
  launches : List (String × ℤ)

namespace SpawnRun

def start (clock : ℤ) : SpawnRun := ⟨.start, clock, []⟩

variable {limit : ℕ} {windowMs clock now : ℤ} {key : String} {s s' : SpawnRun} {call : String × ℤ} {calls : List (String × ℤ)}

def step (limit : ℕ) (windowMs : ℤ) (s : SpawnRun) (call : String × ℤ) : Option SpawnRun :=
  if s.clock ≤ call.2 then
    let result := s.limiter.tryAcquire limit windowMs call.1 call.2
    some ⟨result.2, call.2, if result.1.allowed then s.launches ++ [call] else s.launches⟩
  else none

/-- The launches of the key, in their order. -/
def launchesOf (s : SpawnRun) (key : String) : List ℤ := (s.launches.filter fun call => call.1 = key).map Prod.snd

/-- Those after `t - windowMs`, up to `t`. -/
def within (s : SpawnRun) (key : String) (windowMs t : ℤ) : List ℤ :=
  (s.launchesOf key).filter fun launch => t - windowMs < launch ∧ launch ≤ t

/-- A bucket holds the launches of its key that are within the window. -/
structure Kept (limit : ℕ) (windowMs : ℤ) (s : SpawnRun) : Prop where
  sorted : ∀ key, (s.launchesOf key).Pairwise (· ≤ ·)
  past : ∀ key, ∀ launch ∈ s.launchesOf key, launch ≤ s.clock
  ordered : ∀ key, ((s.limiter.buckets key).getD []).Pairwise (· ≤ ·)
  bucket : ∀ key, ((s.limiter.buckets key).getD []).filter (fun launch => s.clock - windowMs < launch) =
    (s.launchesOf key).filter fun launch => s.clock - windowMs < launch
  bounded : ∀ key t, (s.within key windowMs t).length ≤ limit

theorem dropWhile_eq_filter {times : List ℤ} (hsorted : times.Pairwise (· ≤ ·)) (cutoff : ℤ) :
    times.dropWhile (fun t => t ≤ cutoff) = times.filter fun t => cutoff < t := by
  induction times with
  | nil => rfl
  | cons t times ih =>
    rw [pairwise_cons] at hsorted
    by_cases ht : t ≤ cutoff
    · rw [dropWhile_cons_of_pos (by simpa using ht), filter_cons_of_neg (by simpa using ht), ih hsorted.2]
    · rw [dropWhile_cons_of_neg (by simpa using ht)]
      refine (filter_eq_self.2 fun u hu => ?_).symm
      rcases mem_cons.1 hu with rfl | hu
      · simpa using ht
      · have hle := hsorted.1 u hu
        simp only [decide_eq_true_eq]
        omega

section

variable (h : Kept limit windowMs s)
include h

theorem prune_eq (key : String) (hnow : s.clock ≤ now) :
    (SpawnRateLimiter.prune (s.limiter.buckets key) (now - windowMs)).getD [] =
      (s.launchesOf key).filter fun launch => now - windowMs < launch := by
  have hlater : ∀ times : List ℤ, times.filter (fun launch => now - windowMs < launch) =
      (times.filter fun launch => s.clock - windowMs < launch).filter fun launch => now - windowMs < launch := by
    intro times
    rw [filter_filter]
    refine filter_congr fun launch _ => ?_
    rw [Bool.eq_iff_iff]
    simp only [Bool.and_eq_true, decide_eq_true_eq]
    omega
  have hfiltered : ∀ times : List ℤ, ((some times).filter fun times => times ≠ []).getD [] = times := by
    intro times
    cases times <;> rfl
  rw [hlater (s.launchesOf key), ← h.bucket key, ← hlater, ← dropWhile_eq_filter (h.ordered key)]
  cases s.limiter.buckets key with
  | none => rfl
  | some times => exact hfiltered _

theorem within_now (key : String) (hnow : s.clock ≤ now) :
    s.within key windowMs now = (s.launchesOf key).filter fun launch => now - windowMs < launch := by
  refine filter_congr fun launch hlaunch => ?_
  have hpast := h.past key launch hlaunch
  rw [Bool.eq_iff_iff]
  simp only [decide_eq_true_eq]
  omega

/-- A call is allowed when there are fewer launches within the window than the limit. -/
theorem allowed_iff (key : String) (hnow : s.clock ≤ now) :
    (s.limiter.tryAcquire limit windowMs key now).1.allowed = true ↔ (s.within key windowMs now).length < limit := by
  unfold SpawnRateLimiter.tryAcquire
  simp only [prune_eq h key hnow, ← within_now h key hnow]
  split <;> simp <;> omega

theorem buckets_tryAcquire (key : String) (hnow : s.clock ≤ now) (other : String) :
    ((s.limiter.tryAcquire limit windowMs key now).2.buckets other).getD [] =
      if other = key then
        ((s.launchesOf key).filter fun launch => now - windowMs < launch) ++
          (if (s.limiter.tryAcquire limit windowMs key now).1.allowed then [now] else [])
      else (s.limiter.buckets other).getD [] := by
  have hpruned := prune_eq h key hnow
  unfold SpawnRateLimiter.tryAcquire
  simp only
  split <;> by_cases hkey : other = key <;> simp [hkey, hpruned]

omit h in
theorem launchesOf_append (key : String) (now : ℤ) (launches : List (String × ℤ)) (clock' : ℤ) (limiter : SpawnRateLimiter) (other : String) :
    launchesOf ⟨limiter, clock', launches ++ [(key, now)]⟩ other =
      launchesOf ⟨limiter, clock', launches⟩ other ++ if other = key then [now] else [] := by
  unfold launchesOf
  by_cases hkey : other = key
  · simp [hkey]
  · simp [hkey, Ne.symm hkey]

theorem Kept.step (hstep : s.step limit windowMs call = some s') : Kept limit windowMs s' := by
  obtain ⟨key, now⟩ := call
  unfold SpawnRun.step at hstep
  split at hstep
  · rename_i hnow
    cases hstep
    have hbuckets := buckets_tryAcquire h key hnow
    have hallowed := allowed_iff h key hnow
    -- What is above the cutoff now was above it before.
    have hlater : ∀ times times' : List ℤ, times.filter (fun launch => s.clock - windowMs < launch) =
        times'.filter (fun launch => s.clock - windowMs < launch) →
        times.filter (fun launch => now - windowMs < launch) = times'.filter fun launch => now - windowMs < launch := by
      intro times times' heq
      have hboth := congrArg (filter fun launch => decide (now - windowMs < launch)) heq
      simp only [filter_filter] at hboth
      convert hboth using 2 <;> · funext launch
                                  rw [Bool.eq_iff_iff]
                                  simp only [Bool.and_eq_true, decide_eq_true_eq]
                                  omega
    cases hverdict : (s.limiter.tryAcquire limit windowMs key now).1.allowed with
    | false =>
      simp only [hverdict, Bool.false_eq_true, if_false, append_nil] at hbuckets ⊢
      refine ⟨h.sorted, fun other launch hlaunch => (h.past other launch hlaunch).trans hnow, fun other => ?_, fun other => ?_, h.bounded⟩
      · rw [hbuckets]
        split
        · exact (h.sorted key).filter _
        · exact h.ordered other
      · rw [hbuckets]
        split
        · rename_i hkey
          rw [filter_filter, hkey]
          simp only [Bool.and_self]
          rfl
        · exact hlater _ _ (h.bucket other)
    | true =>
      have hfree := hallowed.1 hverdict
      simp only [hverdict, if_true] at hbuckets ⊢
      have hlaunches := launchesOf_append key now s.launches now (s.limiter.tryAcquire limit windowMs key now).2
      have hafter : ∀ {times : List ℤ}, times.Pairwise (· ≤ ·) → (∀ launch ∈ times, launch ≤ s.clock) → (times ++ [now]).Pairwise (· ≤ ·) := by
        intro times hsorted hpast
        refine pairwise_append.2 ⟨hsorted, pairwise_singleton _ _, fun launch hlaunch new hnew => ?_⟩
        rw [mem_singleton.1 hnew]
        exact (hpast launch hlaunch).trans hnow
      refine ⟨fun other => ?_, fun other launch hlaunch => ?_, fun other => ?_, fun other => ?_, fun other t => ?_⟩
      · rw [hlaunches]
        split
        · exact hafter (h.sorted other) (h.past other)
        · rw [append_nil]
          exact h.sorted other
      · rw [hlaunches] at hlaunch
        rcases mem_append.1 hlaunch with hold | hnew
        · exact (h.past other launch hold).trans hnow
        · split at hnew
          · exact (mem_singleton.1 hnew).le
          · cases hnew
      · rw [hbuckets]
        split
        · exact hafter ((h.sorted key).filter _) fun launch hlaunch => h.past key launch (mem_of_mem_filter hlaunch)
        · exact h.ordered other
      · rw [hbuckets, hlaunches]
        split
        · rename_i hkey
          rw [hkey, filter_append, filter_append, filter_filter]
          simp only [Bool.and_self]
          rfl
        · rw [append_nil]
          exact hlater _ _ (h.bucket other)
      · unfold within
        rw [hlaunches]
        split
        · rename_i hkey
          subst hkey
          rw [filter_append, length_append]
          by_cases hin : t - windowMs < now ∧ now ≤ t
          · -- The launches that share a window with this one are in the window that ends with it.
            have hsub : ((s.launchesOf other).filter fun launch => t - windowMs < launch ∧ launch ≤ t).length ≤
                (s.within other windowMs now).length := by
              rw [within_now h other hnow]
              refine (monotone_filter_right _ fun launch hlaunch => ?_).length_le
              simp only [decide_eq_true_eq] at hlaunch ⊢
              omega
            have hone : ([now].filter fun launch => t - windowMs < launch ∧ launch ≤ t).length ≤ 1 := length_filter_le _ _
            exact (Nat.add_le_add hsub hone).trans hfree
          · have hnone : [now].filter (fun launch => t - windowMs < launch ∧ launch ≤ t) = [] := by simpa using hin
            rw [hnone]
            exact h.bounded other t
        · rw [append_nil]
          exact h.bounded other t
  · cases hstep

end

theorem Kept.start (limit : ℕ) (windowMs clock : ℤ) : Kept limit windowMs (start clock) :=
  ⟨fun _ => List.Pairwise.nil, fun _ _ hlaunch => (not_mem_nil hlaunch).elim, fun _ => List.Pairwise.nil, fun _ => rfl,
    fun _ _ => Nat.zero_le _⟩

theorem clock_le (hrun : exec (SpawnRun.step limit windowMs) s calls = some s') : s.clock ≤ s'.clock := by
  induction calls generalizing s with
  | nil =>
    cases hrun
    exact le_rfl
  | cons call calls ih =>
    obtain ⟨next, hstep, hrest⟩ := exec_cons_eq_some.1 hrun
    refine le_trans ?_ (ih hrest)
    unfold SpawnRun.step at hstep
    split at hstep
    · rename_i hcall
      cases hstep
      exact hcall
    · cases hstep

theorem launchesOf_others (hothers : ∀ call ∈ calls, call.1 ≠ key) (hrun : exec (SpawnRun.step limit windowMs) s calls = some s') :
    s'.launchesOf key = s.launchesOf key := by
  induction calls generalizing s with
  | nil =>
    cases hrun
    rfl
  | cons call calls ih =>
    obtain ⟨next, hstep, hrest⟩ := exec_cons_eq_some.1 hrun
    rw [ih (fun c hc => hothers c (mem_cons_of_mem _ hc)) hrest]
    unfold SpawnRun.step at hstep
    split at hstep
    · cases hstep
      have hne := hothers call mem_cons_self
      unfold launchesOf
      split
      · simp [hne]
      · rfl
    · cases hstep

/-- A sorted list loses an entry above a higher cutoff exactly when the cutoff reaches its head. -/
theorem length_filter_lt_iff {times : List ℤ} {oldest cutoff : ℤ} (hsorted : (oldest :: times).Pairwise (· ≤ ·)) :
    ((oldest :: times).filter fun t => cutoff < t).length < (oldest :: times).length ↔ oldest ≤ cutoff := by
  rw [length_filter_lt_length_iff_exists]
  constructor
  · rintro ⟨t, ht, hle⟩
    simp only [decide_eq_true_eq, not_lt] at hle
    rcases mem_cons.1 ht with rfl | ht
    · exact hle
    · exact ((pairwise_cons.1 hsorted).1 t ht).trans hle
  · intro hle
    exact ⟨oldest, mem_cons_self, by simpa using hle⟩

/-- The retry that a refusal names: the time at which the oldest launch leaves the window. -/
theorem retry_of_refused (h : Kept limit windowMs s) (hlimit : 1 ≤ limit) (hnow : s.clock ≤ now)
    (hrefused : (s.limiter.tryAcquire limit windowMs key now).1.allowed = false) :
    ∃ oldest times, s.within key windowMs now = oldest :: times ∧
      now + (s.limiter.tryAcquire limit windowMs key now).1.retryAfterMs = oldest + windowMs := by
  have hfull : limit ≤ (s.within key windowMs now).length := by
    rw [← not_lt, ← allowed_iff h key hnow, hrefused]
    exact Bool.false_ne_true
  cases hwithin : s.within key windowMs now with
  | nil =>
    rw [hwithin, length_nil] at hfull
    omega
  | cons oldest times =>
    refine ⟨oldest, times, rfl, ?_⟩
    have hin : oldest ∈ s.within key windowMs now := hwithin ▸ mem_cons_self
    have hyoung := of_decide_eq_true (mem_filter.1 hin).2
    unfold SpawnRateLimiter.tryAcquire
    simp only [prune_eq h key hnow, ← within_now h key hnow]
    rw [if_pos hfull, hwithin]
    simp only [headD_cons]
    omega

/-- The budget of a key is exact: no window holds more launches than the limit, a call is refused only when its window holds as
many, and a call at the time that a refusal names is allowed, as long as the key has no other, and none before it. -/
theorem spawn_limit_exact (limit : ℕ) (hlimit : 1 ≤ limit) (windowMs clock : ℤ) (calls : List (String × ℤ)) (s : SpawnRun)
    (hrun : exec (SpawnRun.step limit windowMs) (start clock) calls = some s) (key : String) :
    (∀ t, (s.within key windowMs t).length ≤ limit) ∧
      ∀ now, s.clock ≤ now → (s.limiter.tryAcquire limit windowMs key now).1.allowed = false →
        (s.within key windowMs now).length = limit ∧
          ∀ others s', (∀ call ∈ others, call.1 ≠ key) → exec (SpawnRun.step limit windowMs) s ((key, now) :: others) = some s' →
            ∀ t, s'.clock ≤ t → ((s'.limiter.tryAcquire limit windowMs key t).1.allowed = true ↔
              now + (s.limiter.tryAcquire limit windowMs key now).1.retryAfterMs ≤ t) := by
  have h : Kept limit windowMs s := exec_preserves (fun _ _ _ => Kept.step) (.start limit windowMs clock) hrun
  refine ⟨h.bounded key, fun now hnow hrefused => ?_⟩
  have hfull : (s.within key windowMs now).length = limit := by
    have hge := mt (allowed_iff h key hnow).2 (by rw [hrefused]; exact Bool.false_ne_true)
    exact le_antisymm (h.bounded key now) (not_lt.1 hge)
  refine ⟨hfull, fun others s' hothers hlater t ht => ?_⟩
  have h' : Kept limit windowMs s' := exec_preserves (fun _ _ _ => Kept.step) h hlater
  obtain ⟨next, hstep, hrest⟩ := exec_cons_eq_some.1 hlater
  have hnext : next.clock = now ∧ next.launchesOf key = s.launchesOf key := by
    unfold SpawnRun.step at hstep
    rw [if_pos hnow] at hstep
    cases hstep
    simp only [hrefused, Bool.false_eq_true, if_false, true_and]
    rfl
  have hclock : now ≤ t := by
    have hmono := clock_le hrest
    omega
  obtain ⟨oldest, times, hwithin, hretry⟩ := retry_of_refused h hlimit hnow hrefused
  have hsorted : (oldest :: times).Pairwise (· ≤ ·) := hwithin ▸ (h.sorted key).filter _
  have hshrunk : s'.within key windowMs t = (oldest :: times).filter fun launch => t - windowMs < launch := by
    rw [within_now h' key ht, launchesOf_others hothers hrest, hnext.2, ← hwithin, within_now h key hnow, filter_filter]
    refine filter_congr fun launch _ => ?_
    rw [Bool.eq_iff_iff]
    simp only [Bool.and_eq_true, decide_eq_true_eq]
    omega
  rw [allowed_iff h' key ht, hretry, hshrunk, ← hfull, hwithin, length_filter_lt_iff hsorted]
  omega

theorem spawn_limit_exact_two : ∃ s, exec (step 1 10) (start 0) [("api", 3)] = some s ∧
    ((s.limiter.tryAcquire 1 10 "api" 5).1.allowed = false ∧ (s.within "api" 10 5).length = 1) := by
  refine ⟨_, rfl, rfl, ?_⟩
  exact ((spawn_limit_exact 1 le_rfl 10 0 [("api", 3)] _ rfl "api").2 5 (by decide) rfl).1

end SpawnRun

inductive DiskDimension where
  | freeSpace
  | inodes
  deriving DecidableEq

namespace DataDirectoryDiskSample

variable (config : DiskAdmissionConfig) (sample : DataDirectoryDiskSample)

def underPressure : DiskDimension → Bool
  | .freeSpace => sample.freeSpacePressure config
  | .inodes => sample.inodePressure

/-- Every enabled check of the dimension has a reading, and none is under pressure. -/
def showsHealthy : DiskDimension → Bool
  | .freeSpace => sample.allEnabledReadingsKnown config && !sample.freeSpacePressure config
  | .inodes => sample.inodeCounts.isSome && !sample.inodePressure

def isPressured : Bool := sample.underPressure config .freeSpace || sample.underPressure config .inodes

end DataDirectoryDiskSample

/-- Pressure was seen that no later sample showed to be over. -/
def PressureOpen (config : DiskAdmissionConfig) (samples : List DataDirectoryDiskSample) (dimension : DiskDimension) : Prop :=
  ∃ before sample since, samples = before ++ sample :: since ∧ sample.underPressure config dimension = true ∧
    ∀ later ∈ since, later.showsHealthy config dimension = false

/-- A tracker with the samples that it observed, without repeats. -/
structure DiskGate where
  tracker : DataDirectoryDiskAdmissionTracker
  observed : List DataDirectoryDiskSample

namespace DiskGate

variable {config : DiskAdmissionConfig} {g : DiskGate} {sample : DataDirectoryDiskSample} {samples : List DataDirectoryDiskSample}
  {dimension : DiskDimension}

def start : DiskGate := ⟨.start, []⟩

def observe (config : DiskAdmissionConfig) (g : DiskGate) (sample : DataDirectoryDiskSample) : DiskGate :=
  ⟨g.tracker.observe sample config, if g.tracker.isRepeat sample then g.observed else g.observed ++ [sample]⟩

theorem pressureOpen_concat : PressureOpen config (samples ++ [sample]) dimension ↔
    sample.underPressure config dimension = true ∨ PressureOpen config samples dimension ∧ sample.showsHealthy config dimension = false := by
  constructor
  · rintro ⟨before, first, since, heq, hpressure, hsince⟩
    rcases eq_nil_or_concat since with rfl | ⟨since', last, rfl⟩
    · obtain ⟨-, hlast⟩ := append_inj' heq rfl
      cases hlast
      exact .inl hpressure
    · rw [concat_eq_append, ← cons_append, ← append_assoc] at heq
      obtain ⟨rfl, hlast⟩ := append_inj' heq rfl
      cases hlast
      rw [concat_eq_append] at hsince
      exact .inr ⟨⟨before, first, since', rfl, hpressure, fun later hlater => hsince later (mem_append_left _ hlater)⟩,
        hsince sample (mem_append_right _ mem_cons_self)⟩
  · rintro (hpressure | ⟨⟨before, first, since, rfl, hpressure, hsince⟩, hhealthy⟩)
    · exact ⟨samples, sample, [], rfl, hpressure, fun _ hlater => (not_mem_nil hlater).elim⟩
    · refine ⟨before, first, since ++ [sample], by simp, hpressure, fun later hlater => ?_⟩
      rcases mem_concat_cases hlater with hlater | rfl
      · exact hsince later hlater
      · exact hhealthy

/-- The count is not ahead of the samples under pressure since any recovery. -/
def Counted (config : DiskAdmissionConfig) (samples : List DataDirectoryDiskSample) (consecutive : ℕ) : Prop :=
  ∀ before since, samples = before ++ since → (∀ dimension, ¬ PressureOpen config before dimension) →
    consecutive ≤ (since.filter fun sample => sample.isPressured config).length

theorem Counted.grow {consecutive : ℕ} (h : Counted config samples consecutive) (hpressured : sample.isPressured config = true) :
    Counted config (samples ++ [sample]) (consecutive + 1) := by
  intro before since heq hclosed
  rcases eq_nil_or_concat since with rfl | ⟨since', last, rfl⟩
  · rw [append_nil] at heq
    subst heq
    rcases Bool.or_eq_true_iff.1 hpressured with hpressure | hpressure
    · exact absurd (pressureOpen_concat.2 (.inl hpressure)) (hclosed .freeSpace)
    · exact absurd (pressureOpen_concat.2 (.inl hpressure)) (hclosed .inodes)
  · rw [concat_eq_append, ← append_assoc] at heq
    obtain ⟨rfl, hlast⟩ := append_inj' heq rfl
    cases hlast
    rw [concat_eq_append, filter_append, filter_cons_of_pos hpressured, length_append]
    exact Nat.add_le_add_right (h before since' rfl hclosed) 1

theorem Counted.keep {consecutive : ℕ} (h : Counted config samples consecutive)
    (hrecovered : (∀ dimension, ¬ PressureOpen config (samples ++ [sample]) dimension) → consecutive = 0) :
    Counted config (samples ++ [sample]) consecutive := by
  intro before since heq hclosed
  rcases eq_nil_or_concat since with rfl | ⟨since', last, rfl⟩
  · rw [append_nil] at heq
    rw [hrecovered (heq ▸ hclosed)]
    exact Nat.zero_le _
  · rw [concat_eq_append, ← append_assoc] at heq
    obtain ⟨rfl, -⟩ := append_inj' heq rfl
    rw [concat_eq_append, filter_append, length_append]
    exact (h before since' rfl hclosed).trans (Nat.le_add_right _ _)

/-- The flags say which pressure is open, and a gate that is shut has some. -/
structure Tracks (config : DiskAdmissionConfig) (g : DiskGate) : Prop where
  configured : ∀ key ∈ g.tracker.configKey,
    key = (config.freePercentThreshold, config.freeBytesThreshold, sustainSamples config)
  freeSpace : g.tracker.freeSpaceRecoveryPending = true ↔ PressureOpen config g.observed .freeSpace
  inodes : g.tracker.inodeRecoveryPending = true ↔ PressureOpen config g.observed .inodes
  counted : Counted config g.observed g.tracker.consecutive
  shut : g.tracker.critical = true → ∃ dimension, PressureOpen config g.observed dimension

theorem Tracks.start : Tracks config start := by
  have hnever : ∀ dimension, ¬ PressureOpen config [] dimension := by
    rintro dimension ⟨before, sample, since, heq, -⟩
    simp at heq
  exact ⟨nofun, iff_of_false Bool.false_ne_true (hnever _), iff_of_false Bool.false_ne_true (hnever _), fun _ _ _ _ => Nat.zero_le _,
    nofun⟩

theorem configured_eq (h : Tracks config g) (sample : DataDirectoryDiskSample) :
    g.tracker.configured sample config = { g.tracker with
      configKey := some (config.freePercentThreshold, config.freeBytesThreshold, sustainSamples config)
      lastSampledAt := sample.sampledAt.or g.tracker.lastSampledAt } := by
  unfold configured
  have hsame : (g.tracker.configKey.all fun key => key =
      (config.freePercentThreshold, config.freeBytesThreshold, sustainSamples config)) = true := by
    rw [Option.all_eq_true]
    exact fun key hkey => decide_eq_true (h.configured key hkey)
  simp only [hsame, if_true]

theorem freeSpacePressure_reading (h : sample.freeSpacePressure config = true) : sample.hasAnyEnabledReading config = true := by
  unfold freeSpacePressure isDataDirectoryFreeCritical at h
  unfold hasAnyEnabledReading
  cases hpercent : sample.diskFreePercent <;> cases hbytes : sample.diskFreeBytes <;> simp [hpercent, hbytes] at h ⊢ <;> tauto

theorem open_without_reading (samples : List DataDirectoryDiskSample) (hnone : sample.hasAnyEnabledReading config = false) (dimension : DiskDimension) :
    PressureOpen config (samples ++ [sample]) dimension ↔ PressureOpen config samples dimension := by
  have hcounts : sample.inodeCounts = none := by
    unfold hasAnyEnabledReading at hnone
    simp only [Bool.or_eq_false_iff, Option.isSome_eq_false_iff, Option.isNone_iff_eq_none] at hnone
    exact hnone.2
  have hfree : sample.freeSpacePressure config = false := by
    rw [Bool.eq_false_iff]
    intro hpressure
    rw [freeSpacePressure_reading hpressure] at hnone
    cases hnone
  rw [pressureOpen_concat]
  cases dimension with
  | inodes =>
    unfold underPressure showsHealthy inodePressure
    simp [hcounts]
  | freeSpace =>
    unfold underPressure showsHealthy
    simp only [hfree, Bool.false_eq_true, false_or, Bool.not_false, Bool.and_true, and_iff_left_iff_imp]
    rintro ⟨before, first, since, rfl, hpressure, -⟩
    -- A check is enabled, as it once saw pressure, and it has no reading now.
    by_contra hknown
    rw [Bool.not_eq_false] at hknown
    unfold underPressure freeSpacePressure isDataDirectoryFreeCritical at hpressure
    unfold allEnabledReadingsKnown at hknown
    unfold hasAnyEnabledReading at hnone
    simp only [Bool.or_eq_true, Bool.and_eq_true, decide_eq_true_eq, Bool.or_eq_false_iff, Bool.and_eq_false_iff, decide_eq_false_iff_not,
      not_lt] at hpressure hknown hnone
    rcases hpressure with ⟨hpos, -⟩ | ⟨hpos, -⟩
    · rcases hknown.1 with hle | hsome
      · exact absurd hpos (not_lt.2 hle)
      · rcases hnone.1.1 with hle | hread
        · exact absurd hpos (not_lt.2 hle)
        · rw [hread] at hsome
          cases hsome
    · rcases hknown.2 with hle | hsome
      · exact absurd hpos (not_lt.2 hle)
      · rcases hnone.1.2 with hle | hread
        · exact absurd hpos (not_lt.2 hle)
        · rw [hread] at hsome
          cases hsome

theorem remember_flags (h : Tracks config g) (sample : DataDirectoryDiskSample) (tracker : DataDirectoryDiskAdmissionTracker)
    (hfree : tracker.freeSpaceRecoveryPending = g.tracker.freeSpaceRecoveryPending)
    (hinodes : tracker.inodeRecoveryPending = g.tracker.inodeRecoveryPending) :
    ((tracker.remember sample config).freeSpaceRecoveryPending = true ↔ PressureOpen config (g.observed ++ [sample]) .freeSpace) ∧
      ((tracker.remember sample config).inodeRecoveryPending = true ↔ PressureOpen config (g.observed ++ [sample]) .inodes) := by
  rw [pressureOpen_concat, pressureOpen_concat, ← h.freeSpace, ← h.inodes, ← hfree, ← hinodes]
  unfold remember underPressure showsHealthy
  constructor
  · cases sample.freeSpacePressure config <;> cases sample.allEnabledReadingsKnown config <;> simp
  · cases sample.inodePressure <;> cases sample.inodeCounts <;> simp

theorem evaluatePressure_isSome (config : DiskAdmissionConfig) (sample : DataDirectoryDiskSample) :
    (sample.evaluatePressure config).isSome = sample.isPressured config := by
  unfold evaluatePressure isPressured underPressure
  cases sample.inodePressure <;> cases sample.freeSpacePressure config <;> rfl

/-- What one sample does to the gate. -/
structure Observed (config : DiskAdmissionConfig) (g g' : DiskGate) (sample : DataDirectoryDiskSample) : Prop where
  tracks : Tracks config g'
  shuts : g.tracker.critical = false → g'.tracker.critical = true → sample.isPressured config = true ∧
    sustainSamples config ≤ g'.tracker.consecutive
  stays : g.tracker.critical = true → (∃ dimension, PressureOpen config g'.observed dimension) → g'.tracker.critical = true

theorem Tracks.observe (h : Tracks config g) (sample : DataDirectoryDiskSample) : Observed config g (g.observe config sample) sample := by
  unfold DiskGate.observe DataDirectoryDiskAdmissionTracker.observe
  cases g.tracker.isRepeat sample with
  | true => exact ⟨h, fun hopen hshut => absurd (hopen.symm.trans hshut) Bool.false_ne_true, fun hshut _ => hshut⟩
  | false =>
    simp only [Bool.false_eq_true, if_false, configured_eq h]
    cases hreading : sample.hasAnyEnabledReading config with
    | false =>
      have hsame := open_without_reading g.observed hreading
      refine ⟨⟨fun key hkey => (Option.some.inj hkey).symm, h.freeSpace.trans (hsame _).symm, h.inodes.trans (hsame _).symm,
        h.counted.keep fun hclosed => ?_, fun hshut => ?_⟩, fun hopen hshut => absurd (hopen.symm.trans hshut) Bool.false_ne_true,
        fun hshut _ => hshut⟩
      · exact Nat.le_zero.1 (h.counted g.observed [] (append_nil _).symm fun dimension => mt (hsame dimension).2 (hclosed dimension))
      · obtain ⟨dimension, hdimension⟩ := h.shut hshut
        exact ⟨dimension, (hsame dimension).2 hdimension⟩
    | true =>
      have hflags := remember_flags h sample { g.tracker with
        configKey := some (config.freePercentThreshold, config.freeBytesThreshold, DataDirectoryDiskAdmissionTracker.sustainSamples config)
        lastSampledAt := sample.sampledAt.or g.tracker.lastSampledAt } rfl rfl
      have hpressured := evaluatePressure_isSome config sample
      simp only [Bool.not_true, Bool.false_eq_true, if_false]
      cases hcause : sample.evaluatePressure config with
      | some cause =>
        rw [hcause] at hpressured
        have hopen : ∃ dimension, PressureOpen config (g.observed ++ [sample]) dimension := by
          rcases Bool.or_eq_true_iff.1 hpressured.symm with hpressure | hpressure
          · exact ⟨.freeSpace, pressureOpen_concat.2 (.inl hpressure)⟩
          · exact ⟨.inodes, pressureOpen_concat.2 (.inl hpressure)⟩
        refine ⟨⟨fun key hkey => (Option.some.inj hkey).symm, hflags.1, hflags.2, h.counted.grow hpressured.symm, fun _ => hopen⟩,
          fun hfalse hshut => ⟨hpressured.symm, ?_⟩, fun hshut _ => ?_⟩
        · simpa [DataDirectoryDiskAdmissionTracker.remember, hfalse] using hshut
        · simp [DataDirectoryDiskAdmissionTracker.remember, hshut]
      | none =>
        simp only
        split
        · rename_i hpending
          have hopen : ∃ dimension, PressureOpen config (g.observed ++ [sample]) dimension := by
            rcases Bool.or_eq_true_iff.1 hpending with hpending | hpending
            · exact ⟨.freeSpace, hflags.1.1 hpending⟩
            · exact ⟨.inodes, hflags.2.1 hpending⟩
          obtain ⟨dimension, hdimension⟩ := hopen
          exact ⟨⟨fun key hkey => (Option.some.inj hkey).symm, hflags.1, hflags.2,
            h.counted.keep fun hclosed => absurd hdimension (hclosed dimension), fun _ => ⟨dimension, hdimension⟩⟩,
            fun hfalse hshut => absurd hshut (by simp [DataDirectoryDiskAdmissionTracker.remember, hfalse]),
            fun hshut _ => hshut⟩
        · rename_i hrecovered
          rw [Bool.or_eq_true, not_or] at hrecovered
          refine ⟨⟨fun key hkey => (Option.some.inj hkey).symm, hflags.1, hflags.2, fun _ _ _ _ => Nat.zero_le _, nofun⟩, nofun, ?_⟩
          rintro - ⟨dimension, hdimension⟩
          cases dimension with
          | freeSpace => exact absurd (hflags.1.2 hdimension) hrecovered.1
          | inodes => exact absurd (hflags.2.2 hdimension) hrecovered.2

/-- In every run the gate shuts only at a sample under pressure with enough of them since any recovery, and once it is shut it
stays so exactly while some pressure that was seen has not been shown to be over. -/
theorem disk_gate_hysteresis (config : DiskAdmissionConfig) (samples : List DataDirectoryDiskSample) (sample : DataDirectoryDiskSample) :
    let g := samples.foldl (DiskGate.observe config) DiskGate.start
    let g' := g.observe config sample
    (g.tracker.critical = false → g'.tracker.critical = true → sample.isPressured config = true ∧
      ∀ before since, g'.observed = before ++ since → (∀ dimension, ¬ PressureOpen config before dimension) →
        sustainSamples config ≤ (since.filter fun sample => sample.isPressured config).length) ∧
      (g.tracker.critical = true →
        (g'.tracker.critical = true ↔ ∃ dimension, PressureOpen config g'.observed dimension)) := by
  intro g g'
  have h : Tracks config g := by
    suffices hfold : ∀ (samples : List DataDirectoryDiskSample) (g : DiskGate), Tracks config g →
        Tracks config (samples.foldl (DiskGate.observe config) g) from hfold samples .start .start
    intro samples
    induction samples with
    | nil => exact fun _ h => h
    | cons first samples ih => exact fun g h => ih _ (h.observe first).tracks
  have hstep := h.observe sample
  refine ⟨fun hopen hshut => ?_, fun hshut => ⟨hstep.tracks.shut, hstep.stays hshut⟩⟩
  obtain ⟨hpressured, hsustained⟩ := hstep.shuts hopen hshut
  refine ⟨hpressured, fun before since heq hclosed => hsustained.trans ?_⟩
  exact_mod_cast hstep.tracks.counted before since heq hclosed

end DiskGate

end Kookr.Server
