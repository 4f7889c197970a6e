import Kookr.Spec.Core.IssueClaimRegistry
import Kookr.Lib.TokenBudget
import Mathlib.Data.List.Sort
import Mathlib.Data.Rat.Floor

/-! The scheduler that launches paused issues again when their provider resets
(`src/server/provider-reset-scheduler.ts`). What a launch replays is a value of any type. A launch is started by the
sweep that dispatches it; it has failed when the project of its stamp is not found, when the kill switch refuses it or
when the launch itself is rejected, and which of these, and when, is open. So is what the lease and `shouldResume`
answer. The clock is read in milliseconds. -/

namespace Kookr.Server

open Kookr.Core Kookr.Lib

structure TokenBucket where
  capacity : ℕ
  tokens : ℕ
  lastRefillAt : ℚ
  refillIntervalMs : ℚ

namespace TokenBucket

def create (capacity : ℕ) (refillWindowMs startAt : ℚ) : TokenBucket :=
  ⟨capacity, capacity, startAt, refillWindowMs / (max 1 capacity : ℕ)⟩

def refill (b : TokenBucket) (now : ℚ) : TokenBucket :=
  let elapsed := now - b.lastRefillAt
  if elapsed ≤ 0 then b
  else
    let gained := ⌊elapsed / b.refillIntervalMs⌋₊
    if 0 < gained then
      { b with tokens := min b.capacity (b.tokens + gained), lastRefillAt := b.lastRefillAt + gained * b.refillIntervalMs }
    else b

def take (b : TokenBucket) (now : ℚ) : Bool × TokenBucket :=
  let b := b.refill now
  if b.tokens = 0 then (false, b) else (true, { b with tokens := b.tokens - 1 })

end TokenBucket

structure ProviderResetOptions where
  ratePerWindow : ℕ := 3
  refillWindowMs : ℚ := 60000
  maxJitterMs : ℚ := 5 * 60000
  refillWindowMs_pos : 0 < refillWindowMs

/-- The capacity of the bucket. -/
def ProviderResetOptions.rate (o : ProviderResetOptions) : ℕ := max 1 o.ratePerWindow

structure ProviderResetEntry (ρ : Type) where
  key : ClaimKey
  recordedTaskId : Option String
  resetsAt : ℚ
  relaunch : ρ

structure Tracked (ρ : Type) where
  key : ClaimKey
  recordedTaskId : Option String
  resetsAt : ℚ
  jitterMs : ℚ
  resumeAt : ℚ
  relaunch : ρ

/-- What the arbiter says of an issue. -/
inductive ResumeAdmission where
  | admits
  /-- With the holder of the lease. -/
  | held (holderId : Option String)
  | backoff

inductive DispatchAnswer where
  | pending
  /-- The failure is handled before the sweep goes on, at this reading of the clock. -/
  | throws (now : ℚ)

/-- What a sweep is told of a due entry. -/
structure DueAnswer where
  shouldResume : Bool
  admission : ResumeAdmission
  dispatch : DispatchAnswer

structure ResumeLaunch (ρ : Type) where
  number : ℕ
  tracked : Tracked ρ

structure ProviderResetSweepSummary where
  resumed : ℕ := 0
  deduped : ℕ := 0
  deferred : ℕ := 0
  rateLimited : ℕ := 0
  dropped : ℕ := 0

/-- What has happened, for the statements about a run. -/
inductive ResetLog where
  | recorded (key : ClaimKey)
  | forgotten (key : ClaimKey)
  | deduped (key : ClaimKey)
  | dropped (key : ClaimKey)
  | started (key : ClaimKey) (now : ℚ)
  | succeeded (key : ClaimKey)
  | failed (key : ClaimKey)
  deriving DecidableEq

structure ProviderResetScheduler (ρ : Type) where
  tracked : OrderedMap String (Tracked ρ)
  bucket : TokenBucket
  launches : List (ResumeLaunch ρ)
  launched : ℕ
  clock : ℚ
  log : List ResetLog

inductive ResetEvent (ρ : Type) where
  /-- With the random number that the jitter is rolled from. -/
  | record (entry : ProviderResetEntry ρ) (random : ℚ)
  | forget (key : ClaimKey)
  | sweep (now : ℚ) (answers : ClaimKey → DueAnswer)
  | succeeded (launch : ℕ)
  | failed (launch : ℕ) (now : ℚ)

namespace ProviderResetScheduler

variable {ρ : Type} (o : ProviderResetOptions) (s : ProviderResetScheduler ρ)

def create (startAt : ℚ) : ProviderResetScheduler ρ :=
  ⟨.empty, .create o.rate o.refillWindowMs startAt, [], 0, startAt, []⟩

def has (key : ClaimKey) : Bool := s.tracked.has (claimKeyString key)

/-- The time to resume at is the one of the first record. -/
def record (entry : ProviderResetEntry ρ) (random : ℚ) : ProviderResetScheduler ρ :=
  let k := claimKeyString entry.key
  match s.tracked.get k with
  | some existing => { s with
      tracked := s.tracked.set k { existing with relaunch := entry.relaunch, recordedTaskId := entry.recordedTaskId }
      log := s.log ++ [.recorded entry.key] }
  | none =>
    let jitterMs : ℚ := if 0 < max 0 o.maxJitterMs then ⌊random * max 0 o.maxJitterMs⌋ else 0
    { s with
      tracked := s.tracked.set k ⟨entry.key, entry.recordedTaskId, entry.resetsAt, jitterMs, entry.resetsAt + jitterMs, entry.relaunch⟩
      log := s.log ++ [.recorded entry.key] }

def forget (key : ClaimKey) : ProviderResetScheduler ρ :=
  { s with tracked := s.tracked.delete (claimKeyString key), log := s.log ++ [.forgotten key] }

/-- `onFailure`: back in the queue one window out, unless the issue was recorded meanwhile. -/
def requeue (t : Tracked ρ) (now : ℚ) : ProviderResetScheduler ρ :=
  { s with
    tracked := if s.has t.key then s.tracked else s.tracked.set (claimKeyString t.key) { t with resumeAt := now + o.refillWindowMs }
    log := s.log ++ [.failed t.key] }

def dispatch (t : Tracked ρ) : DispatchAnswer → ProviderResetScheduler ρ
  | .pending => { s with launches := s.launches ++ [⟨s.launched, t⟩], launched := s.launched + 1 }
  | .throws now => s.requeue o t now

/-- One turn of the loop of a sweep. -/
def sweepEntry (now : ℚ) (answers : ClaimKey → DueAnswer) (acc : ProviderResetScheduler ρ × ProviderResetSweepSummary) (t : Tracked ρ) :
    ProviderResetScheduler ρ × ProviderResetSweepSummary :=
  let (s, summary) := acc
  let k := claimKeyString t.key
  let answer := answers t.key
  if !answer.shouldResume then
    ({ s with tracked := s.tracked.delete k, log := s.log ++ [.dropped t.key] }, { summary with dropped := summary.dropped + 1 })
  else
    match answer.admission with
    | .held holderId =>
      if holderId ≠ none && holderId = t.recordedTaskId then (s, { summary with deferred := summary.deferred + 1 })
      else ({ s with tracked := s.tracked.delete k, log := s.log ++ [.deduped t.key] }, { summary with deduped := summary.deduped + 1 })
    | .backoff => (s, { summary with deferred := summary.deferred + 1 })
    | .admits =>
      let (taken, bucket) := s.bucket.take now
      if !taken then ({ s with bucket }, { summary with rateLimited := summary.rateLimited + 1 })
      else
        let s : ProviderResetScheduler ρ := { s with bucket, tracked := s.tracked.delete k, log := s.log ++ [.started t.key now] }
        (s.dispatch o t answer.dispatch, { summary with resumed := summary.resumed + 1 })

/-- Earliest first. -/
def due (now : ℚ) : List (Tracked ρ) :=
  (s.tracked.values.filter fun t => t.resumeAt ≤ now).insertionSort fun a b => a.resumeAt ≤ b.resumeAt

def sweep (now : ℚ) (answers : ClaimKey → DueAnswer) : ProviderResetScheduler ρ × ProviderResetSweepSummary :=
  (s.due now).foldl (sweepEntry o now answers) (s, {})

def launch (number : ℕ) : Option (ResumeLaunch ρ) := s.launches.find? fun l => l.number = number

def settle (number : ℕ) : ProviderResetScheduler ρ := { s with launches := s.launches.eraseP fun l => l.number = number }

/-- Nothing when the clock would go back, and when the launch that settles is not there. -/
def step : ProviderResetScheduler ρ → ResetEvent ρ → Option (ProviderResetScheduler ρ)
  | s, .record entry random => some (s.record o entry random)
  | s, .forget key => some (s.forget key)
  | s, .sweep now answers => if now < s.clock then none else some (sweep o { s with clock := now } now answers).1
  | s, .succeeded number => (s.launch number).map fun l => { s.settle number with log := s.log ++ [.succeeded l.tracked.key] }
  | s, .failed number now =>
    if now < s.clock then none else (s.launch number).map fun l => requeue o { s.settle number with clock := now } l.tracked now

end ProviderResetScheduler

end Kookr.Server

/-! What one turn of a sweep does with a due entry, and what the bucket of the provider resets lets through. -/

namespace Kookr.Server

open Kookr.Core Kookr.Lib

namespace TokenBucket

/-- The bucket has let these takes through, the last refill of it being no later than the clock. -/
structure Sound (b : TokenBucket) (takes : List ℚ) (clock : ℚ) : Prop where
  interval_pos : 0 < b.refillIntervalMs
  rationed : Rationed b.capacity b.refillIntervalMs b.tokens b.lastRefillAt takes
  last_le : b.lastRefillAt ≤ clock

variable {b b' : TokenBucket} {takes : List ℚ} {clock now : ℚ} {taken : Bool}

theorem sound_create (capacity : ℕ) {refillWindowMs : ℚ} (hpos : 0 < refillWindowMs) (startAt : ℚ) :
    (create capacity refillWindowMs startAt).Sound [] startAt where
  interval_pos := div_pos hpos (by exact_mod_cast Nat.lt_of_lt_of_le Nat.one_pos (le_max_left 1 capacity))
  rationed := rationed_full _ _ _
  last_le := le_rfl

theorem Sound.tick (h : b.Sound takes clock) (hclock : clock ≤ now) : b.Sound takes now :=
  ⟨h.interval_pos, h.rationed, h.last_le.trans hclock⟩

@[simp] theorem refill_capacity : (b.refill now).capacity = b.capacity := by
  simp only [refill]
  split_ifs <;> rfl

@[simp] theorem refill_refillIntervalMs : (b.refill now).refillIntervalMs = b.refillIntervalMs := by
  simp only [refill]
  split_ifs <;> rfl

theorem Sound.refill (h : b.Sound takes now) :
    (b.refill now).Sound takes now ∧ now < (b.refill now).lastRefillAt + b.refillIntervalMs := by
  have hpos := h.interval_pos
  simp only [TokenBucket.refill]
  split_ifs with helapsed hgained
  · exact ⟨h, by linarith⟩
  · rw [not_le] at helapsed
    have hfloor := Nat.floor_le (div_nonneg helapsed.le hpos.le)
    have hlt := Nat.lt_floor_add_one ((now - b.lastRefillAt) / b.refillIntervalMs)
    rw [le_div_iff₀ hpos] at hfloor
    rw [div_lt_iff₀ hpos] at hlt
    exact ⟨⟨hpos, h.rationed.refill _, by linarith⟩, by linarith⟩
  · rw [not_lt, Nat.le_zero, Nat.floor_eq_zero, div_lt_one hpos] at hgained
    exact ⟨h, by linarith⟩

theorem take_capacity (htake : b.take now = (taken, b')) :
    b'.capacity = b.capacity ∧ b'.refillIntervalMs = b.refillIntervalMs := by
  simp only [take] at htake
  split_ifs at htake <;>
  · obtain ⟨-, rfl⟩ := Prod.mk.inj htake
    simp

theorem Sound.take (h : b.Sound takes now) (htake : b.take now = (taken, b')) : b'.Sound (if taken then takes ++ [now] else takes) now := by
  obtain ⟨hrefilled, hdue⟩ := h.refill
  simp only [TokenBucket.take] at htake
  split_ifs at htake with hzero
  · obtain ⟨rfl, rfl⟩ := Prod.mk.inj htake
    exact hrefilled
  · obtain ⟨rfl, rfl⟩ := Prod.mk.inj htake
    obtain ⟨tokens, htokens⟩ := Nat.exists_eq_succ_of_ne_zero hzero
    have hrationed := hrefilled.rationed
    rw [htokens] at hrationed
    refine ⟨hrefilled.interval_pos, ?_, hrefilled.last_le⟩
    rw [htokens]
    exact hrationed.take hrefilled.interval_pos hrefilled.last_le (by rwa [refill_refillIntervalMs])

end TokenBucket

namespace ProviderResetScheduler

variable {ρ : Type} {o : ProviderResetOptions} {s s' : ProviderResetScheduler ρ} {t : Tracked ρ} {now : ℚ}

/-- What a turn of a sweep can do with an entry. -/
inductive SweepTurn (o : ProviderResetOptions) (s : ProviderResetScheduler ρ) (now : ℚ) (t : Tracked ρ) : ProviderResetScheduler ρ → Prop
  | leaves (entry : ResetLog) (hentry : entry = .dropped t.key ∨ entry = .deduped t.key) :
      SweepTurn o s now t { s with tracked := s.tracked.delete (claimKeyString t.key), log := s.log ++ [entry] }
  | stays : SweepTurn o s now t s
  | limited (bucket : TokenBucket) (htake : s.bucket.take now = (false, bucket)) : SweepTurn o s now t { s with bucket }
  | starts (bucket : TokenBucket) (htake : s.bucket.take now = (true, bucket)) :
      SweepTurn o s now t { s with
        bucket, tracked := s.tracked.delete (claimKeyString t.key), launches := s.launches ++ [⟨s.launched, t⟩],
        launched := s.launched + 1, log := s.log ++ [.started t.key now] }
  | throws (bucket : TokenBucket) (htake : s.bucket.take now = (true, bucket)) (failedAt : ℚ) :
      SweepTurn o s now t { s with
        bucket, tracked := (s.tracked.delete (claimKeyString t.key)).set (claimKeyString t.key) { t with resumeAt := failedAt + o.refillWindowMs },
        log := s.log ++ [.started t.key now] ++ [.failed t.key] }

theorem sweepEntry_cases (answers : ClaimKey → DueAnswer) (summary : ProviderResetSweepSummary) :
    SweepTurn o s now t (sweepEntry o now answers (s, summary) t).1 := by
  simp only [sweepEntry]
  cases (answers t.key).shouldResume with
  | false => exact .leaves _ (.inl rfl)
  | true =>
    cases (answers t.key).admission with
    | held holderId =>
      simp only [Bool.not_true, Bool.false_eq_true, if_false]
      split_ifs
      · exact .stays
      · exact .leaves _ (.inr rfl)
    | backoff => exact .stays
    | admits =>
      rcases htake : s.bucket.take now with ⟨taken, bucket⟩
      cases taken with
      | false => exact .limited bucket htake
      | true =>
        cases (answers t.key).dispatch with
        | pending => exact .starts bucket htake
        | throws failedAt =>
          have hgone : (s.tracked.delete (claimKeyString t.key)).has (claimKeyString t.key) = false := by
            rw [OrderedMap.has, OrderedMap.get_delete, if_pos rfl]
            rfl
          simp only [Bool.not_true, Bool.false_eq_true, if_false, dispatch, requeue, ProviderResetScheduler.has, hgone]
          exact .throws bucket htake failedAt

/-- The sweep, turn by turn: what holds of the entries still to come is kept by the turns of the others. -/
theorem sweep_induction (Keeps : ProviderResetScheduler ρ → Prop) (Waits : ProviderResetScheduler ρ → Tracked ρ → Prop)
    (hturn : ∀ s s' t, Keeps s → Waits s t → SweepTurn o s now t s' → Keeps s' ∧ ∀ other, Waits s other → Waits s' other)
    (answers : ClaimKey → DueAnswer) (hs : Keeps s) (hdue : ∀ t ∈ s.due now, Waits s t) : Keeps (s.sweep o now answers).1 := by
  have hfold : ∀ (due : List (Tracked ρ)) (s : ProviderResetScheduler ρ) (summary : ProviderResetSweepSummary), Keeps s →
      (∀ t ∈ due, Waits s t) → Keeps (due.foldl (sweepEntry o now answers) (s, summary)).1 := by
    intro due
    induction due with
    | nil => exact fun s summary hs _ => hs
    | cons t due ih =>
      intro s summary hs hdue
      obtain ⟨hs', hothers⟩ := hturn s _ t hs (hdue t List.mem_cons_self) (sweepEntry_cases answers summary)
      exact ih _ _ hs' fun other hother => hothers other (hdue other (List.mem_cons_of_mem _ hother))
  exact hfold _ s _ hs hdue

theorem mem_due (h : t ∈ s.due now) : ∃ k, s.tracked.get k = some t := by
  rw [due, List.mem_insertionSort, List.mem_filter] at h
  exact (OrderedMap.mem_values_iff _ _).1 h.1

end ProviderResetScheduler

end Kookr.Server
