import Kookr.Lib.Exec
import Kookr.Lib.History
import Kookr.Lib.ListAt
import Kookr.Sanity.Core.ClaimAgreement
import Kookr.Spec.Server.ProviderResetScheduler

/-! A paused issue is not lost until its work is covered or it is given up, it is not launched once it is forgotten,
and the launches keep to the rate. -/

namespace Kookr.Server

open Kookr.Core Kookr.Lib ProviderResetScheduler List Option OrderedMap

namespace ResetLog

def key : ResetLog → ClaimKey
  | .recorded key | .forgotten key | .deduped key | .dropped key | .started key _ | .succeeded key | .failed key => key

/-- Whether the issue is covered or given up from here on. -/
def covers : ResetLog → Option Bool
  | .recorded _ => some false
  | .forgotten _ | .deduped _ | .dropped _ | .succeeded _ => some true
  | .started _ _ | .failed _ => none

/-- Whether the issue is asked for from here on. -/
def asks : ResetLog → Option Bool
  | .recorded _ => some true
  | .forgotten _ => some false
  | _ => none

def startTime : ResetLog → Option ℚ
  | .started _ now => some now
  | _ => none

end ResetLog

/-- The last word of the log on an issue. -/
def lastWord (word : ResetLog → Option Bool) (log : List ResetLog) (key : ClaimKey) : Option Bool :=
  lastOf (fun entry => if entry.key = key then word entry else none) log

/-- Since it was recorded last, the issue was launched with success, found at another holder, dropped or forgotten. -/
def Covered (log : List ResetLog) (key : ClaimKey) : Prop := lastWord ResetLog.covers log key = some true

/-- It was forgotten, and not recorded again. -/
def Forgotten (log : List ResetLog) (key : ClaimKey) : Prop := lastWord ResetLog.asks log key = some false

instance (log : List ResetLog) (key : ClaimKey) : Decidable (Forgotten log key) := inferInstanceAs (Decidable (_ = _))

/-- An issue that is started is not a forgotten one. -/
def Heeds (before : List ResetLog) : ResetLog → Prop
  | .started key _ => ¬ Forgotten before key
  | _ => True

def startTimes (log : List ResetLog) : List ℚ := log.filterMap ResetLog.startTime

variable {log : List ResetLog} {entry : ResetLog} {key : ClaimKey} {word : ResetLog → Option Bool}

theorem lastWord_concat : lastWord word (log ++ [entry]) key = (if entry.key = key then word entry else none).or (lastWord word log key) :=
  lastOf_concat _ log entry

theorem lastWord_silent (h : word entry = none) : lastWord word (log ++ [entry]) key = lastWord word log key := by
  rw [lastWord_concat, h, ite_self, none_or]

theorem lastWord_self {b : Bool} (h : word entry = some b) : lastWord word (log ++ [entry]) entry.key = some b := by
  rw [lastWord_concat, if_pos rfl, h, some_or]

theorem lastWord_other {entries : List ResetLog} (h : ∀ entry ∈ entries, entry.key ≠ key) :
    lastWord word (log ++ entries) key = lastWord word log key := by
  unfold lastWord
  rw [lastOf_append, lastOf_eq_none fun entry hentry => if_neg (h entry hentry), none_or]

theorem startTimes_concat (log : List ResetLog) (entry : ResetLog) : startTimes (log ++ [entry]) = startTimes log ++ entry.startTime.toList := by
  unfold startTimes
  rw [filterMap_append, filterMap_cons]
  cases entry.startTime <;> rfl

namespace ProviderResetScheduler

variable {ρ : Type} {o : ProviderResetOptions} {s s' : ProviderResetScheduler ρ} {t : Tracked ρ} {now : ℚ} {e : ResetEvent ρ}
  {tracked : OrderedMap String (Tracked ρ)} {number : ℕ} {l : ResumeLaunch ρ}

/-- What has become of a recorded issue. -/
def Accounted (s : ProviderResetScheduler ρ) (key : ClaimKey) : Prop :=
  s.has key ∨ (∃ l ∈ s.launches, l.tracked.key = key) ∨ Covered s.log key

/-- Where a launch fails its issue has not been forgotten meanwhile, or has been recorded again. -/
def StillWanted (s : ProviderResetScheduler ρ) : ResetEvent ρ → Prop
  | .failed launch _ => ∀ l ∈ s.launches, l.number = launch → ¬ Forgotten s.log l.tracked.key
  | _ => True

instance (s : ProviderResetScheduler ρ) : (e : ResetEvent ρ) → Decidable (s.StillWanted e)
  | .failed launch _ => inferInstanceAs (Decidable (∀ l ∈ s.launches, l.number = launch → ¬ Forgotten s.log l.tracked.key))
  | .record _ _ | .forget _ | .sweep _ _ | .succeeded _ => isTrue trivial

/-- What is tracked is there under its own key, and is not forgotten. -/
def Kept (tracked : OrderedMap String (Tracked ρ)) (log : List ResetLog) : Prop :=
  ∀ k t, tracked.get k = some t → claimKeyString t.key = k ∧ ¬ Forgotten log t.key

structure Holds (o : ProviderResetOptions) (s : ProviderResetScheduler ρ) : Prop where
  kept : Kept s.tracked s.log
  accounted : ∀ key, .recorded key ∈ s.log → s.Accounted key
  heeds : Along Heeds s.log
  capacity : s.bucket.capacity = o.rate
  interval : s.bucket.refillIntervalMs = o.refillWindowMs / o.rate
  sound : s.bucket.Sound (startTimes s.log) s.clock

section

variable (h : Kept tracked log)
include h

theorem Kept.delete (k : String) : Kept (tracked.delete k) log := by
  intro k' t ht
  exact h k' t (get_delete_some ht).2

theorem Kept.set (hwanted : ¬ Forgotten log t.key) : Kept (tracked.set (claimKeyString t.key) t) log := by
  intro k' t' ht
  rw [get_set] at ht
  split at ht
  · next heq =>
    cases ht
    exact ⟨heq, hwanted⟩
  · exact h k' t' ht

theorem Kept.silent (hentry : entry.asks = none) : Kept tracked (log ++ [entry]) := by
  intro k t ht
  obtain ⟨hkey, hwanted⟩ := h k t ht
  exact ⟨hkey, by rwa [Forgotten, lastWord_silent hentry]⟩

theorem Kept.recorded (key : ClaimKey) : Kept tracked (log ++ [.recorded key]) := by
  intro k t ht
  obtain ⟨hkey, hwanted⟩ := h k t ht
  refine ⟨hkey, ?_⟩
  rw [Forgotten, lastWord_concat]
  split_ifs
  · simp [ResetLog.asks]
  · rwa [none_or]

theorem Kept.forget (key : ClaimKey) : Kept (tracked.delete (claimKeyString key)) (log ++ [.forgotten key]) := by
  intro k t ht
  rw [get_delete] at ht
  split at ht
  · cases ht
  · next hne =>
    obtain ⟨rfl, hwanted⟩ := h k t ht
    refine ⟨rfl, ?_⟩
    have hother : key ≠ t.key := fun heq => hne (by rw [heq])
    rwa [Forgotten, lastWord_other fun entry hentry => by rw [mem_singleton.1 hentry]; exact hother]

end

theorem has_delete_other (hne : key ≠ t.key) :
    (tracked.delete (claimKeyString t.key)).has (claimKeyString key) = tracked.has (claimKeyString key) := by
  unfold OrderedMap.has
  rw [get_delete, if_neg fun heq => hne (claimKeyString_inj heq).symm]

theorem has_set {k k' : String} (h : tracked.has k') : (tracked.set k t).has k' := by
  unfold OrderedMap.has at h ⊢
  rw [get_set]
  split_ifs
  · rfl
  · exact h

theorem has_set_self {k : String} : (tracked.set k t).has k := by
  rw [OrderedMap.has, OrderedMap.get_set_self]
  rfl

theorem accounted_step {entries : List ResetLog} (about : ClaimKey) (h : ∀ key, .recorded key ∈ s.log → s.Accounted key)
    (hlog : s'.log = s.log ++ entries) (hentries : ∀ entry ∈ entries, entry.key = about) (habout : s'.Accounted about)
    (hhas : ∀ key ≠ about, s.has key → s'.has key) (hlaunches : ∀ l ∈ s.launches, l.tracked.key ≠ about → l ∈ s'.launches) :
    ∀ key, .recorded key ∈ s'.log → s'.Accounted key := by
  intro key hrecorded
  by_cases hkey : key = about
  · rwa [hkey]
  rw [hlog, mem_append] at hrecorded
  rcases hrecorded with hrecorded | hrecorded
  · rcases h key hrecorded with htracked | ⟨l, hl, rfl⟩ | hcovered
    · exact .inl (hhas key hkey htracked)
    · exact .inr (.inl ⟨l, hlaunches l hl hkey, rfl⟩)
    · refine .inr (.inr ?_)
      rwa [Covered, hlog, lastWord_other fun entry hentry => by rw [hentries entry hentry]; exact Ne.symm hkey]
  · exact absurd (hentries _ hrecorded) hkey

theorem covered_self {b : ResetLog} (h : b.covers = some true) : Covered (log ++ [b]) b.key := lastWord_self h

section

variable (h : Holds o s)
include h

theorem Holds.turn (hclock : s.clock = now) (hwanted : ¬ Forgotten s.log t.key) {s' : ProviderResetScheduler ρ}
    (hturn : SweepTurn o s now t s') :
    (Holds o s' ∧ s'.clock = now) ∧ ∀ other : Tracked ρ, ¬ Forgotten s.log other.key → ¬ Forgotten s'.log other.key := by
  obtain ⟨hkept, haccounted, hheeds, hcapacity, hinterval, hsound⟩ := h
  have hsilent : ∀ {entry : ResetLog} {log : List ResetLog}, entry.asks = none → ∀ {key}, ¬ Forgotten log key → ¬ Forgotten (log ++ [entry]) key :=
    fun hentry _ hkey => by rwa [Forgotten, lastWord_silent hentry]
  cases hturn with
  | leaves entry hentry =>
    have hasks : entry.asks = none := by rcases hentry with rfl | rfl <;> rfl
    have hcovers : entry.covers = some true := by rcases hentry with rfl | rfl <;> rfl
    have hkey : entry.key = t.key := by rcases hentry with rfl | rfl <;> rfl
    have htime : entry.startTime = none := by rcases hentry with rfl | rfl <;> rfl
    refine ⟨⟨⟨(hkept.delete _).silent hasks, ?_, hheeds.concat ?_, hcapacity, hinterval, ?_⟩, hclock⟩, fun other => hsilent hasks⟩
    · refine accounted_step t.key haccounted rfl (fun other hother => ?_) (.inr (.inr ?_)) (fun key hne htracked => ?_) fun l hl _ => hl
      · rw [mem_singleton.1 hother, hkey]
      · rw [← hkey]
        exact covered_self hcovers
      · exact (has_delete_other hne).trans htracked
    · rcases hentry with rfl | rfl <;> trivial
    · rw [startTimes_concat, htime, toList_none, append_nil]
      exact hsound
  | stays => exact ⟨⟨⟨hkept, haccounted, hheeds, hcapacity, hinterval, hsound⟩, hclock⟩, fun other hother => hother⟩
  | limited bucket htake =>
    obtain ⟨hcap, hint⟩ := TokenBucket.take_capacity htake
    rw [hclock] at hsound
    refine ⟨⟨⟨hkept, haccounted, hheeds, hcap.trans hcapacity, hint.trans hinterval, ?_⟩, hclock⟩, fun other hother => hother⟩
    rw [hclock]
    exact hsound.take htake
  | starts bucket htake =>
    obtain ⟨hcap, hint⟩ := TokenBucket.take_capacity htake
    rw [hclock] at hsound
    have hstarted : Heeds s.log (.started t.key now) := hwanted
    refine ⟨⟨⟨(hkept.delete _).silent rfl, ?_, hheeds.concat hstarted, hcap.trans hcapacity, hint.trans hinterval, ?_⟩, hclock⟩, fun other => hsilent rfl⟩
    · refine accounted_step t.key haccounted rfl (fun other hother => ?_) (.inr (.inl ?_)) (fun key hne htracked => ?_) fun l hl _ => ?_
      · rw [mem_singleton.1 hother]
        rfl
      · exact ⟨⟨s.launched, t⟩, mem_append_right _ (mem_singleton_self _), rfl⟩
      · exact (has_delete_other hne).trans htracked
      · exact mem_append_left _ hl
    · rw [hclock, startTimes_concat]
      exact hsound.take htake
  | throws bucket htake failedAt =>
    obtain ⟨hcap, hint⟩ := TokenBucket.take_capacity htake
    rw [hclock] at hsound
    have hstarted : Heeds s.log (.started t.key now) := hwanted
    refine ⟨⟨⟨?_, ?_, (hheeds.concat hstarted).concat trivial, hcap.trans hcapacity, hint.trans hinterval, ?_⟩, hclock⟩,
      fun other hother => hsilent rfl (hsilent rfl hother)⟩
    · exact ((hkept.delete _).set (t := { t with resumeAt := failedAt + o.refillWindowMs }) hwanted |>.silent rfl).silent rfl
    · refine accounted_step t.key haccounted (append_assoc _ _ _) (fun other hother => ?_) (.inl has_set_self)
        (fun key hne htracked => has_set ((has_delete_other hne).trans htracked)) fun l hl _ => hl
      simp only [cons_append, nil_append, mem_cons, not_mem_nil, or_false] at hother
      rcases hother with rfl | rfl <;> rfl
    · rw [hclock, startTimes_concat, startTimes_concat]
      simpa [ResetLog.startTime] using hsound.take htake

theorem Holds.sweep (hclock : s.clock = now) (answers : ClaimKey → DueAnswer) : Holds o (s.sweep o now answers).1 := by
  have hdue : ∀ t ∈ s.due now, ¬ Forgotten s.log t.key := by
    intro t ht
    obtain ⟨k, hk⟩ := mem_due ht
    exact (h.kept k t hk).2
  exact (sweep_induction (fun s => Holds o s ∧ s.clock = now) (fun s t => ¬ Forgotten s.log t.key)
    (fun s s' t hs hwaits hturn => hs.1.turn hs.2 hwaits hturn) answers ⟨h, hclock⟩ hdue).1

theorem Holds.tick (hclock : s.clock ≤ now) : Holds o { s with clock := now } :=
  ⟨h.kept, h.accounted, h.heeds, h.capacity, h.interval, h.sound.tick hclock⟩

theorem Holds.record (entry : ProviderResetEntry ρ) (random : ℚ) : Holds o (s.record o entry random) := by
  obtain ⟨hkept, haccounted, hheeds, hcapacity, hinterval, hsound⟩ := h
  have hwanted : ¬ Forgotten (s.log ++ [.recorded entry.key]) entry.key := by
    have hword : lastWord ResetLog.asks (s.log ++ [.recorded entry.key]) entry.key = some true := lastWord_self rfl
    simp [Forgotten, hword]
  have hset : ∀ t : Tracked ρ, t.key = entry.key → Holds o { s with
      tracked := s.tracked.set (claimKeyString entry.key) t, log := s.log ++ [.recorded entry.key] } := by
    intro t ht
    rw [← ht] at hwanted ⊢
    refine ⟨(hkept.recorded _).set hwanted, ?_, hheeds.concat trivial, hcapacity, hinterval, ?_⟩
    · refine accounted_step t.key haccounted rfl (fun other hother => ?_) (.inl has_set_self) (fun key _ htracked => has_set htracked) fun l hl _ => hl
      rw [mem_singleton.1 hother]
      rfl
    · simpa [startTimes_concat, ResetLog.startTime] using hsound
  unfold ProviderResetScheduler.record
  cases hget : s.tracked.get (claimKeyString entry.key) with
  | none => simpa only [hget] using hset _ rfl
  | some existing =>
    simpa only [hget] using hset { existing with relaunch := entry.relaunch, recordedTaskId := entry.recordedTaskId }
      (claimKeyString_inj (hkept _ _ hget).1)

theorem Holds.forget (key : ClaimKey) : Holds o (s.forget key) := by
  obtain ⟨hkept, haccounted, hheeds, hcapacity, hinterval, hsound⟩ := h
  refine ⟨hkept.forget key, ?_, hheeds.concat trivial, hcapacity, hinterval, ?_⟩
  · refine accounted_step key haccounted rfl (fun other hother => ?_) (.inr (.inr (covered_self rfl))) (fun other hne htracked => ?_) fun l hl _ => hl
    · rw [mem_singleton.1 hother]
      rfl
    · unfold ProviderResetScheduler.has OrderedMap.has ProviderResetScheduler.forget at *
      rwa [get_delete, if_neg fun heq => hne (claimKeyString_inj heq).symm]
  · simpa [ProviderResetScheduler.forget, startTimes_concat, ResetLog.startTime] using hsound

omit h in
theorem launch_mem (h : s.launch number = some l) : l ∈ s.launches ∧ l.number = number :=
  ⟨mem_of_find?_eq_some h, by simpa using find?_some h⟩

omit h in
theorem mem_settle {l other : ResumeLaunch ρ} (hl : s.launch number = some l) (hother : other ∈ s.launches)
    (hne : other.tracked.key ≠ l.tracked.key) : other ∈ (s.settle number).launches := by
  obtain ⟨before, after, hsplit, herase⟩ := eraseP_of_find? hl
  rw [hsplit, mem_append, mem_cons] at hother
  rw [settle, herase, mem_append]
  rcases hother with hother | rfl | hother
  · exact .inl hother
  · exact absurd rfl hne
  · exact .inr hother

theorem Holds.succeed (hl : s.launch number = some l) :
    Holds o { s.settle number with log := s.log ++ [.succeeded l.tracked.key] } := by
  obtain ⟨hkept, haccounted, hheeds, hcapacity, hinterval, hsound⟩ := h
  refine ⟨hkept.silent rfl, ?_, hheeds.concat trivial, hcapacity, hinterval, ?_⟩
  · refine accounted_step l.tracked.key haccounted rfl (fun other hother => ?_) (.inr (.inr (covered_self rfl))) (fun key _ htracked => htracked)
      fun other hother hne => mem_settle hl hother hne
    rw [mem_singleton.1 hother]
    rfl
  · simpa [settle, startTimes_concat, ResetLog.startTime] using hsound

theorem Holds.fail (hl : s.launch number = some l)
    (hwanted : ¬ Forgotten s.log l.tracked.key) (now : ℚ) : Holds o ((s.settle number).requeue o l.tracked now) := by
  obtain ⟨hkept, haccounted, hheeds, hcapacity, hinterval, hsound⟩ := h
  unfold requeue
  refine ⟨?_, ?_, hheeds.concat trivial, hcapacity, hinterval, ?_⟩
  · split_ifs with hhas
    · exact hkept.silent rfl
    · exact (hkept.set (t := { l.tracked with resumeAt := now + o.refillWindowMs }) hwanted).silent rfl
  · refine accounted_step l.tracked.key haccounted rfl (fun other hother => ?_) (.inl ?_) (fun key _ htracked => ?_)
      fun other hother hne => mem_settle hl hother hne
    · rw [mem_singleton.1 hother]
      rfl
    · split_ifs with hhas
      · exact hhas
      · exact has_set_self
    · split_ifs
      · exact htracked
      · exact has_set htracked
  · simpa [settle, startTimes_concat, ResetLog.startTime] using hsound

theorem Holds.step (hwanted : s.StillWanted e) (hstep : step o s e = some s') : Holds o s' := by
  cases e with
  | record entry random =>
    cases hstep
    exact h.record entry random
  | forget key =>
    cases hstep
    exact h.forget key
  | sweep now answers =>
    simp only [step] at hstep
    split_ifs at hstep with hclock
    cases hstep
    exact (h.tick (not_lt.1 hclock)).sweep rfl answers
  | succeeded number =>
    obtain ⟨l, hl, rfl⟩ := map_eq_some_iff.1 hstep
    exact h.succeed hl
  | failed number now =>
    simp only [step] at hstep
    split_ifs at hstep with hclock
    obtain ⟨l, hl, rfl⟩ := map_eq_some_iff.1 hstep
    obtain ⟨hmem, hnumber⟩ := launch_mem hl
    exact (h.tick (not_lt.1 hclock)).fail hl (hwanted l hmem hnumber) now

end

theorem holds_create (o : ProviderResetOptions) (startAt : ℚ) : Holds o (create o startAt : ProviderResetScheduler ρ) where
  kept := by simp [create, Kept]
  accounted := by simp [create]
  heeds := along_nil
  capacity := rfl
  interval := by simp [create, TokenBucket.create, ProviderResetOptions.rate]
  sound := TokenBucket.sound_create _ o.refillWindowMs_pos _

/-- Where no launch fails whose issue was forgotten meanwhile: a recorded issue is tracked, is being launched, or is
covered or given up since; a forgotten one is not started; and in any span of time the starts are those of the rate
and of the windows' parts that go by. -/
theorem provider_resume {events : List (ResetEvent ρ)} {startAt : ℚ}
    (hwanted : StepsMeet (step o) StillWanted (create o startAt) events)
    (hrun : exec (step o) (create o startAt) events = some s) :
    (∀ key, .recorded key ∈ s.log → s.Accounted key) ∧ Along Heeds s.log ∧
      ∀ a length : ℚ, takesWithin a (a + length) (startTimes s.log) ≤ o.rate + ⌈length * o.rate / o.refillWindowMs⌉₊ := by
  have h : Holds o s := exec_invariant (fun _ _ _ h hwanted hstep => h.step hwanted hstep) (holds_create o startAt) hwanted hrun
  refine ⟨h.accounted, h.heeds, fun a length => ?_⟩
  have hwithin := h.sound.rationed.within a (a + length)
  rwa [h.capacity, h.interval, add_sub_cancel_left, div_div_eq_mul_div] at hwithin

def unjittered : ProviderResetOptions := { maxJitterMs := 0, refillWindowMs_pos := by norm_num }

def firstIssue : ClaimKey := ⟨"github.com/owner/repo", 1⟩

/-- Every due entry is launched, and its launch is still going on when the sweep is over. -/
def launchAll : ClaimKey → DueAnswer := fun _ => ⟨true, .admits, .pending⟩

def pauseOf (resetsAt : ℚ) : ProviderResetEntry Unit := ⟨firstIssue, some "task-1", resetsAt, ()⟩

def failedOnce : List (ResetEvent Unit) :=
  [.record (pauseOf 1000) 0, .sweep 1000 launchAll, .failed 0 2000, .sweep 62000 launchAll, .succeeded 1]

theorem provider_resume_failedOnce : ∃ s, exec (step unjittered) (create unjittered 0) failedOnce = some s ∧
    (∀ key, .recorded key ∈ s.log → s.Accounted key) ∧ Along Heeds s.log ∧
      ∀ a length : ℚ, takesWithin a (a + length) (startTimes s.log) ≤ unjittered.rate + ⌈length * unjittered.rate / unjittered.refillWindowMs⌉₊ := by
  obtain ⟨s, hrun⟩ : ∃ s, exec (step unjittered) (create unjittered 0) failedOnce = some s :=
    isSome_iff_exists.1 (by decide +kernel)
  exact ⟨s, hrun, provider_resume (by decide +kernel) hrun⟩

/-- The issue is forgotten while its launch goes on, and the launch fails. -/
def forgottenInFlight : List (ResetEvent Unit) :=
  [.record (pauseOf 1000) 0, .sweep 1000 launchAll, .forget firstIssue, .failed 0 2000, .sweep 62000 launchAll]

theorem forgottenInFlight_log :
    (exec (ProviderResetScheduler.step unjittered) (create unjittered 0) forgottenInFlight).map ProviderResetScheduler.log =
      some ([.recorded firstIssue, .started firstIssue 1000, .forgotten firstIssue, .failed firstIssue] ++ .started firstIssue 62000 :: []) := by
  decide +kernel

/-- An issue is launched that was forgotten and not recorded again. -/
theorem forgotten_issue_launched : ∃ s, exec (ProviderResetScheduler.step unjittered) (create unjittered 0) forgottenInFlight = some s ∧
    ¬ Along Heeds s.log := by
  obtain ⟨s, hrun, hlog⟩ := map_eq_some_iff.1 forgottenInFlight_log
  refine ⟨s, hrun, fun hheeds => ?_⟩
  have hwanted : ¬ Forgotten [.recorded firstIssue, .started firstIssue 1000, .forgotten firstIssue, .failed firstIssue] firstIssue := hheeds _ _ _ hlog
  exact hwanted (by decide)

end ProviderResetScheduler

end Kookr.Server
