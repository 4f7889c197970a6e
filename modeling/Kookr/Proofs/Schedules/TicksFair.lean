import Kookr.Sanity.Schedules.RowChanges
import Kookr.Spec.Schedules.CronRunner

/-! No schedule starves: a tick fires the first due schedules of its walk, and the next walk starts at the first one that was put
off. A schedule that is put off moves at least the budget forward in the walk. -/

namespace Kookr.Schedules

open List

variable {ν : Type} {enabled : List (Schedule ν)} {schedule : Schedule ν} {budget : ℕ} {cursorId : Option String} {due : String → Bool}
  {fired deferred rest : List (Schedule ν)}

/-- What the walk does with one schedule, which is due or is passed. -/
def selectStep (budget : ℕ) (due : String → Bool) (selected : List (Schedule ν) × List (Schedule ν)) (schedule : Schedule ν) :
    List (Schedule ν) × List (Schedule ν) :=
  if !due schedule.id then selected
  else if budget ≤ selected.1.length then (selected.1, selected.2 ++ [schedule])
  else (selected.1 ++ [schedule], selected.2)

/-- The schedules that are fired, and those that are put off. -/
def selectDue (budget : ℕ) (due : String → Bool) (ordered : List (Schedule ν)) : List (Schedule ν) × List (Schedule ν) :=
  ordered.foldl (selectStep budget due) ([], [])

def enabledSchedules (rows : ScheduleRows ν) : List (Schedule ν) := rows.list.filter Schedule.enabled

def nextTickCursorId (deferred : List (Schedule ν)) : Option String := deferred.head?.map Schedule.id

/-- What each of a row of ticks fires. Which schedules are due, and not in flight, is given for every tick. -/
def ticksFire (enabled : List (Schedule ν)) (budget : ℕ) : Option String → List (String → Bool) → List (List (Schedule ν))
  | _, [] => []
  | cursorId, due :: dues =>
    let selected := selectDue budget due (rotateFromCursor enabled cursorId)
    selected.1 :: ticksFire enabled budget (nextTickCursorId selected.2) dues

namespace CronRunner

variable {s s' : CronRunner ν} {nextRun : String → ℕ → Option ℕ} {maxFiresPerTick : ℕ} {pass : TickPass ν}

def isEligible (s : CronRunner ν) (nextRun : String → ℕ → Option ℕ) (now : ℕ) (schedule : Schedule ν) : Bool :=
  !schedule.isTriggerLimitExhausted && ((schedule.computeNextRunFor nextRun).any fun next => next ≤ now) && !s.fires.has schedule.id

/-- The loop of the runner is at a point of the walk. -/
structure Selects (pass : TickPass ν) (selected : List (Schedule ν) × List (Schedule ν)) (rest : List (Schedule ν)) : Prop where
  fired : pass.fired = selected.1.length
  deferred : pass.deferred = selected.2.map Schedule.id
  rest : pass.rest = rest

theorem startTick_selects (hstep : s.startTick = some s') :
    ∃ pass, s'.tick = some pass ∧ Selects pass ([], []) (rotateFromCursor (enabledSchedules s.rows) s.tickCursorId) := by
  unfold startTick at hstep
  split at hstep
  · cases hstep
  · cases hstep
    exact ⟨_, rfl, rfl, rfl, rfl⟩

theorem tickNext_selects {selected : List (Schedule ν) × List (Schedule ν)} (htick : s.tick = some pass)
    (h : Selects pass selected (schedule :: rest)) (hstep : s.tickNext nextRun maxFiresPerTick = some s')
    (hdue : due schedule.id = s.isEligible nextRun pass.now schedule) :
    ∃ pass', s'.tick = some pass' ∧ Selects pass' (selectStep (max 1 maxFiresPerTick) due selected schedule) rest := by
  obtain ⟨hfired, hdeferred, hrest⟩ := h
  unfold tickNext at hstep
  split at hstep
  · rename_i pass₀ _ htick₀
    cases htick.symm.trans htick₀
    rw [hrest] at hstep
    simp only [tickAction] at hstep
    unfold selectStep
    rw [hdue, isEligible]
    cases hexhausted : schedule.isTriggerLimitExhausted with
    | true =>
      simp only [hexhausted, if_true] at hstep
      cases hstep
      exact ⟨_, rfl, hfired, hdeferred, rfl⟩
    | false =>
      simp only [hexhausted, Bool.false_eq_true, if_false] at hstep
      cases hnext : schedule.computeNextRunFor nextRun with
      | none =>
        simp only [hnext] at hstep
        cases hstep
        exact ⟨_, rfl, hfired, hdeferred, rfl⟩
      | some next =>
        simp only [hnext] at hstep
        by_cases hlater : pass.now < next
        · simp only [hlater, if_true] at hstep
          cases hstep
          exact ⟨_, rfl, by simpa [hlater] using hfired, by simpa [hlater] using hdeferred, rfl⟩
        cases hflight : s.fires.has schedule.id with
        | true =>
          simp only [hlater, hflight, if_true, if_false] at hstep
          cases hstep
          exact ⟨_, rfl, by simpa using hfired, by simpa using hdeferred, rfl⟩
        | false =>
          simp only [hlater, hflight, if_false, Bool.false_eq_true] at hstep
          simp only [Bool.not_false, Option.any_some, not_lt.1 hlater, decide_true, Bool.and_self, Bool.not_true, Bool.false_eq_true, if_false]
          rw [hfired] at hstep
          by_cases hbudget : max 1 maxFiresPerTick ≤ selected.1.length
          · simp only [hbudget, if_true] at hstep ⊢
            cases hstep
            exact ⟨_, rfl, rfl, by simp [hdeferred], rfl⟩
          · simp only [hbudget, if_false] at hstep ⊢
            cases hstep
            exact ⟨_, rfl, by simp, hdeferred, rfl⟩
  · cases hstep

theorem tickNext_cursor (htick : s.tick = some pass) (h : Selects pass (fired, deferred) []) (hstep : s.tickNext nextRun maxFiresPerTick = some s') :
    s'.tickCursorId = nextTickCursorId deferred := by
  unfold tickNext at hstep
  split at hstep
  · rename_i pass₀ _ htick₀
    cases htick.symm.trans htick₀
    rw [h.rest] at hstep
    cases hstep
    simp [nextTickCursorId, h.deferred]
  · cases hstep

end CronRunner

theorem selectDue_eq (budget : ℕ) (due : String → Bool) (ordered : List (Schedule ν)) : selectDue budget due ordered =
      ((ordered.filter fun schedule => due schedule.id).take budget, (ordered.filter fun schedule => due schedule.id).drop budget) := by
  suffices hfold : ∀ seen : List (Schedule ν), ordered.foldl (selectStep budget due) (seen.take budget, seen.drop budget) =
      ((seen ++ ordered.filter fun schedule => due schedule.id).take budget,
        (seen ++ ordered.filter fun schedule => due schedule.id).drop budget) by
    unfold selectDue
    simpa using hfold []
  induction ordered with
  | nil => simp
  | cons schedule ordered ih =>
    intro seen
    rw [foldl_cons]
    cases hdue : due schedule.id with
    | false =>
      rw [filter_cons_of_neg (by simp [hdue]), ← ih seen, selectStep, hdue]
      rfl
    | true =>
      have hnext : selectStep budget due (seen.take budget, seen.drop budget) schedule =
          ((seen ++ [schedule]).take budget, (seen ++ [schedule]).drop budget) := by
        by_cases hfull : budget ≤ seen.length
        · simp [selectStep, hdue, hfull, take_append_of_le_length hfull, drop_append_of_le_length hfull]
        · have hall : (seen ++ [schedule]).length ≤ budget := by simp; omega
          rw [selectStep, take_of_length_le hall, drop_of_length_le hall, take_of_length_le (by omega),
            drop_of_length_le (by omega)]
          simp [hdue, hfull]
      rw [hnext, ih (seen ++ [schedule]), filter_cons_of_pos (by simp [hdue]), append_assoc]
      rfl

theorem rotateFromCursor_split (enabled : List (Schedule ν)) (cursorId : Option String) :
    ∃ before after, enabled = before ++ after ∧ rotateFromCursor enabled cursorId = after ++ before := by
  unfold rotateFromCursor
  split
  · exact ⟨[], enabled, rfl, (append_nil _).symm⟩
  · split
    · exact ⟨[], enabled, rfl, (append_nil _).symm⟩
    · rename_i i _
      exact ⟨enabled.take i, enabled.drop i, (take_append_drop i enabled).symm, rfl⟩

section

variable (hids : (enabled.map Schedule.id).Nodup)
include hids

/-- The walk from a schedule of another walk: what was in front of it comes last. -/
theorem rotateFromCursor_at {before after : List (Schedule ν)}
    (hwalk : rotateFromCursor enabled cursorId = before ++ schedule :: after) :
    rotateFromCursor enabled (some schedule.id) = schedule :: after ++ before := by
  have hat : ∀ front back, enabled = front ++ schedule :: back → rotateFromCursor enabled (some schedule.id) = schedule :: back ++ front := by
    rintro front back rfl
    have hfront : front.findIdx? (fun other => other.id = schedule.id) = none := by
      rw [findIdx?_eq_none_iff]
      intro other hother
      rw [map_append, nodup_append] at hids
      simpa using hids.2.2 _ (mem_map_of_mem hother) _ (mem_map_of_mem mem_cons_self)
    have hindex : (front ++ schedule :: back).findIdx? (fun other => other.id = schedule.id) = some front.length := by
      rw [findIdx?_append, hfront, findIdx?_cons]
      simp
    unfold rotateFromCursor
    simp only [hindex, drop_left, take_left]
  obtain ⟨first, second, rfl, hrotated⟩ := rotateFromCursor_split enabled cursorId
  rw [hrotated] at hwalk
  rcases append_eq_append_iff.1 hwalk with ⟨mid, rfl, hsecond⟩ | ⟨mid, rfl, hmid⟩
  · subst hsecond
    rw [hat mid (after ++ second) (by simp)]
    simp
  · cases mid with
    | nil =>
      obtain rfl : first = schedule :: after := hmid.symm
      simpa using hat [] (after ++ before) (by simp)
    | cons head mid =>
      cases hmid
      rw [hat (first ++ before) mid (by simp)]
      simp

/-- A due schedule that a tick does not fire moves forward by the budget at least. -/
theorem moves_forward {before after : List (Schedule ν)}
    (hwalk : rotateFromCursor enabled cursorId = before ++ schedule :: after) (hdue : due schedule.id = true)
    (hnot : schedule ∉ (selectDue budget due (rotateFromCursor enabled cursorId)).1) :
    ∃ before' after', before'.length + budget ≤ before.length ∧
      rotateFromCursor enabled (nextTickCursorId (selectDue budget due (rotateFromCursor enabled cursorId)).2) =
        before' ++ schedule :: after' := by
  rw [selectDue_eq] at hnot ⊢
  have hmem : schedule ∈ (rotateFromCursor enabled cursorId).filter fun schedule => due schedule.id :=
    mem_filter.2 ⟨by simp [hwalk], hdue⟩
  rw [← take_append_drop budget ((rotateFromCursor enabled cursorId).filter fun schedule => due schedule.id)] at hmem
  have hdeferred := (mem_append.1 hmem).resolve_left hnot
  cases hdrop : ((rotateFromCursor enabled cursorId).filter fun schedule => due schedule.id).drop budget with
  | nil => rw [hdrop] at hdeferred; cases hdeferred
  | cons first deferred =>
    -- The walk up to the first schedule that is put off, which has all that were fired in front of it.
    have hsplit := (take_append_drop budget ((rotateFromCursor enabled cursorId).filter fun schedule => due schedule.id)).symm
    rw [hdrop] at hsplit hdeferred
    obtain ⟨front, back, hfront, htake, hback⟩ := filter_eq_append_iff.1 hsplit
    obtain ⟨passed, later, rfl, -, -, hlater⟩ := filter_eq_cons_iff.1 hback
    have hlength : budget ≤ front.length := by
      have hfiltered := congrArg length htake
      have hlt : budget < ((rotateFromCursor enabled cursorId).filter fun schedule => due schedule.id).length := by
        rw [← not_le, ← drop_eq_nil_iff, hdrop]
        exact cons_ne_nil _ _
      rw [length_take_of_le hlt.le] at hfiltered
      exact hfiltered ▸ length_filter_le _ _
    have hin : schedule ∈ first :: later := by
      rcases mem_cons.1 hdeferred with rfl | hrest
      · exact mem_cons_self
      · exact mem_cons_of_mem _ (mem_of_mem_filter (hlater ▸ hrest))
    obtain ⟨before', after', hparts⟩ := append_of_mem hin
    have hpos : before = front ++ passed ++ before' := by
      have hnodup : (before ++ schedule :: after).Nodup := by
        obtain ⟨one, two, rfl, hrotated⟩ := rotateFromCursor_split enabled cursorId
        rw [← hwalk, hrotated, nodup_append_comm]
        exact hids.of_map
      have hsame : before ++ schedule :: after = front ++ passed ++ before' ++ schedule :: after' := by
        rw [← hwalk, hfront, hparts]
        simp
      rw [nodup_middle, nodup_cons, mem_append, not_or] at hnodup
      exact ((append_cons_inj_of_notMem hnodup.1.1 hnodup.1.2).1 hsame).1
    refine ⟨before', after' ++ (front ++ passed), ?_, ?_⟩
    · rw [hpos]
      simp only [length_append]
      omega
    · have hfirst : rotateFromCursor enabled cursorId = (front ++ passed) ++ first :: later := by rw [hfront, append_assoc]
      show rotateFromCursor enabled (some first.id) = _
      rw [rotateFromCursor_at hids hfirst, hparts]
      simp

/-- A schedule that is due in enough ticks is fired in one of them, from wherever the first one starts. -/
theorem fired_within {window : List (String → Bool)} (hdue : ∀ due ∈ window, due schedule.id = true)
    {before after : List (Schedule ν)} (hwalk : rotateFromCursor enabled cursorId = before ++ schedule :: after)
    (hlength : before.length < window.length * budget) : ∃ fired ∈ ticksFire enabled budget cursorId window, schedule ∈ fired := by
  induction window generalizing cursorId before after with
  | nil => simp at hlength
  | cons due window ih =>
    by_cases hfired : schedule ∈ (selectDue budget due (rotateFromCursor enabled cursorId)).1
    · exact ⟨_, mem_cons_self, hfired⟩
    · obtain ⟨before', after', hforward, hwalk'⟩ := moves_forward hids hwalk (hdue due mem_cons_self) hfired
      rw [length_cons, Nat.succ_mul] at hlength
      obtain ⟨fired, hmem, hin⟩ := ih (fun due hmem => hdue due (mem_cons_of_mem _ hmem)) hwalk' (by omega)
      exact ⟨fired, mem_cons_of_mem _ hmem, hin⟩

end

theorem length_ticksFire (enabled : List (Schedule ν)) (budget : ℕ) (cursorId : Option String) (dues : List (String → Bool)) :
    (ticksFire enabled budget cursorId dues).length = dues.length := by
  induction dues generalizing cursorId with
  | nil => rfl
  | cons due dues ih => simp [ticksFire, ih]

theorem ticksFire_append (enabled : List (Schedule ν)) (budget : ℕ) (cursorId : Option String) (dues dues' : List (String → Bool)) :
    ∃ cursorId', ticksFire enabled budget cursorId (dues ++ dues') =
      ticksFire enabled budget cursorId dues ++ ticksFire enabled budget cursorId' dues' := by
  induction dues generalizing cursorId with
  | nil => exact ⟨cursorId, rfl⟩
  | cons due dues ih =>
    obtain ⟨cursorId', heq⟩ := ih (nextTickCursorId (selectDue budget due (rotateFromCursor enabled cursorId)).2)
    exact ⟨cursorId', by simp only [cons_append, ticksFire, heq]⟩

theorem fires_within_budget (enabled : List (Schedule ν)) (budget : ℕ) (dues : List (String → Bool)) :
    ∀ fired ∈ ticksFire enabled budget cursorId dues, fired.length ≤ budget := by
  induction dues generalizing cursorId with
  | nil => exact fun _ hfired => (not_mem_nil hfired).elim
  | cons due dues ih =>
    intro fired hfired
    rcases mem_cons.1 hfired with rfl | hrest
    · rw [selectDue_eq]
      exact length_take_le _ _
    · exact ih fired hrest

/-- With the enabled schedules as they are, no tick fires more than the budget, and a schedule that is due and not in flight in as
many ticks in a row as the budget needs to go around is fired in one of them. -/
theorem ticks_starve_nobody (rows : ScheduleRows ν) (budget : ℕ) (hbudget : 1 ≤ budget) (dues : List (String → Bool)) :
    (∀ fired ∈ ticksFire (enabledSchedules rows) budget none dues, fired.length ≤ budget) ∧
      ∀ before window after, dues = before ++ window ++ after → window.length = ((enabledSchedules rows).length + budget - 1) / budget →
        ∀ schedule ∈ enabledSchedules rows, (∀ due ∈ window, due schedule.id = true) →
          ∃ fired ∈ ((ticksFire (enabledSchedules rows) budget none dues).drop before.length).take window.length, schedule ∈ fired := by
  refine ⟨fires_within_budget _ _ _, ?_⟩
  rintro before window after rfl hlength schedule hmem hdue
  have hids : ((enabledSchedules rows).map Schedule.id).Nodup := rows.nodup_ids.sublist (filter_sublist.map Schedule.id)
  generalize enabledSchedules rows = enabled at *
  obtain ⟨cursorId, hbefore⟩ := ticksFire_append enabled budget none before (window ++ after)
  obtain ⟨cursorId', hwindow⟩ := ticksFire_append enabled budget cursorId window after
  have hsegment : ((ticksFire enabled budget none (before ++ window ++ after)).drop before.length).take window.length =
      ticksFire enabled budget cursorId window := by
    rw [append_assoc, hbefore, ← length_ticksFire _ budget none before, drop_left, hwindow, ← length_ticksFire _ budget cursorId window,
      take_left]
  rw [hsegment]
  obtain ⟨one, two, hsplit, hrotated⟩ := rotateFromCursor_split enabled cursorId
  have hwalks : schedule ∈ rotateFromCursor enabled cursorId := by
    rw [hrotated]
    rw [hsplit] at hmem
    exact mem_append.2 (mem_append.1 hmem).symm
  obtain ⟨front, back, hwalk⟩ := append_of_mem hwalks
  refine fired_within hids hdue hwalk ?_
  have hfront : front.length < enabled.length := by
    have hsame := congrArg length (hrotated.symm.trans hwalk)
    rw [hsplit]
    simp only [length_append, length_cons] at hsame ⊢
    omega
  have hround := Nat.div_add_mod (enabled.length + budget - 1) budget
  have hrest := Nat.mod_lt (enabled.length + budget - 1) hbudget
  rw [hlength, Nat.mul_comm]
  omega

def everyMinute (id : String) : Schedule ℕ := .created id ⟨"* * * * *", false, false⟩ true none 0

def twoSchedules : ScheduleRows ℕ := (ScheduleRows.empty.replace (everyMinute "a")).replace (everyMinute "b")

/-- Two schedules are due in two ticks, with a budget of one. -/
theorem ticks_starve_nobody_two :
    ∃ fired ∈ ((ticksFire (enabledSchedules twoSchedules) 1 none [fun _ => true, fun _ => true]).drop 0).take 2, everyMinute "b" ∈ fired := by
  have hfair := ticks_starve_nobody twoSchedules 1 le_rfl [fun _ => true, fun _ => true]
  refine hfair.2 [] [fun _ => true, fun _ => true] [] rfl rfl (everyMinute "b") ?_ (by simp)
  exact mem_cons_of_mem _ mem_cons_self

end Kookr.Schedules
