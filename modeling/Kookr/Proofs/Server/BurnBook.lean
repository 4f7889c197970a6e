import Kookr.Spec.Server.RalphCycler

/-! Which targets of a loop are burned. A row counts the stalls of its target since the last un-burn; that a target is unfit
for good is remembered only by the stall that burns it. -/

namespace Kookr.Server.BurnLoop

open Kookr.Lib List Option

variable {config : StallConfig} {canonicalizeTarget : String → String} {loop : BurnLoop} {rows : List BurnedOutTarget} {target other : String}

/-- The stalls of a target since its last un-burn. -/
structure TargetReports where
  stalls : ℕ
  permanent : Bool
  lastAttempted : ℕ

/-- A target that nobody tried for long enough decays, unless it was reported for good. -/
def TargetReports.decay (config : StallConfig) (iteration : ℕ) (r : TargetReports) : TargetReports :=
  if config.burnedTargetDecayIterations.any fun decay => !r.permanent && decay ≤ iteration - r.lastAttempted then { r with stalls := 0 } else r

def TargetReports.progress (r : TargetReports) : TargetReports := ⟨0, false, r.lastAttempted⟩

def TargetReports.stall (iteration : ℕ) (permanent : Bool) (r : TargetReports) : TargetReports :=
  ⟨r.stalls + 1, r.permanent || permanent, iteration⟩

def TargetReports.ShowsBurned (config : StallConfig) (r : TargetReports) : Prop :=
  config.consecutiveStallsPerTarget ≤ r.stalls ∨ r.permanent = true

/-- A loop with what was reported of its targets. -/
structure Run where
  loop : BurnLoop
  reports : String → TargetReports

/-- A call of a running loop, below its cap, reports what its verdict says, unless the loop is over before that. -/
def Run.report (config : StallConfig) (canonicalizeTarget : String → String) (s : Run) (call : StopCall) : String → TargetReports :=
  if s.loop.running = false ∨ s.loop.iterationCap ≤ s.loop.currentIteration then s.reports
  else
    let decayed target := (s.reports target).decay config s.loop.currentIteration
    if endsEarly call then decayed
    else
      let progressed target := if progressTarget canonicalizeTarget call = some target then (decayed target).progress else decayed target
      match stallOf canonicalizeTarget call with
      | some (stalled, _, _, permanent) => Function.update progressed stalled ((progressed stalled).stall s.loop.currentIteration permanent)
      | none => progressed

def Run.step (config : StallConfig) (canonicalizeTarget : String → String) (s : Run) (call : StopCall) : Option Run :=
  some ⟨s.loop.handleStop config canonicalizeTarget call, s.report config canonicalizeTarget call⟩

def Run.start (iteration iterationCap : ℕ) : Run := ⟨⟨true, iteration, iterationCap, []⟩, fun _ => ⟨0, false, 0⟩⟩

/-- If burns decay, a target is reported for good before it is burned, or when its burn is due for decay or was for good. -/
def ReportsInTime (config : StallConfig) (canonicalizeTarget : String → String) (s : Run) (call : StopCall) : Prop :=
  ∀ target reason blockers, stallOf canonicalizeTarget call = some (target, reason, blockers, true) →
    config.burnedTargetDecayIterations.isSome → ∀ row, s.loop.row target = some row → row.burned = true → s.loop.isStale config row = false →
      row.permanent = true

theorem find_updateRow (f : BurnedOutTarget → BurnedOutTarget) (hf : ∀ row, (f row).target = row.target) (rows : List BurnedOutTarget) (target other : String) :
    (updateRow target f rows).find? (fun row => row.target = other) =
      if other = target then (rows.find? fun row => row.target = other).map f else rows.find? fun row => row.target = other := by
  induction rows with
  | nil => simp [updateRow]
  | cons row rows ih =>
    unfold updateRow
    by_cases hrow : row.target = target
    · by_cases hother : other = target
      · simp [hrow, hother, hf]
      · simp [hrow, Ne.symm hother, hf, hother]
    · by_cases hother : row.target = other
      · have hne : other ≠ target := fun heq => hrow (hother.trans heq)
        simp [hother, hne]
      · rw [if_neg hrow, find?_cons_of_neg (by simpa using hother), find?_cons_of_neg (by simpa using hother), ih]

theorem targets_updateRow (f : BurnedOutTarget → BurnedOutTarget) (hf : ∀ row, (f row).target = row.target) (target : String) (rows : List BurnedOutTarget) :
    (updateRow target f rows).map (·.target) = rows.map (·.target) := by
  induction rows with
  | nil => rfl
  | cons row rows ih =>
    unfold updateRow
    split
    · simp [hf]
    · simp [ih]

theorem target_of_row {row : BurnedOutTarget} (h : loop.row target = some row) : row.target = target := by
  simpa using find?_some h

theorem row_unburnTarget (loop : BurnLoop) (target other : String) :
    (loop.unburnTarget target).row other = if other = target then (loop.row other).map unburn else loop.row other :=
  find_updateRow unburn (fun _ => rfl) ..

theorem row_unburnAll (stale : List BurnedOutTarget) (loop : BurnLoop) (other : String) :
    (stale.foldl (fun loop row => loop.unburnTarget row.target) loop).row other =
      if other ∈ stale.map (·.target) then (loop.row other).map unburn else loop.row other := by
  induction stale generalizing loop with
  | nil => simp
  | cons row stale ih =>
    rw [foldl_cons, ih, row_unburnTarget]
    by_cases hrow : other = row.target
    · have hmem : other ∈ (row :: stale).map (·.target) := by simp [hrow]
      split
      · cases loop.row other <;> rfl
      · rfl
    · simp [hrow]

theorem unburnAll_frame (stale : List BurnedOutTarget) (loop : BurnLoop) :
    (stale.foldl (fun loop row => loop.unburnTarget row.target) loop).currentIteration = loop.currentIteration ∧
      (stale.foldl (fun loop row => loop.unburnTarget row.target) loop).burnedOutTargets.map (·.target) =
        loop.burnedOutTargets.map (·.target) := by
  induction stale generalizing loop with
  | nil => exact ⟨rfl, rfl⟩
  | cons row stale ih =>
    refine ⟨(ih (loop.unburnTarget row.target)).1, (ih (loop.unburnTarget row.target)).2.trans ?_⟩
    exact targets_updateRow unburn (fun _ => rfl) ..

/-- Of distinct targets the stale ones are those with a stale row. -/
theorem row_applyDecay (hnodup : (loop.burnedOutTargets.map (·.target)).Nodup) (other : String) :
    (loop.applyDecay config).row other = (loop.row other).map fun row => if loop.isStale config row then unburn row else row := by
  unfold applyDecay
  rw [row_unburnAll]
  cases hrow : loop.row other with
  | none => simp
  | some row =>
    have hmem : row ∈ loop.burnedOutTargets := mem_of_find?_eq_some hrow
    have htarget : row.target = other := target_of_row hrow
    have hin : other ∈ (loop.burnedOutTargets.filter (loop.isStale config)).map (·.target) ↔ loop.isStale config row = true := by
      constructor
      · intro h
        obtain ⟨stale, hstale, heq⟩ := mem_map.1 h
        obtain ⟨hmem', hyes⟩ := mem_filter.1 hstale
        rwa [inj_on_of_nodup_map hnodup hmem hmem' (htarget.trans heq.symm)]
      · intro h
        exact mem_map.2 ⟨row, mem_filter.2 ⟨hmem, h⟩, htarget⟩
    by_cases h : loop.isStale config row = true
    · simp [hin.2 h, h]
    · simp [mt hin.1 h, h]

/-- The row says what was reported. Whether that was for good matters where burns decay. -/
def RowMatches (config : StallConfig) (row : Option BurnedOutTarget) (r : TargetReports) : Prop :=
  match row with
  | none => r.stalls = 0 ∧ r.permanent = false
  | some row => row.consecutiveStallCount = r.stalls ∧ (row.burned = true ↔ r.ShowsBurned config) ∧
      (config.burnedTargetDecayIterations.isSome → row.permanent = r.permanent ∧ row.lastAttemptedIteration = r.lastAttempted)

structure Matches (config : StallConfig) (loop : BurnLoop) (reports : String → TargetReports) : Prop where
  nodup : (loop.burnedOutTargets.map (·.target)).Nodup
  row : ∀ target, RowMatches config (loop.row target) (reports target)

theorem not_showsBurned (config : StallConfig) (last : ℕ) : ¬ TargetReports.ShowsBurned config ⟨0, false, last⟩ := by
  have hpos := config.positive
  rintro (hle | hpermanent)
  · exact absurd hle (by simp only; omega)
  · cases hpermanent

theorem Matches.decay {reports : String → TargetReports} (h : Matches config loop reports) :
    Matches config (loop.applyDecay config) fun target => (reports target).decay config loop.currentIteration := by
  refine ⟨by rw [applyDecay, (unburnAll_frame _ _).2]; exact h.nodup, fun target => ?_⟩
  have hrow := h.row target
  rw [row_applyDecay h.nodup]
  unfold TargetReports.decay
  cases hfound : loop.row target with
  | none =>
    rw [hfound] at hrow
    obtain ⟨hstalls, hpermanent⟩ := hrow
    split
    · exact ⟨rfl, hpermanent⟩
    · exact ⟨hstalls, hpermanent⟩
  | some row =>
    rw [hfound] at hrow
    obtain ⟨hcount, hburned, hrest⟩ := hrow
    have hstale : loop.isStale config row = config.burnedTargetDecayIterations.any fun decay =>
        !(reports target).permanent && decay ≤ loop.currentIteration - (reports target).lastAttempted := by
      unfold isStale
      cases hdecay : config.burnedTargetDecayIterations with
      | none => rfl
      | some decay =>
        rw [hdecay] at hrest
        simp only [any_some, (hrest rfl).1, (hrest rfl).2]
    rw [map_some, hstale]
    split
    · rename_i hany
      obtain ⟨decay, -, hboth⟩ := (any_eq_true _ _).1 hany
      have hnot : (reports target).permanent = false := by simpa using (Bool.and_eq_true_iff.1 hboth).1
      refine ⟨rfl, iff_of_false Bool.false_ne_true ?_, fun hsome => ⟨hnot.symm, (hrest hsome).2⟩⟩
      have hnever := not_showsBurned config (reports target).lastAttempted
      rwa [← hnot] at hnever
    · exact ⟨hcount, hburned, hrest⟩

theorem Matches.progress {reports : String → TargetReports} (h : Matches config loop reports) (progressed : Option String) :
    Matches config ((progressed.map loop.unburnTarget).getD loop)
      fun target => if progressed = some target then (reports target).progress else reports target := by
  cases progressed with
  | none => exact ⟨h.nodup, fun target => by simpa using h.row target⟩
  | some progressed =>
    refine ⟨(targets_updateRow unburn (fun _ => rfl) progressed _).symm ▸ h.nodup, fun target => ?_⟩
    have hrow := h.row target
    rw [map_some, getD_some, row_unburnTarget]
    by_cases htarget : target = progressed
    · subst htarget
      rw [if_pos rfl, if_pos rfl]
      cases hfound : loop.row target with
      | none => exact ⟨rfl, rfl⟩
      | some row =>
        rw [hfound] at hrow
        exact ⟨rfl, iff_of_false Bool.false_ne_true (not_showsBurned config _), fun hsome => ⟨rfl, (hrow.2.2 hsome).2⟩⟩
    · rw [if_neg htarget, if_neg fun heq => htarget (some.inj heq).symm]
      exact hrow

theorem row_recordStall (loop : BurnLoop) (target reason : String) (blockers : List String) (permanent : Bool) (other : String) :
    (loop.recordStall config target reason blockers permanent).row other =
      if other = target then some (loop.stall config reason blockers permanent ((loop.row other).getD
        ⟨target, 0, 0, loop.currentIteration, reason, blockers, false, loop.currentIteration, false⟩))
      else loop.row other := by
  refine (find_updateRow (loop.stall config reason blockers permanent) (fun _ => rfl) _ target other).trans ?_
  cases hfound : loop.row target with
  | some row =>
    rw [isSome_some, if_pos rfl]
    split
    · rename_i heq
      subst heq
      unfold BurnLoop.row at hfound ⊢
      rw [hfound]
      rfl
    · rfl
  | none =>
    unfold BurnLoop.row at hfound ⊢
    split
    · rename_i heq
      subst heq
      simp [hfound]
    · rename_i hne
      simp [Ne.symm hne]

theorem Matches.stall {reports : String → TargetReports} (h : Matches config loop reports) (target reason : String) (blockers : List String)
    (permanent : Bool) (hintime : permanent = true → config.burnedTargetDecayIterations.isSome → ∀ row, loop.row target = some row →
      row.burned = true → row.permanent = true) : Matches config (loop.recordStall config target reason blockers permanent)
      (Function.update reports target ((reports target).stall loop.currentIteration permanent)) := by
  refine ⟨?_, fun other => ?_⟩
  · unfold recordStall
    rw [targets_updateRow (loop.stall config reason blockers permanent) fun _ => rfl]
    split
    · exact h.nodup
    · rename_i hnew
      rw [map_append, nodup_append]
      refine ⟨h.nodup, nodup_singleton _, fun name hname name' hname' heq => hnew ?_⟩
      obtain ⟨row, hrow, rfl⟩ := mem_map.1 hname
      have htarget : row.target = target := heq.trans (mem_singleton.1 hname')
      exact find?_isSome.2 ⟨row, hrow, by simpa using htarget⟩
  · rw [row_recordStall]
    by_cases hother : other = target
    · subst hother
      rw [if_pos rfl, Function.update_self]
      have hrow := h.row other
      -- The row as it was, or the new one: it counts the stalls before this one.
      obtain ⟨row, heq, hcount, hburned, hpermanent⟩ : ∃ row : BurnedOutTarget, (loop.row other).getD
          ⟨other, 0, 0, loop.currentIteration, reason, blockers, false, loop.currentIteration, false⟩ = row ∧
          row.consecutiveStallCount = (reports other).stalls ∧ (row.burned = true ↔ (reports other).ShowsBurned config) ∧
          (config.burnedTargetDecayIterations.isSome → row.permanent = (reports other).permanent ∧
            (permanent = true → row.burned = true → row.permanent = true)) := by
        cases hfound : loop.row other with
        | none =>
          rw [hfound] at hrow
          have hnever : ¬ (reports other).ShowsBurned config := by
            have hno := not_showsBurned config (reports other).lastAttempted
            rwa [← hrow.1, ← hrow.2] at hno
          exact ⟨_, rfl, hrow.1.symm, iff_of_false Bool.false_ne_true hnever, fun _ => ⟨hrow.2.symm, nofun⟩⟩
        | some row =>
          rw [hfound] at hrow
          exact ⟨row, rfl, hrow.1, hrow.2.1, fun hsome => ⟨(hrow.2.2 hsome).1, fun hyes => hintime hyes hsome row hfound⟩⟩
      rw [heq]
      refine ⟨by simp [BurnLoop.stall, TargetReports.stall, hcount], ?_, fun hsome => ⟨?_, rfl⟩⟩
      · unfold BurnLoop.stall TargetReports.stall TargetReports.ShowsBurned at *
        simp only [hcount, Bool.or_eq_true, Bool.and_eq_true, decide_eq_true_eq, Bool.not_eq_true'] at hburned ⊢
        cases hwas : row.burned with
        | true =>
          have hshown := hburned.1 hwas
          simp only [true_or, true_iff]
          rcases hshown with hle | hyes
          · exact .inl (by omega)
          · exact .inr (.inl hyes)
        | false =>
          have hnot := mt hburned.2 (by rw [hwas]; exact Bool.false_ne_true)
          rw [not_or] at hnot
          simp only [Bool.false_eq_true, false_or, true_and, hnot.2]
          exact or_comm
      · obtain ⟨hsame, hyes⟩ := hpermanent hsome
        simp only [BurnLoop.stall, TargetReports.stall, ← hsame]
        cases permanent <;> cases hwas : row.burned <;> simp_all
    · rw [if_neg hother, Function.update_of_ne hother]
      exact h.row other

theorem Matches.step {s : Run} (h : Matches config s.loop s.reports) {call : StopCall} (hintime : ReportsInTime config canonicalizeTarget s call) :
    Matches config (s.loop.handleStop config canonicalizeTarget call) (s.report config canonicalizeTarget call) := by
  have hkeep : ∀ {loop loop' : BurnLoop} {reports : String → TargetReports}, Matches config loop reports →
      loop'.burnedOutTargets = loop.burnedOutTargets → Matches config loop' reports := by
    intro loop loop' reports hmatches heq
    refine ⟨heq ▸ hmatches.nodup, fun target => ?_⟩
    have hsame : loop'.row target = loop.row target := by
      unfold BurnLoop.row
      rw [heq]
    rw [hsame]
    exact hmatches.row target
  unfold handleStop Run.report
  cases hrunning : s.loop.running with
  | false => exact h
  | true =>
    simp only [Bool.not_true, Bool.false_eq_true, if_false, Bool.true_eq_false, false_or]
    split
    · exact hkeep h rfl
    have hdecayed := h.decay
    split
    · exact hkeep hdecayed rfl
    have hprogressed := hdecayed.progress (progressTarget canonicalizeTarget call)
    cases hstall : stallOf canonicalizeTarget call with
    | none =>
      simp only
      split <;> exact hkeep hprogressed rfl
    | some stalled =>
      obtain ⟨target, reason, blockers, permanent⟩ := stalled
      simp only
      have hnone : permanent = true → progressTarget canonicalizeTarget call = none := by
        rintro rfl
        unfold stallOf at hstall
        unfold progressTarget
        split at hstall
        · rename_i hverdict
          rw [hverdict]
        · split at hstall <;> cases hstall
      have hiteration : (((progressTarget canonicalizeTarget call).map (s.loop.applyDecay config).unburnTarget).getD
          (s.loop.applyDecay config)).currentIteration = s.loop.currentIteration := by
        have hframe : (s.loop.applyDecay config).currentIteration = s.loop.currentIteration := (unburnAll_frame _ _).1
        cases progressTarget canonicalizeTarget call <;> exact hframe
      have hrecorded := hprogressed.stall target reason blockers permanent fun hyes hsome row hrow hburned => by
        subst hyes
        rw [hnone rfl, map_none, getD_none, row_applyDecay h.nodup] at hrow
        obtain ⟨before, hbefore, rfl⟩ := map_eq_some_iff.1 hrow
        cases hstale : s.loop.isStale config before with
        | true =>
          simp only [hstale, if_true, unburn, Bool.false_eq_true] at hburned
        | false =>
          simp only [hstale, Bool.false_eq_true, if_false] at hburned ⊢
          exact hintime target reason blockers hstall hsome before hbefore hburned hstale
      rw [hiteration] at hrecorded
      split <;> exact hkeep hrecorded rfl

/-- In every run of calls that report in time a target is burned when the stalls since its last un-burn reach the number, or one
of them was for good, and only then. -/
theorem burned_iff_reported (config : StallConfig) (canonicalizeTarget : String → String) (iteration iterationCap : ℕ) (calls : List StopCall)
    (s : Run) (hintime : StepsMeet (Run.step config canonicalizeTarget) (ReportsInTime config canonicalizeTarget)
      (.start iteration iterationCap) calls)
    (hrun : exec (Run.step config canonicalizeTarget) (.start iteration iterationCap) calls = some s) (target : String) :
    s.loop.isBurned target = true ↔ (s.reports target).ShowsBurned config := by
  have hstart : Matches config (Run.start iteration iterationCap).loop (Run.start iteration iterationCap).reports :=
    ⟨nodup_nil, fun _ => ⟨rfl, rfl⟩⟩
  have hinv : ∀ (s : Run) call s', Matches config s.loop s.reports → ReportsInTime config canonicalizeTarget s call →
      s.step config canonicalizeTarget call = some s' → Matches config s'.loop s'.reports := by
    intro s call s' h hok hstep
    cases hstep
    exact h.step hok
  have hmatches : Matches config s.loop s.reports := exec_invariant hinv hstart hintime hrun
  have hrow := hmatches.row target
  unfold isBurned
  cases hfound : s.loop.row target with
  | none =>
    rw [hfound] at hrow
    have hno := not_showsBurned config (s.reports target).lastAttempted
    rw [← hrow.1, ← hrow.2] at hno
    exact iff_of_false (by simp) hno
  | some row =>
    rw [hfound] at hrow
    simpa using hrow.2.1

def oneStallBurns (burnedTargetDecayIterations : Option ℕ) : StallConfig := ⟨1, by decide, true, 3, [], burnedTargetDecayIterations⟩

def reportStall (permanent : Bool) : StopCall := ⟨some (.stalled "a" "blocked" [] permanent), none, false, false⟩

def reportNothing : StopCall := ⟨none, none, false, false⟩

theorem burned_iff_reported_permanent : ∃ s,
    exec (Run.step (oneStallBurns (some 2)) id) (.start 1 9) [reportStall true, reportNothing, reportNothing] = some s ∧
      (s.loop.isBurned "a" = true ↔ (s.reports "a").ShowsBurned (oneStallBurns (some 2))) := by
  have hnothing : ∀ s, ReportsInTime (oneStallBurns (some 2)) id s reportNothing := by
    intro s target reason blockers hstall
    cases hstall
  have hfirst : ReportsInTime (oneStallBurns (some 2)) id (.start 1 9) (reportStall true) := by
    intro target reason blockers _ _ row hrow
    cases hrow
  refine ⟨_, rfl, burned_iff_reported _ id 1 9 [reportStall true, reportNothing, reportNothing] _ ?_ rfl "a"⟩
  exact ⟨hfirst, fun s _ => ⟨hnothing s, fun s' _ => ⟨hnothing s', fun _ _ => trivial⟩⟩⟩

/-- A target is burned by one stall, then reported for good; two calls without a word of it un-burn it. -/
theorem permanent_burn_decays : ∃ s,
    exec (Run.step (oneStallBurns (some 2)) id) (.start 1 9) [reportStall false, reportStall true, reportNothing, reportNothing] = some s ∧
      s.loop.isBurned "a" = false ∧ (s.reports "a").ShowsBurned (oneStallBurns (some 2)) := by
  refine ⟨_, rfl, by decide, .inr ?_⟩
  decide

end Kookr.Server.BurnLoop
