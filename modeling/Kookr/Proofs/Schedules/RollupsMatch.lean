import Kookr.Lib.MapRelation
import Kookr.Sanity.Schedules.RowChanges
import Kookr.Spec.Schedules.ScheduleRollup

/-! The rollups of the store are those of the ledgers, after every operation in every order. Every write
of a row brings its rollup with it, a deploy brings all of them, and a stored rollup is trusted only
where it is equal to the one of the ledger. -/

namespace Kookr.Schedules

open Kookr.Lib List OrderedMap

variable {ν : Type}

namespace ScheduleRollup

variable {a b c : ScheduleRollup ν}

/-- The same numbers, materialized at any time. -/
structure Same (a b : ScheduleRollup ν) : Prop where
  scheduleId : a.scheduleId = b.scheduleId
  fires : a.fires = b.fires
  outcomes : ∀ outcome, a.outcomes.get outcome = b.outcomes.get outcome
  measuredFires : a.measuredFires = b.measuredFires
  merged : a.merged = b.merged
  liveVerified : a.liveVerified = b.liveVerified
  costUsd : a.costUsd = b.costUsd
  tokens : a.tokens = b.tokens
  artifacts : a.artifacts = b.artifacts
  windowStart : a.windowStart = b.windowStart
  windowEnd : a.windowEnd = b.windowEnd

theorem Same.updatedAt (a : ScheduleRollup ν) (now : ℕ) : Same { a with updatedAt := now } a :=
  ⟨rfl, rfl, fun _ => rfl, rfl, rfl, rfl, rfl, rfl, rfl, rfl, rfl⟩

theorem Same.trans (h : Same a b) (h' : Same b c) : Same a c where
  scheduleId := h.scheduleId.trans h'.scheduleId
  fires := h.fires.trans h'.fires
  outcomes outcome := (h.outcomes outcome).trans (h'.outcomes outcome)
  measuredFires := h.measuredFires.trans h'.measuredFires
  merged := h.merged.trans h'.merged
  liveVerified := h.liveVerified.trans h'.liveVerified
  costUsd := h.costUsd.trans h'.costUsd
  tokens := h.tokens.trans h'.tokens
  artifacts := h.artifacts.trans h'.artifacts
  windowStart := h.windowStart.trans h'.windowStart
  windowEnd := h.windowEnd.trans h'.windowEnd

/-- A trusted rollup is the recomputed one. -/
theorem same_of_rollupsEqual [DecidableEq ν] (h : rollupsEqual a b = true) : Same a b := by
  simp only [rollupsEqual, Bool.and_eq_true, decide_eq_true_eq, all_eq_true] at h
  obtain ⟨⟨⟨⟨⟨⟨⟨⟨⟨⟨⟨hid, hfires⟩, hmeasured⟩, hmerged⟩, hlive⟩, hcost⟩, htokens⟩, hartifacts⟩, hstart⟩, hend⟩, hsize⟩, hkeys⟩ := h
  exact ⟨hid, hfires, get_eq_of_size_eq hsize hkeys, hmeasured, hmerged, hlive, hcost, htokens, hartifacts, hstart, hend⟩

end ScheduleRollup

namespace ScheduleStore

open ScheduleRows ScheduleRollup

variable {s s' : ScheduleStore ν} {rows : ScheduleRows ν} {live : List String} {rollups : OrderedMap String (ScheduleRollup ν)}

theorem mem_readCommits {persisted : Option (PersistedRollups ν)} {commit : String} :
    commit ∈ ScheduleRollupStore.readCommits persisted ↔ commit ∈ persisted.elim [] PersistedRollups.liveVerifiedCommits ∧ commit ≠ "" := by
  rw [ScheduleRollupStore.readCommits, OrderedSet.mem_ofList, mem_filter, decide_eq_true_eq]

theorem mem_mergeCommits_ne {commit : String} (h : commit ∈ s.mergeCommits) : commit ≠ "" := by
  obtain ⟨schedule, -, hcommit⟩ := mem_flatMap.1 (OrderedSet.mem_ofList.1 h)
  obtain ⟨entry, -, hmerged⟩ := mem_filterMap.1 hcommit
  have hfilter := (Option.filter_eq_some_iff.1 hmerged).2
  exact of_decide_eq_true hfilter

variable [Zero ν] [Add ν] (schedule : Schedule ν)

theorem computeScheduleRollup_now (now now' : ℕ) (live : List String) :
    computeScheduleRollup schedule now live = { computeScheduleRollup schedule now' live with updatedAt := now } := by
  have hfold (ledger : List (ScheduleExecutionLedgerEntry ν)) (r : ScheduleRollup ν) :
      ledger.foldl (addEntry live) { r with updatedAt := now } = { ledger.foldl (addEntry live) r with updatedAt := now } := by
    induction ledger generalizing r with
    | nil => rfl
    | cons entry ledger ih =>
      rw [foldl_cons, foldl_cons, ← ih]
      rfl
  exact hfold schedule.executionLedger ⟨schedule.id, schedule.executionLedger.length, .empty, 0, 0, 0, 0, 0, 0, none, none, now'⟩

theorem same_compute (now now' : ℕ) (live : List String) :
    Same (computeScheduleRollup schedule now live) (computeScheduleRollup schedule now' live) := by
  rw [computeScheduleRollup_now schedule now now' live]
  exact Same.updatedAt _ _

/-- Every schedule in use has the rollup of its ledger, and an archived or absent one has none. -/
structure Matches (rows : ScheduleRows ν) (live : List String) (rollups : OrderedMap String (ScheduleRollup ν)) : Prop where
  used : ∀ schedule, rows.get schedule.id = some schedule → schedule.archived = false →
    ∃ rollup, rollups.get schedule.id = some rollup ∧ ∀ now, Same rollup (computeScheduleRollup schedule now live)
  archived : ∀ schedule, rows.get schedule.id = some schedule → schedule.archived = true → rollups.get schedule.id = none
  absent : ∀ id, rows.get id = none → rollups.get id = none

/-- Every schedule in use gets its rollup, whatever was there before of the others being none. -/
theorem Matches.fill (hothers : ∀ id, (∀ schedule, rows.get id = some schedule → schedule.archived = true) → rollups.get id = none)
    {rollup : Schedule ν → ScheduleRollup ν} (hrollup : ∀ schedule now, Same (rollup schedule) (computeScheduleRollup schedule now live)) :
    Matches rows live (rows.list.foldl (fun rollups schedule => rollups.set schedule.id (rollup schedule)) rollups) := by
  have hrest (id : String) (hid : ∀ schedule, rows.get id = some schedule → schedule.archived = true) :
      (rows.list.foldl (fun rollups schedule => rollups.set schedule.id (rollup schedule)) rollups).get id = none := by
    refine (get_foldl_set_of_not_mem Schedule.id rollup (fun hmem => ?_) rollups).trans (hothers id hid)
    obtain ⟨schedule, hschedule, rfl⟩ := mem_map.1 hmem
    obtain ⟨hget, hused⟩ := mem_list.1 hschedule
    rw [hid schedule hget] at hused
    cases hused
  refine ⟨fun schedule hget hused => ?_, fun schedule hget harchived => ?_, fun id hnone => ?_⟩
  · have hmem : schedule ∈ rows.list := mem_list.2 ⟨hget, hused⟩
    exact ⟨rollup schedule, get_foldl_set_of_mem Schedule.id rollup (nodup_ids rows) hmem rollups, hrollup schedule⟩
  · refine hrest schedule.id fun schedule' hget' => ?_
    obtain rfl := Option.some.inj (hget.symm.trans hget')
    exact harchived
  · refine hrest id fun schedule hget => ?_
    rw [hnone] at hget
    cases hget

theorem Matches.put (h : Matches rows live rollups) (schedule : Schedule ν) (now : ℕ) : Matches (rows.replace schedule) live
      (if schedule.archived then rollups.delete schedule.id else rollups.set schedule.id (computeScheduleRollup schedule now live)) := by
  have hother (id : String) (hne : schedule.id ≠ id) :
      (if schedule.archived then rollups.delete schedule.id else rollups.set schedule.id (computeScheduleRollup schedule now live)).get id =
        rollups.get id := by
    split
    · rw [get_delete, if_neg hne]
    · rw [get_set_of_ne _ _ hne]
  refine ⟨fun schedule' hget hused => ?_, fun schedule' hget harchived => ?_, fun id hnone => ?_⟩
  · rw [get_replace] at hget
    split at hget
    · cases hget
      exact ⟨_, by rw [hused]; exact get_set_self _ _ _, fun now' => same_compute schedule now now' live⟩
    · next hne =>
      rw [hother _ hne]
      exact h.used schedule' hget hused
  · rw [get_replace] at hget
    split at hget
    · cases hget
      rw [harchived, if_pos rfl, get_delete, if_pos rfl]
    · next hne =>
      rw [hother _ hne]
      exact h.archived schedule' hget harchived
  · rw [get_replace] at hnone
    split at hnone
    · cases hnone
    · next hne =>
      rw [hother _ hne]
      exact h.absent id hnone

theorem Matches.delete (h : Matches rows live rollups) (id : String) : Matches (rows.delete id) live (rollups.delete id) := by
  have hget (id' : String) : (rows.delete id).get id' = if id = id' then none else rows.get id' := get_delete rows.rows id id'
  refine ⟨fun schedule hschedule hused => ?_, fun schedule hschedule harchived => ?_, fun id' hnone => ?_⟩
  · rw [hget, Option.ite_none_left_eq_some] at hschedule
    rw [get_delete, if_neg hschedule.1]
    exact h.used schedule hschedule.2 hused
  · rw [hget, Option.ite_none_left_eq_some] at hschedule
    rw [get_delete, if_neg hschedule.1]
    exact h.archived schedule hschedule.2 harchived
  · rw [get_delete]
    split
    · rfl
    · next hne =>
      rw [hget, if_neg hne] at hnone
      exact h.absent id' hnone

/-- The verified commits are texts, in the rollups and in the deploys under way. -/
structure Inv (s : ScheduleStore ν) : Prop where
  rollups : Matches s.schedules s.rollupStore.liveVerifiedCommits s.rollupStore.rollups
  commits : ∀ commit ∈ s.rollupStore.liveVerifiedCommits, commit ≠ ""
  deploys : ∀ deploy ∈ s.deploys, ∀ commit ∈ deploy.candidates ++ deploy.verified, commit ≠ ""

theorem inv_empty : Inv (empty : ScheduleStore ν) where
  rollups := ⟨fun _ h => (by cases h), fun _ h => (by cases h), fun _ _ => rfl⟩
  commits _ h := by cases h
  deploys _ h := by cases h

theorem Inv.put (h : Inv s) (schedule : Schedule ν) (now : ℕ) : Inv (s.put schedule now) := by
  have hmatches := h.rollups.put schedule now
  unfold ScheduleStore.put
  split
  · next harchived =>
    rw [if_pos harchived] at hmatches
    exact ⟨hmatches, h.commits, h.deploys⟩
  · next hused =>
    rw [if_neg hused] at hmatches
    exact ⟨hmatches, h.commits, h.deploys⟩

theorem Inv.putSome (h : Inv s) (schedule : Option (Schedule ν)) (now : ℕ) : Inv (s.putSome schedule now) := by
  cases schedule with
  | none => exact h
  | some schedule => exact h.put schedule now

theorem Inv.delete (h : Inv s) (id : String) : Inv (s.delete id) := by
  unfold ScheduleStore.delete
  split
  · exact ⟨h.rollups.delete id, h.commits, h.deploys⟩
  · exact h

theorem same_loaded [DecidableEq ν] (persisted : Option (PersistedRollups ν)) (now now' : ℕ) (schedule : Schedule ν) :
    Same (ScheduleRollupStore.loaded persisted now schedule)
      (computeScheduleRollup schedule now' (ScheduleRollupStore.readCommits persisted)) := by
  unfold ScheduleRollupStore.loaded
  dsimp only
  split
  · exact same_compute schedule now now' _
  · split
    · next hequal => exact (same_of_rollupsEqual hequal).trans (same_compute schedule now now' _)
    · exact same_compute schedule now now' _

theorem Inv.load [DecidableEq ν] (h : Inv s) (file : ScheduleFile ν) (persisted : Option (PersistedRollups ν)) (now : ℕ) :
    Inv (s.load file persisted now) where
  rollups := Matches.fill (fun _ _ => rfl) fun schedule now' => same_loaded persisted now now' schedule
  commits _ hcommit := (mem_readCommits.1 hcommit).2
  deploys := h.deploys

theorem Inv.applyDeploy (h : Inv s) {deploy : DeployCheck} (hverified : ∀ commit ∈ deploy.verified, commit ≠ "") (now : ℕ) :
    Inv (s.applyDeploy deploy now) where
  rollups := by
    refine Matches.fill (fun id hid => ?_) fun schedule now' => same_compute schedule now now' _
    cases hget : s.schedules.get id with
    | none => exact h.rollups.absent id hget
    | some schedule =>
      have hkey : schedule.id = id := s.schedules.keyed id schedule hget
      subst hkey
      exact h.rollups.archived schedule hget (hid schedule hget)
  commits commit hcommit := by
    rcases OrderedSet.mem_addAll.1 hcommit with hold | hnew
    · exact h.commits commit hold
    · exact hverified commit hnew
  deploys := h.deploys

theorem Inv.recordDeployVerification (h : Inv s) (deployedSha : String) (now : ℕ) : Inv (s.recordDeployVerification deployedSha now) := by
  unfold ScheduleStore.recordDeployVerification
  split
  · exact h.applyDeploy (fun _ hcommit => by cases hcommit) now
  · next commit rest hcandidates =>
    refine ⟨h.rollups, h.commits, fun deploy hdeploy => ?_⟩
    rcases mem_append.1 hdeploy with hold | hnew
    · exact h.deploys deploy hold
    · obtain rfl := mem_singleton.1 hnew
      intro commit' hcommit'
      rw [append_nil, ← hcandidates] at hcommit'
      exact mem_mergeCommits_ne hcommit'

theorem Inv.contained (h : Inv s) {i : ℕ} {answer : Option Bool} {now : ℕ} (hstep : s.contained i answer now = some s') : Inv s' := by
  obtain ⟨deploy, hget, hstep⟩ := Option.bind_eq_some_iff.1 hstep
  have hcommits := h.deploys deploy (mem_of_getElem? hget)
  have hleft : Inv { s with deploys := s.deploys.eraseIdx i } :=
    ⟨h.rollups, h.commits, fun deploy' hmem => h.deploys deploy' ((eraseIdx_sublist _ _).subset hmem)⟩
  split at hstep
  · cases hstep
  · cases hstep
    exact hleft
  · next commit rest isContained hcandidates _ =>
    rw [hcandidates] at hcommits
    have hafter : ∀ commit' ∈ rest ++ if isContained then deploy.verified ++ [commit] else deploy.verified, commit' ≠ "" := by
      intro commit' hmem
      apply hcommits
      cases isContained <;> simp at hmem ⊢ <;> tauto
    dsimp only at hstep
    split at hstep
    · cases hstep
      exact hleft.applyDeploy (fun commit' hmem => hafter commit' (mem_append_right _ hmem)) now
    · cases hstep
      refine ⟨h.rollups, h.commits, fun deploy' hmem => ?_⟩
      rcases mem_or_eq_of_mem_set hmem with hold | rfl
      · exact h.deploys deploy' hold
      · exact hafter

theorem inv_step [DecidableEq ν] {e : StoreEvent ν × ℕ} (h : Inv s) (hstep : step s e = some s') : Inv s' := by
  obtain ⟨event, now⟩ := e
  cases event with
  | load file rollups =>
    cases hstep
    exact h.load file rollups now
  | create | updateDefinition | setEnabled | archive | unarchive =>
    cases hstep
    exact h.putSome _ now
  | delete id =>
    cases hstep
    exact h.delete id
  | replace schedule =>
    cases hstep
    exact h.put schedule now
  | recordDeployVerification deployedSha =>
    cases hstep
    exact h.recordDeployVerification deployedSha now
  | contained i answer => exact h.contained hstep

/-- A load takes the commits of the file. -/
def StoreEvent.isLoad : StoreEvent ν → Bool
  | .load .. => true
  | _ => false

theorem live_put (now : ℕ) : (s.put schedule now).rollupStore.liveVerifiedCommits = s.rollupStore.liveVerifiedCommits := by
  unfold ScheduleStore.put
  split <;> rfl

theorem live_putSome (schedule : Option (Schedule ν)) (now : ℕ) :
    (s.putSome schedule now).rollupStore.liveVerifiedCommits = s.rollupStore.liveVerifiedCommits := by
  cases schedule with
  | none => rfl
  | some schedule => exact live_put schedule now

theorem live_contained {i : ℕ} {answer : Option Bool} {now : ℕ} (hstep : s.contained i answer now = some s') :
    s.rollupStore.liveVerifiedCommits ⊆ s'.rollupStore.liveVerifiedCommits := by
  obtain ⟨deploy, -, hstep⟩ := Option.bind_eq_some_iff.1 hstep
  split at hstep
  · cases hstep
  · cases hstep
    exact List.Subset.refl _
  · dsimp only at hstep
    split at hstep
    · cases hstep
      exact OrderedSet.subset_addAll _ _
    · cases hstep
      exact List.Subset.refl _

theorem live_step [DecidableEq ν] {e : StoreEvent ν × ℕ} (hload : StoreEvent.isLoad e.1 = false) (hstep : step s e = some s') :
    s.rollupStore.liveVerifiedCommits ⊆ s'.rollupStore.liveVerifiedCommits := by
  obtain ⟨event, now⟩ := e
  cases event with
  | load file rollups => cases hload
  | create | updateDefinition | setEnabled | archive | unarchive =>
    cases hstep
    rw [live_putSome]
    exact List.Subset.refl _
  | delete id =>
    cases hstep
    unfold ScheduleStore.delete
    split <;> exact List.Subset.refl _
  | replace schedule =>
    cases hstep
    rw [live_put]
    exact List.Subset.refl _
  | recordDeployVerification deployedSha =>
    cases hstep
    unfold ScheduleStore.recordDeployVerification
    split
    · exact OrderedSet.subset_addAll _ _
    · exact List.Subset.refl _
  | contained i answer => exact live_contained hstep

/-- What every state of the store keeps: the rollups are those of the ledgers, no operation but a load
takes a verified commit away, and a load of what was written takes none away either. -/
structure RollupsCorrect [DecidableEq ν] (s : ScheduleStore ν) : Prop where
  used : ∀ id schedule, s.schedules.get id = some schedule → schedule.archived = false →
    ∃ rollup, s.getRollup id = some rollup ∧ ∀ now, Same rollup (computeScheduleRollup schedule now s.rollupStore.liveVerifiedCommits)
  archived : ∀ id schedule, s.schedules.get id = some schedule → schedule.archived = true → s.getRollup id = none
  absent : ∀ id, s.schedules.get id = none → s.getRollup id = none
  grows : ∀ e s', StoreEvent.isLoad e.1 = false → step s e = some s' →
    s.rollupStore.liveVerifiedCommits ⊆ s'.rollupStore.liveVerifiedCommits
  reloaded : ∀ (s' : ScheduleStore ν) file now commit,
    commit ∈ (s'.load file (some s.rollupStore.persisted) now).rollupStore.liveVerifiedCommits ↔ commit ∈ s.rollupStore.liveVerifiedCommits

theorem Inv.correct [DecidableEq ν] (h : Inv s) : RollupsCorrect s where
  used id schedule hget hused := by
    have hkey : schedule.id = id := s.schedules.keyed id schedule hget
    subst hkey
    exact h.rollups.used schedule hget hused
  archived id schedule hget harchived := by
    have hkey : schedule.id = id := s.schedules.keyed id schedule hget
    subst hkey
    exact h.rollups.archived schedule hget harchived
  absent := h.rollups.absent
  grows _ _ := live_step
  reloaded _ _ _ commit := mem_readCommits.trans (and_iff_left_of_imp (h.commits commit))

theorem rollups_correct [DecidableEq ν] (events : List (StoreEvent ν × ℕ)) (s : ScheduleStore ν) (hrun : exec step empty events = some s) :
    RollupsCorrect s :=
  (exec_preserves (fun _ _ _ => inv_step) inv_empty hrun).correct

/-- A schedule with a merged unit, loaded with a rollup that says otherwise. While a deploy waits for its
commit another schedule is archived and the first one is written anew. -/
def deployRun : List (StoreEvent ℕ × ℕ) :=
  let merged : ScheduleExecutionLedgerEntry ℕ :=
    ⟨.slot .cron 5, some 0, .cron, .cronDue, some 5, 5, some 9, .completed, none, some "t", none, ⟨some ⟨1, 2, 3, 4, 5⟩, none, some "c0ffee"⟩⟩
  let schedule : Schedule ℕ := { (Schedule.created "s" ⟨"* * * * *", false, false⟩ true none 0 : Schedule ℕ) with executionLedger := [merged] }
  [(.load (.rows [schedule]) (some ⟨[⟨"s", 1, .empty, 1, 1, 1, 5, 10, 0, some 5, some 9, 0⟩], ["", "beef"], none⟩), 10),
    (.create "other" ⟨"* * * * *", false, false⟩ true none, 11), (.recordDeployVerification "sha", 12), (.archive "other", 13),
    (.replace { schedule with enabled := false }, 14), (.contained 0 (some true), 15)]

theorem rollups_correct_deployRun : ∃ s : ScheduleStore ℕ, exec step empty deployRun = some s ∧ RollupsCorrect s := by
  have hsome : (exec step (empty : ScheduleStore ℕ) deployRun).isSome = true := by decide +kernel
  obtain ⟨s, hrun⟩ := Option.isSome_iff_exists.1 hsome
  exact ⟨s, hrun, rollups_correct deployRun s hrun⟩

end ScheduleStore

end Kookr.Schedules
