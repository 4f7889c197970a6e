import Mathlib.Algebra.BigOperators.Group.Finset.Piecewise
import Mathlib.Algebra.Ring.Rat
import Mathlib.Tactic.Abel
import Mathlib.Algebra.Order.Ring.Unbundled.Rat
import Kookr.Lib.Exec
import Kookr.Lib.History
import Kookr.Spec.Core.TaskStore

/-! What all tasks together have cost. The store adds up differences to the cost reported before, and
keeps a report that it refuses as the one before the next. The total is right in every run in which
what comes before an accepted report was accepted. -/

namespace Kookr.Core

open Kookr.Lib Option

variable {ν : Type}

section Spend

variable [AddCommGroupWithOne ν] [LinearOrder ν]

def acceptedCost (cost : Option ν) : Option ν := cost.filter fun cost => 0 ≤ cost

/-- The store, the tasks that it ever had, and the reports that it accepted. -/
structure SpendHistory (ν : Type) where
  store : TaskStore ν
  created : Finset String
  accepted : List (String × ν)

inductive SpendCall (ν : Type) where
  | createTask (opts : CreateTaskOptions) (id : String) (id_ne : id ≠ "") (relationId : String) (now : Timestamp)
  | deleteTask (id : String) (now : Timestamp)
  | updateTokenUsage (taskId : String) (usage : TokenUsage ν) (now : Timestamp)

namespace SpendHistory

def new : SpendHistory ν := ⟨.new, ∅, []⟩

/-- `none` is a call that throws. No two tasks get one id. -/
def call (h : SpendHistory ν) : SpendCall ν → Option (SpendHistory ν)
  | .createTask opts id id_ne relationId now =>
    if id ∈ h.created then none
    else (h.store.createTask opts id id_ne relationId now).map fun store => { h with store, created := insert id h.created }
  | .deleteTask id now => (h.store.deleteTask id now).map fun store => { h with store }
  | .updateTokenUsage taskId usage now =>
    (h.store.updateTokenUsage taskId usage now).map fun store =>
      { h with store, accepted := h.accepted ++ (acceptedCost usage.costUsd).toList.map fun cost => (taskId, cost) }

/-- A call that throws changes nothing. -/
def step (h : SpendHistory ν) (c : SpendCall ν) : Option (SpendHistory ν) := some ((h.call c).getD h)

def lastAccepted (h : SpendHistory ν) (id : String) : Option ν :=
  lastOf (fun report => if report.1 = id then some report.2 else none) h.accepted

/-- The total is the sum of the last accepted costs, and what is refused leaves it. -/
structure Accounted (h : SpendHistory ν) : Prop where
  total : h.store.lifetimeSpendUsd = ∑ id ∈ h.created, (h.lastAccepted id).getD 0
  refused : ∀ taskId usage now store, h.store.updateTokenUsage taskId usage now = some store → acceptedCost usage.costUsd = none →
    store.lifetimeSpendUsd = h.store.lifetimeSpendUsd

def FollowsAccepted (h : SpendHistory ν) : SpendCall ν → Prop
  | .updateTokenUsage taskId usage _ => acceptedCost usage.costUsd = none ∨
      (((h.store.tasks.get taskId).bind Task.tokenUsage).all fun before => (acceptedCost before.costUsd).isSome) = true
  | _ => True

instance FollowsAccepted.decidable (h : SpendHistory ν) (c : SpendCall ν) : Decidable (h.FollowsAccepted c) := by
  unfold FollowsAccepted
  split <;> infer_instance

end SpendHistory

end Spend

namespace TaskStore

variable {s s' : TaskStore ν} {id : String} {now : Timestamp}

/-- The report kept with a task that is there. -/
def usageOf (s : TaskStore ν) (id : String) : Option (Option (TokenUsage ν)) := (s.tasks.get id).map Task.tokenUsage

theorem usageOf_setTask {task : Task ν} (id : String) (usage : Option (TokenUsage ν)) (hid : task.id = id)
    (husage : task.tokenUsage = usage) (other : String) : (s.setTask task).usageOf other = if id = other then some usage else s.usageOf other := by
  rw [← hid, ← husage]
  unfold usageOf setTask
  rw [OrderedMap.get_set]
  split <;> rfl

theorem usageOf_getTaskForMutation {mutator : Task ν → Task ν} (h : s.getTaskForMutation id mutator = some s')
    (hmutator : ∀ task, (mutator task).tokenUsage = task.tokenUsage) :
    s'.lifetimeSpendUsd = s.lifetimeSpendUsd ∧ ∀ other, s'.usageOf other = s.usageOf other := by
  obtain ⟨task, htask, rfl⟩ := map_eq_some_iff.1 h
  refine ⟨rfl, fun other => ?_⟩
  refine Eq.trans (usageOf_setTask id task.tokenUsage ?_ ?_ other) ?_
  · exact s.tasks_keyed id task htask
  · exact hmutator task
  · split
    · next heq => rw [← heq, usageOf, htask, map_some]
    · rfl

theorem deleteTask_usageOf (h : s.deleteTask id now = some s') :
    s'.lifetimeSpendUsd = s.lifetimeSpendUsd ∧ ∀ other, s'.usageOf other = if id = other then none else s.usageOf other := by
  have hremoved (s : TaskStore ν) (other : String) :
      ((s.removeTask id).dropRelations id).usageOf other = if id = other then none else s.usageOf other := by
    unfold usageOf removeTask dropRelations
    rw [OrderedMap.get_delete]
    split <;> rfl
  unfold deleteTask at h
  split at h
  · cases h
  · split at h
    · cases h
    · obtain rfl := some.inj h
      -- the parent forgets its child first, where there is one
      generalize hunlinked : Option.bind _ _ = unlinked
      cases unlinked with
      | none => exact ⟨rfl, hremoved s⟩
      | some unlinked =>
        obtain ⟨parentTaskId, -, hparent⟩ := bind_eq_some_iff.1 hunlinked
        obtain ⟨parent, -, hchildren⟩ := bind_eq_some_iff.1 hparent
        obtain ⟨childTaskIds, -, hmutated⟩ := bind_eq_some_iff.1 hchildren
        obtain ⟨hspend, husage⟩ := usageOf_getTaskForMutation hmutated fun _ => rfl
        refine ⟨hspend, fun other => ?_⟩
        rw [getD_some, hremoved, husage]

variable [AddCommGroupWithOne ν] [LinearOrder ν]

theorem upsertRelation_tasks {input : TaskRelationInput ν} {uuid nowIso : String} (h : s.upsertRelation input uuid nowIso = some s') :
    s'.lifetimeSpendUsd = s.lifetimeSpendUsd ∧ s'.tasks = s.tasks := by
  unfold upsertRelation at h
  split at h
  · cases h
  · split at h <;>
    · obtain rfl := some.inj h
      exact ⟨rfl, rfl⟩

theorem createTask_usageOf {opts : CreateTaskOptions} {id_ne : id ≠ ""} {relationId : String}
    (h : s.createTask opts id id_ne relationId now = some s') :
    s'.lifetimeSpendUsd = s.lifetimeSpendUsd ∧ ∀ other, s'.usageOf other = if id = other then some none else s.usageOf other := by
  unfold createTask at h
  split at h
  · obtain rfl := some.inj h
    exact ⟨rfl, usageOf_setTask _ _ rfl rfl⟩
  · split at h
    · obtain ⟨linked, hlinked, hrelated⟩ := bind_eq_some_iff.1 h
      obtain ⟨hspend, husage⟩ := usageOf_getTaskForMutation hlinked fun _ => rfl
      obtain ⟨hspend', htasks⟩ := upsertRelation_tasks hrelated
      refine ⟨hspend'.trans hspend, fun other => ?_⟩
      rw [usageOf, htasks]
      exact (husage other).trans (usageOf_setTask _ _ rfl rfl other)
    · cases h

theorem updateTokenUsage_usageOf {usage : TokenUsage ν} (h : s.updateTokenUsage id usage now = some s') :
    ∃ before, s.usageOf id = some before ∧
      s'.lifetimeSpendUsd = s.lifetimeSpendUsd + ((acceptedCost usage.costUsd).bind fun cost =>
        ((before.map TokenUsage.costUsd).getD (some 0)).map fun previous => cost - previous).getD 0 ∧
      ∀ other, s'.usageOf other = if id = other then some (some usage) else s.usageOf other := by
  obtain ⟨task, htask, rfl⟩ := map_eq_some_iff.1 h
  generalize hprevious : (task.tokenUsage.map TokenUsage.costUsd).getD (some 0) = previousCost
  refine ⟨task.tokenUsage, by rw [usageOf, htask, map_some], ?_, fun other => ?_⟩
  · rw [hprevious]
    cases usage.costUsd with
    | none => simp [acceptedCost, setTask]
    | some cost =>
      cases previousCost with
      | none => simp [setTask]
      | some previous => by_cases hcost : 0 ≤ cost <;> simp [acceptedCost, Option.filter, setTask, markMetaDirty, hcost]
  · refine Eq.trans (usageOf_setTask id (some usage) ?_ rfl other) ?_
    · exact s.tasks_keyed id task htask
    · cases usage.costUsd with
      | none => rfl
      | some cost =>
        cases previousCost with
        | none => rfl
        | some previous => by_cases hcost : 0 ≤ cost <;> simp [usageOf, markMetaDirty, hcost]

end TaskStore

namespace SpendHistory

variable {h h' : SpendHistory ν} {c : SpendCall ν}

theorem lastAccepted_append (store : TaskStore ν) (created : Finset String) (taskId other : String) (cost : Option ν) :
    lastAccepted ⟨store, created, h.accepted ++ cost.toList.map fun cost => (taskId, cost)⟩ other =
      if taskId = other then cost.or (h.lastAccepted other) else h.lastAccepted other := by
  unfold lastAccepted
  cases cost <;> by_cases heq : taskId = other <;> simp [lastOf, heq]

variable [AddCommGroupWithOne ν] {id : String}

theorem sum_change {f g : String → ν} {ids : Finset String} (hid : id ∈ ids) (hsame : ∀ other, id ≠ other → f other = g other) :
    ∑ other ∈ ids, f other = ∑ other ∈ ids, g other + (f id - g id) := by
  have hrest : ∑ other ∈ ids.erase id, f other = ∑ other ∈ ids.erase id, g other :=
    Finset.sum_congr rfl fun other hother => hsame other (Finset.ne_of_mem_erase hother).symm
  rw [← Finset.add_sum_erase ids f hid, ← Finset.add_sum_erase ids g hid, hrest]
  abel

variable [LinearOrder ν] {store : TaskStore ν}

/-- The total is right, and the reports kept are the last accepted ones, where they were accepted. -/
structure Books (h : SpendHistory ν) : Prop where
  total : h.store.lifetimeSpendUsd = ∑ id ∈ h.created, (h.lastAccepted id).getD 0
  unreported : ∀ id, h.store.usageOf id = some none → h.lastAccepted id = none
  kept : ∀ id usage, h.store.usageOf id = some (some usage) → ∀ cost, acceptedCost usage.costUsd = some cost → h.lastAccepted id = some cost
  known : ∀ id before, h.store.usageOf id = some before → id ∈ h.created
  reported : ∀ report ∈ h.accepted, report.1 ∈ h.created

theorem lastAccepted_unknown (hbooks : Books h) (hid : id ∉ h.created) : h.lastAccepted id = none := by
  refine lastOf_eq_none fun report hreport => if_neg ?_
  rintro rfl
  exact hid (hbooks.reported report hreport)

theorem books_createTask (hbooks : Books h) {opts : CreateTaskOptions} {id_ne : id ≠ ""} {relationId : String}
    {now : Timestamp} (hid : id ∉ h.created) (hcreate : h.store.createTask opts id id_ne relationId now = some store) :
    Books { h with store, created := insert id h.created } := by
  obtain ⟨hspend, husage⟩ := TaskStore.createTask_usageOf hcreate
  have hnone := lastAccepted_unknown hbooks hid
  constructor
  · show store.lifetimeSpendUsd = ∑ id ∈ insert id h.created, (h.lastAccepted id).getD 0
    rw [Finset.sum_insert hid, hnone, hspend, hbooks.total, getD_none, zero_add]
  · intro other hother
    rw [husage] at hother
    split at hother
    · next heq => exact heq ▸ hnone
    · exact hbooks.unreported other hother
  · intro other usage hother
    rw [husage] at hother
    split at hother
    · cases hother
    · exact hbooks.kept other usage hother
  · intro other before hother
    rw [husage] at hother
    split at hother
    · next heq => exact heq ▸ Finset.mem_insert_self _ _
    · exact Finset.mem_insert_of_mem (hbooks.known other before hother)
  · exact fun report hreport => Finset.mem_insert_of_mem (hbooks.reported report hreport)

theorem books_deleteTask (hbooks : Books h) {now : Timestamp}
    (hdelete : h.store.deleteTask id now = some store) : Books { h with store } := by
  obtain ⟨hspend, husage⟩ := TaskStore.deleteTask_usageOf hdelete
  have hstill {other : String} {before : Option (TokenUsage ν)} (hother : store.usageOf other = some before) :
      h.store.usageOf other = some before := by
    rw [husage] at hother
    split at hother
    · cases hother
    · exact hother
  exact ⟨hspend.trans hbooks.total, fun other hother => hbooks.unreported other (hstill hother),
    fun other usage hother => hbooks.kept other usage (hstill hother), fun other before hother => hbooks.known other before (hstill hother),
    hbooks.reported⟩

theorem previous_eq (hbooks : Books h) {before : Option (TokenUsage ν)} (hbefore : h.store.usageOf id = some before)
    (hok : (before.all fun before => (acceptedCost before.costUsd).isSome) = true) :
    (before.map TokenUsage.costUsd).getD (some 0) = some ((h.lastAccepted id).getD 0) := by
  cases before with
  | none => simp [hbooks.unreported id hbefore]
  | some usage =>
    obtain ⟨cost, hcost⟩ := isSome_iff_exists.1 hok
    rw [hbooks.kept id usage hbefore cost hcost]
    exact (filter_eq_some_iff.1 hcost).1

theorem books_updateTokenUsage (hbooks : Books h) {usage : TokenUsage ν} {now : Timestamp}
    (hok : h.FollowsAccepted (.updateTokenUsage id usage now)) (hupdate : h.store.updateTokenUsage id usage now = some store) :
    Books { h with store, accepted := h.accepted ++ (acceptedCost usage.costUsd).toList.map fun cost => (id, cost) } := by
  obtain ⟨before, hbefore, hspend, husage⟩ := TaskStore.updateTokenUsage_usageOf hupdate
  have hid : id ∈ h.created := hbooks.known id before hbefore
  constructor
  · have hsame (other : String) (hne : id ≠ other) :
        (lastAccepted ⟨store, h.created, h.accepted ++ (acceptedCost usage.costUsd).toList.map fun cost => (id, cost)⟩ other).getD 0 =
          (h.lastAccepted other).getD 0 := by
      rw [lastAccepted_append, if_neg hne]
    rw [sum_change hid hsame, hspend, hbooks.total, lastAccepted_append]
    -- what is refused adds nothing, and what is accepted adds the difference to the last
    rcases hok with hrefused | haccepted
    · simp [hrefused]
    · obtain ⟨task, htask, rfl⟩ := map_eq_some_iff.1 hbefore
      rw [htask] at haccepted
      rw [previous_eq hbooks hbefore haccepted]
      cases acceptedCost usage.costUsd <;> simp
  · intro other hother
    rw [lastAccepted_append]
    rw [husage] at hother
    split at hother
    · cases hother
    · next hne => rw [if_neg hne, hbooks.unreported other hother]
  · intro other usage' hother cost hcost
    rw [lastAccepted_append]
    rw [husage] at hother
    split at hother
    · next heq =>
      obtain rfl := some.inj (some.inj hother)
      rw [if_pos heq, hcost, some_or]
    · next hne => rw [if_neg hne, hbooks.kept other usage' hother cost hcost]
  · intro other before hother
    rw [husage] at hother
    split at hother
    · next heq => exact heq ▸ hid
    · exact hbooks.known other before hother
  · intro report hreport
    rcases List.mem_append.1 hreport with hold | hnew
    · exact hbooks.reported report hold
    · obtain ⟨cost, -, rfl⟩ := List.mem_map.1 hnew
      exact hid

theorem books_step (hbooks : Books h) (hok : h.FollowsAccepted c) (hstep : h.step c = some h') : Books h' := by
  obtain rfl := some.inj hstep
  cases hcall : h.call c with
  | none => exact hbooks
  | some h'' =>
    cases c with
    | createTask opts id id_ne relationId now =>
      rw [call, ite_none_left_eq_some] at hcall
      obtain ⟨hid, hcreate⟩ := hcall
      obtain ⟨store, hstore, rfl⟩ := map_eq_some_iff.1 hcreate
      exact books_createTask hbooks hid hstore
    | deleteTask id now =>
      obtain ⟨store, hstore, rfl⟩ := map_eq_some_iff.1 hcall
      exact books_deleteTask hbooks hstore
    | updateTokenUsage taskId usage now =>
      obtain ⟨store, hstore, rfl⟩ := map_eq_some_iff.1 hcall
      exact books_updateTokenUsage hbooks hok hstore

theorem books_new : Books (new : SpendHistory ν) where
  total := rfl
  unreported _ _ := rfl
  kept _ _ hother := nomatch hother
  known _ _ hother := nomatch hother
  reported := nofun

theorem refused_keeps {s store : TaskStore ν} {taskId : String} {usage : TokenUsage ν} {now : Timestamp}
    (hupdate : s.updateTokenUsage taskId usage now = some store) (hrefused : acceptedCost usage.costUsd = none) :
    store.lifetimeSpendUsd = s.lifetimeSpendUsd := by
  obtain ⟨before, -, hspend, -⟩ := TaskStore.updateTokenUsage_usageOf hupdate
  rw [hspend, hrefused, bind_none, getD_none, add_zero]

theorem spend_accounted (calls : List (SpendCall ν)) (h : SpendHistory ν) (hrun : exec step new calls = some h)
    (hok : StepsMeet step FollowsAccepted new calls) : Accounted h := by
  have hbooks : Books h := exec_invariant (fun _ _ _ hbooks hok hstep => books_step hbooks hok hstep) books_new hok hrun
  exact ⟨hbooks.total, fun _ _ _ _ hupdate hrefused => refused_keeps hupdate hrefused⟩

theorem nothing_named : ∀ m ∈ ([] : List (String × Json)), m.1 ∉ Task.named := nofun

theorem a_ne : "a" ≠ "" := by decide

theorem b_ne : "b" ≠ "" := by decide

def createPlain (id : String) (id_ne : id ≠ "") : SpendCall ℚ :=
  .createTask ⟨none, none, none, none, none, [], nothing_named⟩ id id_ne "relation" .epoch

def report (taskId : String) (costUsd : Option ℚ) : SpendCall ℚ := .updateTokenUsage taskId ⟨costUsd, [], nofun⟩ .epoch

/-- A task is corrected down and deleted, another ends with a cost that is not finite. -/
def spendRun : List (SpendCall ℚ) :=
  [createPlain "a" a_ne, report "a" (some 4), report "a" (some (5 / 2)), .deleteTask "a" .epoch, report "a" (some 9),
    createPlain "b" b_ne, report "b" (some 3), report "b" none]

theorem spend_accounted_spendRun : ∃ h, exec step new spendRun = some h ∧ StepsMeet step FollowsAccepted new spendRun ∧
    h.store.lifetimeSpendUsd = 11 / 2 ∧ Accounted h := by
  have hok : StepsMeet step FollowsAccepted new spendRun := by decide +kernel
  have hspend : (exec step new spendRun).any (fun h => h.store.lifetimeSpendUsd = 11 / 2) = true := by decide +kernel
  obtain ⟨h, hrun, hspend⟩ := (any_eq_true _ _).1 hspend
  exact ⟨h, hrun, hok, of_decide_eq_true hspend, spend_accounted spendRun h hrun hok⟩

/-- A refused report of −3 makes the next one, of 5, count as 8. -/
theorem refused_report_counts : ¬∀ (calls : List (SpendCall ℚ)) h, exec step new calls = some h → Accounted h := by
  intro hall
  have hwrong : (exec step new [createPlain "a" a_ne, report "a" (some (-3)), report "a" (some 5)]).any
      (fun h => h.store.lifetimeSpendUsd ≠ ∑ id ∈ h.created, (h.lastAccepted id).getD 0) = true := by
    decide +kernel
  obtain ⟨h, hrun, hwrong⟩ := (any_eq_true _ _).1 hwrong
  exact of_decide_eq_true hwrong (hall _ h hrun).total

end SpendHistory

end Kookr.Core
