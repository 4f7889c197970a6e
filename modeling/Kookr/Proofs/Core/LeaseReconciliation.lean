import Kookr.Spec.Core.WorktreeLeases

/-! The leases after a reconciliation. It adds the leases that are missing and drops those that are not used, and leaves every
other as it was, fresh or stale, whoever owns it. -/

namespace Kookr.Core

open Kookr.Lib WorktreeLeases OrderedMap

/-- The entry is an active session that works in the worktree at the path. -/
def Occupies (entry : ActiveSession) (path : String) : Prop := path ≠ "" ∧ entry.session.gitIsWorktree = true ∧ entry.session.cwd = path

/-- Some active session works in the worktree at the path. -/
def Occupied (tasks : WorktreeTasks) (path : String) : Prop := ∃ entry ∈ getActiveSessions tasks, Occupies entry path

/-- The task has an active session in the worktree at the path. -/
def WorksAt (tasks : WorktreeTasks) (taskId path : String) : Prop :=
  ∃ entry ∈ getActiveSessions tasks, entry.taskId = taskId ∧ Occupies entry path

/-- The lease of the path is fresh and of a task that works there; a lease that is missing would be fresh. -/
def LeaseHolds (staleThresholdMs now : ℤ) (leases : WorktreeLeases) (tasks : WorktreeTasks) (path : String) : Prop :=
  match leases.get path with
  | some lease => now - lease.lastHeartbeatAt < staleThresholdMs ∧ WorksAt tasks lease.ownerId path
  | none => 0 < staleThresholdMs

/-- What the loop over the sessions leaves: the leases there were, and one for each path in use that had none. -/
theorem foldlM_backfill (staleThresholdMs now : ℤ) (leases : WorktreeLeases) (entries : List ActiveSession) (active : List String) (count : ℕ) :
    ∃ leases' active' count', entries.foldlM (backfill staleThresholdMs now) (leases, active, count) = .ok (leases', active', count') ∧
      (∀ path, path ∈ active' ↔ path ∈ active ∨ ∃ entry ∈ entries, Occupies entry path) ∧
      (∀ path lease, leases.get path = some lease → leases'.get path = some lease) ∧
      ∀ path, leases.get path = none → (∃ entry ∈ entries, Occupies entry path) →
        ∃ entry ∈ entries, Occupies entry path ∧ leases'.get path = some ⟨path, entry.taskId, now, now⟩ := by
  induction entries generalizing leases active count with
  | nil => exact ⟨leases, active, count, rfl, by simp, fun _ _ h => h, fun _ _ h => by simp at h⟩
  | cons entry entries ih =>
    have hnext : ∃ leases₁ active₁ count₁, backfill staleThresholdMs now (leases, active, count) entry = .ok (leases₁, active₁, count₁) ∧
        (∀ path, path ∈ active₁ ↔ path ∈ active ∨ Occupies entry path) ∧
        (∀ path lease, leases.get path = some lease → leases₁.get path = some lease) ∧
        ∀ path, leases.get path = none → leases₁.get path = none ∧ ¬ Occupies entry path ∨
          Occupies entry path ∧ leases₁.get path = some ⟨path, entry.taskId, now, now⟩ := by
      unfold backfill Occupies
      by_cases hworktree : entry.session.gitIsWorktree = true ∧ entry.session.cwd ≠ ""
      · rw [if_pos hworktree]
        have hactive : ∀ path, path ∈ OrderedSet.add active entry.session.cwd ↔
            path ∈ active ∨ path ≠ "" ∧ entry.session.gitIsWorktree = true ∧ entry.session.cwd = path := by
          intro path
          rw [OrderedSet.mem_add]
          refine or_congr_right ⟨?_, fun h => h.2.2.symm⟩
          rintro rfl
          exact ⟨hworktree.2, hworktree.1, rfl⟩
        cases hget : leases.get entry.session.cwd with
        | some lease =>
          refine ⟨leases, _, count, if_pos (by simp [has, hget]), hactive, fun _ _ h => h, fun path hnone => .inl ⟨hnone, ?_⟩⟩
          rintro ⟨-, -, rfl⟩
          rw [hnone] at hget
          cases hget
        | none =>
          refine ⟨leases.set entry.session.cwd ⟨entry.session.cwd, entry.taskId, now, now⟩, _, count + 1, ?_, hactive, fun path lease h => ?_,
            fun path hnone => ?_⟩
          · simp only [has, hget, Option.isSome_none, Bool.false_eq_true, if_false, acquire]
            rfl
          · rw [get_set, if_neg, h]
            rintro rfl
            rw [hget] at h
            cases h
          · by_cases hpath : entry.session.cwd = path
            · subst hpath
              exact .inr ⟨⟨hworktree.2, hworktree.1, rfl⟩, by rw [get_set, if_pos rfl]⟩
            · exact .inl ⟨by rw [get_set, if_neg hpath, hnone], fun h => hpath h.2.2⟩
      · rw [if_neg hworktree]
        have hnot : ∀ path, ¬ (path ≠ "" ∧ entry.session.gitIsWorktree = true ∧ entry.session.cwd = path) := by
          rintro path ⟨hne, hgit, rfl⟩
          exact hworktree ⟨hgit, hne⟩
        exact ⟨leases, active, count, rfl, fun path => by simp [hnot], fun _ _ h => h, fun path hnone => .inl ⟨hnone, hnot path⟩⟩
    obtain ⟨leases₁, active₁, count₁, hfirst, hactive₁, hkept₁, hnew₁⟩ := hnext
    obtain ⟨leases', active', count', hrest, hactive', hkept', hnew'⟩ := ih leases₁ active₁ count₁
    refine ⟨leases', active', count', ?_, fun path => ?_, fun path lease h => hkept' path lease (hkept₁ path lease h), fun path hnone hsome => ?_⟩
    · rw [List.foldlM_cons, hfirst]
      exact hrest
    · rw [hactive', hactive₁, or_assoc]
      simp
    · rcases hnew₁ path hnone with ⟨hstill, hnot⟩ | ⟨hoccupies, hlease⟩
      · have hlater : ∃ later ∈ entries, Occupies later path := by simpa [hnot] using hsome
        obtain ⟨later, hlater, hoccupies, hlease⟩ := hnew' path hstill hlater
        exact ⟨later, List.mem_cons_of_mem _ hlater, hoccupies, hlease⟩
      · exact ⟨entry, List.mem_cons_self, hoccupies, hkept' path _ hlease⟩

/-- After a reconciliation exactly the paths in use are leased, each to a task that works there, when the leases that were there
for such paths were fresh and rightly owned, and only then. -/
theorem reconciled_leases_iff (staleThresholdMs now : ℤ) (leases : WorktreeLeases) (tasks : WorktreeTasks) :
    ∃ leases' counts, reconcileFromTaskStore staleThresholdMs now leases tasks = .ok (leases', counts) ∧
      (((∀ path, isLeased staleThresholdMs now leases' path = true ↔ Occupied tasks path) ∧
        ∀ path, Occupied tasks path → ∃ lease, leases'.get path = some lease ∧ WorksAt tasks lease.ownerId path) ↔
      ∀ path, Occupied tasks path → LeaseHolds staleThresholdMs now leases tasks path) := by
  obtain ⟨filled, active, count, hfold, hactive, hkept, hnew⟩ :=
    foldlM_backfill staleThresholdMs now leases (getActiveSessions tasks) [] 0
  refine ⟨filled.filter fun path _ => path ∈ active, (count, filled.size - (filled.filter fun path _ => path ∈ active).size), ?_, ?_⟩
  · unfold reconcileFromTaskStore
    rw [hfold]
    rfl
  have hused : ∀ path, path ∈ active ↔ Occupied tasks path := fun path => (hactive path).trans (by simp [Occupied])
  have hget : ∀ path, (filled.filter fun path _ => path ∈ active).get path = if path ∈ active then filled.get path else none := by
    intro path
    rw [get_filter]
    by_cases hin : path ∈ active <;> cases filled.get path <;> simp [hin]
  -- A path in use: its lease holds afterwards when it did before, or when it had none.
  have hholds : ∀ path, Occupied tasks path → (LeaseHolds staleThresholdMs now leases tasks path ↔
      ∃ lease, filled.get path = some lease ∧ now - lease.lastHeartbeatAt < staleThresholdMs ∧ WorksAt tasks lease.ownerId path) := by
    intro path hoccupied
    unfold LeaseHolds
    cases hbefore : leases.get path with
    | some lease => simp [hkept path lease hbefore]
    | none =>
      obtain ⟨entry, hentry, hoccupies, hlease⟩ := hnew path hbefore hoccupied
      have hworks : WorksAt tasks entry.taskId path := ⟨entry, hentry, rfl, hoccupies⟩
      simp [hlease, hworks]
  constructor
  · rintro ⟨hleased, howned⟩ path hoccupied
    obtain ⟨lease, hlease, hworks⟩ := howned path hoccupied
    rw [hget, if_pos ((hused path).2 hoccupied)] at hlease
    have hfresh := (hleased path).2 hoccupied
    unfold isLeased at hfresh
    rw [hget, if_pos ((hused path).2 hoccupied), hlease] at hfresh
    exact (hholds path hoccupied).2 ⟨lease, hlease, of_decide_eq_true hfresh, hworks⟩
  · intro hall
    refine ⟨fun path => ⟨fun hleased => ?_, fun hoccupied => ?_⟩, fun path hoccupied => ?_⟩
    · by_contra hnot
      unfold isLeased at hleased
      rw [hget, if_neg (mt (hused path).1 hnot)] at hleased
      cases hleased
    · obtain ⟨lease, hlease, hfresh, -⟩ := (hholds path hoccupied).1 (hall path hoccupied)
      unfold isLeased
      rw [hget, if_pos ((hused path).2 hoccupied), hlease]
      exact decide_eq_true hfresh
    · obtain ⟨lease, hlease, -, hworks⟩ := (hholds path hoccupied).1 (hall path hoccupied)
      exact ⟨lease, by rw [hget, if_pos ((hused path).2 hoccupied), hlease], hworks⟩

/-- A lease that ran stale is kept, and the path of a running session is free for the cleanup. -/
theorem stale_lease_stays : ¬ ∀ (now : ℤ) leases tasks leases' counts, reconcileFromTaskStore 600000 now leases tasks = .ok (leases', counts) →
    ∀ path, isLeased 600000 now leases' path = true ↔ Occupied tasks path := by
  intro h
  have hstale := h 700000 (empty.set "/wt" ⟨"/wt", "task-1", 0, 0⟩) [("task-1", [⟨"/wt", true, none⟩])]
    (empty.set "/wt" ⟨"/wt", "task-1", 0, 0⟩) (0, 0) (by rfl) "/wt"
  have hoccupied : Occupied [("task-1", [⟨"/wt", true, none⟩])] "/wt" :=
    ⟨⟨"task-1", ⟨"/wt", true, none⟩⟩, by decide, by decide, rfl, rfl⟩
  exact absurd (hstale.2 hoccupied) (by decide)

end Kookr.Core
