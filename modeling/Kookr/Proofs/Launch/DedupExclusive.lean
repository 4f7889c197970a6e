import Kookr.Spec.Launch.LaunchDedup

/-! No two unfinished tasks have one launch identity, in every run in which no such task was made
between the last search of a launch and the creation of its task. A launch that has searched knows
that every task with its identity is newer than its search; what has come since is not looked at. -/

namespace Kookr.Launch.Dedup.State

open Kookr.Lib Option OrderedMap

def Active (host : Host) (s : State) (id : ℕ) (identity : Identity) : Prop :=
  ∃ task, s.tasks.get id = some task ∧ task.status.isTerminalStatus = false ∧ task.identity host = some identity

def Unique (host : Host) (s : State) : Prop :=
  ∀ id id' identity, Active host s id identity → Active host s id' identity → id = id'

/-- Of the tasks made since the launch has searched, none that is unfinished has its identity. -/
def NoneSince (host : Host) (s : State) : Event → Prop
  | .synced p false => ∀ call ∈ s.launches[p]?, ∀ e ∈ s.tasks.entries, call.searchedAt ≤ e.1 →
      e.2.status.isTerminalStatus = false → e.2.identity host ≠ some (call.identity host)
  | _ => True

instance NoneSince.decidable (host : Host) (s : State) (e : Event) : Decidable (NoneSince host s e) :=
  match e with
  | .synced p false => inferInstanceAs (Decidable (∀ call ∈ s.launches[p]?, ∀ e ∈ s.tasks.entries,
      call.searchedAt ≤ e.1 → e.2.status.isTerminalStatus = false → e.2.identity host ≠ some (call.identity host)))
  | .synced _ true | .launch .. | .search .. | .probed .. | .claimResolved .. | .quotaPolled .. | .rejected ..
  | .moveTask .. | .setSessions .. | .mark .. | .deleteTask .. | .setAlive .. => isTrue trivial

variable {host : Host} {s s' : State} {p id : ℕ} {call : LaunchCall} {identity : Identity} {e : Event} {call' : LaunchCall}

theorem task_identity (host : Host) (call : LaunchCall) : call.task.identity host = some (call.identity host) := by
  have hfingerprint : launchIntentFingerprint call.buildLaunchIntent = launchIntentFingerprint call.searchedIntent := by
    unfold launchIntentFingerprint LaunchCall.buildLaunchIntent LaunchCall.searchedIntent buildTaskLaunchIntent
    by_cases hralph : call.opts.ralphVerdictEnv = some true
    · simp [hralph]
    · simp [hralph]
  unfold Task.identity LaunchCall.task LaunchCall.identity
  rw [map_some, hfingerprint]

theorem active_status {status : TaskStatus} (h : status.isTerminalStatus = false) : status ∈ ACTIVE_STATUSES := by
  cases status <;> first | decide | cases h

/-- A search that finds nothing has looked at every unfinished task. -/
theorem not_active_of_checkSubmission
    (h : checkSubmission host s.tasks call.opts.prompt call.agentType call.opts.cwd call.searchedIntent = none) :
    ¬ Active host s id (call.identity host) := by
  rintro ⟨task, hget, hlive, hidentity⟩
  unfold LaunchCall.identity at hidentity
  obtain ⟨intent, hintent, heq⟩ := map_eq_some_iff.1 hidentity
  rw [Identity.mk.injEq] at heq
  obtain ⟨hprompt, hagent, hcwd, hfingerprint⟩ := heq
  have hmem : (id, task) ∈ viewLiveTasks s.tasks := by
    refine List.mem_filter.2 ⟨(get_eq_some_iff _ _ _).1 hget, ?_⟩
    simp [hlive]
  refine List.find?_eq_none.1 h (id, task) hmem ?_
  have hstatus := active_status hlive
  simp [hstatus, hagent, hprompt, hcwd, hget, sameLaunchIntent, hintent, hfingerprint]

/-- No unfinished task is new, and a launch that has just searched has found none. -/
structure Quiet (host : Host) (s s' : State) : Prop where
  active : ∀ id identity, Active host s' id identity → Active host s id identity
  nextTask : s.nextTask ≤ s'.nextTask
  cleared : ∀ (q : ℕ) call', s'.launches[q]? = some call' → call'.stage.cleared = true →
    (∃ call, s.launches[q]? = some call ∧ call.stage.cleared = true ∧ call.identity host = call'.identity host ∧
      call.searchedAt = call'.searchedAt) ∨
    call'.searchedAt = s.nextTask ∧ ∀ id, ¬ Active host s id (call'.identity host)

def Creates (s : State) (p : ℕ) (call : LaunchCall) (s' : State) : Prop :=
  s.launches[p]? = some call ∧ call.stage.cleared = true ∧ s' = s.createTask p call false

theorem Active.of_set {task' : Task} (htasks : s'.tasks = s.tasks.set id task')
    (hold : task'.status.isTerminalStatus = false → ∀ identity, task'.identity host = some identity →
      Active host s id identity) (k : ℕ) (identity : Identity) (h : Active host s' k identity) : Active host s k identity := by
  obtain ⟨task, hget, hlive, hidentity⟩ := h
  rw [htasks] at hget
  rcases get_set_some hget with ⟨hk, rfl⟩ | ⟨-, hget⟩
  · exact hk ▸ hold hlive identity hidentity
  · exact ⟨task, hget, hlive, hidentity⟩

theorem Quiet.of_tasks (hactive : ∀ id identity, Active host s' id identity → Active host s id identity)
    (hnext : s'.nextTask = s.nextTask) (hlaunches : s'.launches = s.launches) : Quiet host s s' := by
  refine ⟨hactive, hnext.ge, fun q call' hget hcleared => .inl ⟨call', ?_, hcleared, rfl, rfl⟩⟩
  rwa [← hlaunches]

section

variable (hcall : s.launches[p]? = some call)
include hcall

/-- One call goes on: it is not past its search, or it was and still is the same launch, or it has
searched and found nothing. -/
theorem Quiet.of_call (hactive : ∀ id identity, Active host s' id identity → Active host s id identity)
    (hnext : s.nextTask ≤ s'.nextTask) (hlaunches : s'.launches = s.launches.set p call') (hcleared : call'.stage.cleared = true →
      (call.stage.cleared = true ∧ call.identity host = call'.identity host ∧ call.searchedAt = call'.searchedAt) ∨
      call'.searchedAt = s.nextTask ∧ ∀ id, ¬ Active host s id (call'.identity host)) : Quiet host s s' := by
  refine ⟨hactive, hnext, fun q call'' hget hc => ?_⟩
  rw [hlaunches, List.getElem?_set] at hget
  split at hget
  · rename_i hq
    subst hq
    split at hget
    · cases hget
      exact (hcleared hc).imp_left fun ⟨h, hsame⟩ => ⟨call, hcall, h, hsame⟩
    · cases hget
  · exact .inl ⟨call'', hget, hc, rfl, rfl⟩

omit hcall in
theorem quiet_updateTask {f : Task → Task} (h : s.updateTask id f = some s')
    (hidentity : ∀ task, (f task).identity host = task.identity host)
    (hlive : ∀ task, s.tasks.get id = some task → (f task).status.isTerminalStatus = false →
      task.status.isTerminalStatus = false) : Quiet host s s' := by
  obtain ⟨task, hget, rfl⟩ := map_eq_some_iff.1 h
  refine Quiet.of_tasks (Active.of_set rfl fun hf identity hid => ?_) rfl rfl
  exact ⟨task, hget, hlive task hget hf, (hidentity task).symm.trans hid⟩

omit hcall in
theorem quiet_moveTask {status : TaskStatus} (h : s.moveTask id status = some s') : Quiet host s s' := by
  obtain ⟨task, hget, h⟩ := bind_eq_some_iff.1 h
  split at h
  · rename_i hmoves
    refine quiet_updateTask h (fun _ => rfl) fun task' hget' hlive => ?_
    obtain rfl : task = task' := some.inj (hget.symm.trans hget')
    cases hterm : task.status.isTerminalStatus with
    | false => rfl
    | true => exact absurd ((hmoves.2 hterm).symm.trans hlive) (by decide)
  · cases h

omit hcall in
theorem active_reconcileStaleDuplicate {candidate : ℕ} (htasks : s'.tasks = reconcileStaleDuplicate s.tasks candidate) :
    ∀ id identity, Active host s' id identity → Active host s id identity := by
  unfold reconcileStaleDuplicate at htasks
  split at htasks
  · exact fun id identity ⟨task, hget, h⟩ => ⟨task, htasks ▸ hget, h⟩
  · split at htasks
    · exact fun id identity ⟨task, hget, h⟩ => ⟨task, htasks ▸ hget, h⟩
    · exact Active.of_set htasks nofun

theorem quiet_goto (hcleared : call'.stage.cleared = true →
      (call.stage.cleared = true ∧ call.identity host = call'.identity host ∧ call.searchedAt = call'.searchedAt) ∨
      call'.searchedAt = s.nextTask ∧ ∀ id, ¬ Active host s id (call'.identity host)) : Quiet host s (s.goto p call') :=
  Quiet.of_call hcall (fun _ _ h => h) (Nat.le_refl _) rfl hcleared

theorem quiet_goto_of_not_cleared (hcleared : call'.stage.cleared = false) : Quiet host s (s.goto p call') :=
  quiet_goto hcall fun h => by rw [hcleared] at h; cases h

theorem quiet_search {rotated : Bool} : Quiet host s (s.search host p call rotated) := by
  unfold search
  split
  · rename_i hnone
    exact quiet_goto hcall fun _ => .inr ⟨rfl, fun id => not_active_of_checkSubmission hnone⟩
  · split
    · exact quiet_goto_of_not_cleared hcall rfl
    · exact quiet_goto_of_not_cleared hcall rfl

theorem quiet_probed {rotated : Bool} {candidate : ℕ} {session : String} {rest : List String} {failure : Option ProbeFailure} :
    Quiet host s (s.probed p call rotated candidate session rest failure) := by
  unfold probed
  split
  · split
    · exact quiet_goto_of_not_cleared hcall rfl
    · exact quiet_goto_of_not_cleared hcall rfl
  · exact quiet_goto_of_not_cleared hcall rfl
  · exact quiet_goto_of_not_cleared hcall rfl

omit hcall in
theorem rotate_not_cleared (call : LaunchCall) (toAgent : Core.AgentType) (keepsModel keepsEffort : Bool) :
    (call.rotate toAgent keepsModel keepsEffort).stage.cleared = false := by
  unfold LaunchCall.rotate
  split
  · split
    · rfl
    · rfl
  · rfl

theorem launchStep_cases (h : s.launchStep host p call call.stage e = some s')
    (hp : ∀ q claimLost, e = .synced q claimLost → q = p) : Quiet host s s' ∨ e = .synced p false ∧ Creates s p call s' := by
  have hgoto : ∀ stage, call.stage.cleared = true → Quiet host s (s.goto p (call.goto stage)) := by
    exact fun stage hcleared => quiet_goto hcall fun _ => .inl ⟨hcleared, rfl, rfl⟩
  unfold launchStep at h
  split at h
  · cases h; exact .inl (quiet_search hcall)
  · cases h; exact .inl (quiet_probed hcall)
  · cases h
    exact .inl (Quiet.of_call hcall (active_reconcileStaleDuplicate rfl) (Nat.le_refl _) rfl nofun)
  · rename_i hstage
    cases h; exact .inl (hgoto _ (by rw [hstage]; rfl))
  · rename_i hstage
    cases h; exact .inl (hgoto _ (by rw [hstage]; rfl))
  · split at h
    · cases h; exact .inl (quiet_goto_of_not_cleared hcall (rotate_not_cleared _ _ _ _))
    · cases h
  · rename_i q claimLost hstage
    obtain rfl := hp q claimLost rfl
    cases claimLost with
    | false =>
      cases h
      exact .inr ⟨rfl, hcall, by rw [hstage]; rfl, rfl⟩
    | true =>
      cases h
      exact .inl (Quiet.of_call hcall (fun _ _ h => h) (Nat.le_succ _) rfl nofun)
  · cases h; exact .inl (quiet_goto_of_not_cleared hcall rfl)
  · cases h; exact .inl (quiet_goto_of_not_cleared hcall rfl)
  · cases h; exact .inl (quiet_goto_of_not_cleared hcall rfl)
  · cases h

end

theorem step_cases (h : s.step host e = some s') : Quiet host s s' ∨ ∃ p call, e = .synced p false ∧ Creates s p call s' := by
  have hcalls : ∀ p, (s.launches[p]?.bind fun call => s.launchStep host p call call.stage e) = some s' →
      (∀ q claimLost, e = .synced q claimLost → q = p) →
      Quiet host s s' ∨ ∃ p call, e = .synced p false ∧ Creates s p call s' := by
    intro p hstep hp
    obtain ⟨call, hcall, hstep⟩ := bind_eq_some_iff.1 hstep
    exact (launchStep_cases hcall hstep hp).imp_right fun hcreates => ⟨p, call, hcreates⟩
  cases e with
  | launch opts =>
    cases h
    refine .inl ⟨fun _ _ h => h, Nat.le_refl _, fun q call' hget hcleared => .inl ⟨call', ?_, hcleared, rfl, rfl⟩⟩
    rw [List.getElem?_append] at hget
    split at hget
    · exact hget
    -- the new call has not searched yet
    · rw [List.getElem?_singleton] at hget
      split at hget
      · cases hget; cases hcleared
      · cases hget
  | moveTask id status => exact .inl (quiet_moveTask h)
  | setSessions id sessions | mark id isRalphLoopActive probing => exact .inl (quiet_updateTask h (fun _ => rfl) fun _ _ hlive => hlive)
  | deleteTask id =>
    cases h
    refine .inl (Quiet.of_tasks (fun k identity ⟨task, hget, hactive⟩ => ⟨task, ?_, hactive⟩) rfl rfl)
    exact (get_delete_some hget).2
  | setAlive alive => cases h; exact .inl (Quiet.of_tasks (fun _ _ h => h) rfl rfl)
  | synced p claimLost => exact hcalls p h fun q _ heq => by cases heq; rfl
  | search p | probed p failure | claimResolved p | quotaPolled p rotation | rejected p => exact hcalls p h nofun

structure Exclusive (host : Host) (s : State) : Prop where
  unique : Unique host s
  fresh : ∀ id identity, Active host s id identity → id < s.nextTask
  cleared : ∀ (p : ℕ) call, s.launches[p]? = some call → call.stage.cleared = true →
    call.searchedAt ≤ s.nextTask ∧ ∀ id, Active host s id (call.identity host) → call.searchedAt ≤ id

theorem Exclusive.quiet (h : Exclusive host s) (hquiet : Quiet host s s') : Exclusive host s' := by
  refine ⟨?_, ?_, ?_⟩
  · exact fun id id' identity ha ha' => h.unique id id' identity (hquiet.active _ _ ha) (hquiet.active _ _ ha')
  · exact fun id identity ha => Nat.lt_of_lt_of_le (h.fresh id identity (hquiet.active _ _ ha)) hquiet.nextTask
  · intro p call' hget hcleared
    rcases hquiet.cleared p call' hget hcleared with ⟨call, hcall, hc, hidentity, hsearched⟩ | ⟨hsearched, hnone⟩
    · obtain ⟨hle, hsince⟩ := h.cleared p call hcall hc
      rw [← hidentity, ← hsearched]
      exact ⟨hle.trans hquiet.nextTask, fun id ha => hsince id (hquiet.active _ _ ha)⟩
    · exact ⟨hsearched.le.trans hquiet.nextTask, fun id ha => absurd (hquiet.active _ _ ha) (hnone id)⟩

/-- The task that is made has an identity that no unfinished task has. -/
theorem Exclusive.not_active (h : Exclusive host s) (hcreates : Creates s p call s')
    (hnone : NoneSince host s (.synced p false)) : ¬ Active host s id (call.identity host) := by
  intro ha
  obtain ⟨hcall, hcleared, -⟩ := hcreates
  have hsince := (h.cleared p call hcall hcleared).2 id ha
  obtain ⟨task, hget, hlive, hidentity⟩ := ha
  exact hnone call hcall (id, task) ((get_eq_some_iff _ _ _).1 hget) hsince hlive hidentity

theorem Creates.active (hcreates : Creates s p call s') (h : Active host s' id identity) :
    id = s.nextTask ∧ identity = call.identity host ∨ Active host s id identity := by
  obtain ⟨-, -, rfl⟩ := hcreates
  obtain ⟨task, hget, hlive, hidentity⟩ := h
  rcases get_set_some hget with ⟨hid, rfl⟩ | ⟨-, hget⟩
  · rw [task_identity] at hidentity
    exact .inl ⟨hid.symm, (some.inj hidentity).symm⟩
  · exact .inr ⟨task, hget, hlive, hidentity⟩

theorem Exclusive.creates (h : Exclusive host s) (hcreates : Creates s p call s')
    (hnone : NoneSince host s (.synced p false)) : Exclusive host s' := by
  have hother : ∀ id, ¬ Active host s id (call.identity host) := fun id => h.not_active hcreates hnone
  have hnext : s'.nextTask = s.nextTask + 1 := by rw [hcreates.2.2]; rfl
  refine ⟨?_, ?_, ?_⟩
  · intro id id' identity ha ha'
    rcases hcreates.active ha with ⟨rfl, rfl⟩ | hold
    · rcases hcreates.active ha' with ⟨rfl, -⟩ | hold'
      · rfl
      · exact absurd hold' (hother id')
    · rcases hcreates.active ha' with ⟨rfl, rfl⟩ | hold'
      · exact absurd hold (hother id)
      · exact h.unique id id' identity hold hold'
  · intro id identity ha
    rw [hnext]
    rcases hcreates.active ha with ⟨rfl, -⟩ | hold
    · exact Nat.lt_succ_self _
    · exact Nat.lt_succ_of_lt (h.fresh id identity hold)
  · intro q call' hget hcleared
    have hold : s.launches[q]? = some call' := by
      rw [hcreates.2.2] at hget
      change (s.launches.set p (call.goto (.created s.nextTask)))[q]? = some call' at hget
      rw [List.getElem?_set] at hget
      split at hget
      · split at hget
        · cases hget; cases hcleared
        · cases hget
      · exact hget
    obtain ⟨hle, hsince⟩ := h.cleared q call' hold hcleared
    refine ⟨by omega, fun id ha => ?_⟩
    rcases hcreates.active ha with ⟨rfl, -⟩ | hactive
    · exact hle
    · exact hsince id hactive

theorem Exclusive.step (h : Exclusive host s) (hnone : NoneSince host s e) (hstep : s.step host e = some s') :
    Exclusive host s' := by
  rcases step_cases hstep with hquiet | ⟨p, call, rfl, hcreates⟩
  · exact h.quiet hquiet
  · exact h.creates hcreates hnone

/-- The run starts with no launch under way. -/
theorem live_identities_unique (host : Host) {tasks : OrderedMap ℕ Task} {nextTask : ℕ} {alive : List String}
    (hids : ∀ id task, tasks.get id = some task → id < nextTask) (hunique : Unique host (.initial tasks nextTask alive))
    {events : List Event} {s : State} (hnone : StepsMeet (step host) (NoneSince host) (.initial tasks nextTask alive) events)
    (hrun : exec (step host) (.initial tasks nextTask alive) events = some s) : Unique host s := by
  have hstart : Exclusive host (.initial tasks nextTask alive) := by
    refine ⟨hunique, fun id identity ⟨task, hget, _⟩ => hids id task hget, fun p call hcall => ?_⟩
    cases hcall
  have hend := exec_invariant (fun _ _ _ h hok hstep => Exclusive.step h hok hstep) hstart hnone hrun
  exact hend.unique

/-- Prompts and directories are compared as they are. -/
def plainHost : Host := ⟨fun prompt => prompt, fun cwd => cwd, true⟩

def auditLaunch : LaunchOpts := ⟨"audit", "/repo", .claudeCode, some .small, some "claude-haiku-4-5", none, none, none⟩

/-- The first task loses its session; the second launch ends it, and makes its own with the agent
that the quota leaves. The third launch is told of that task. -/
def staleRun : List Event :=
  [.launch auditLaunch, .search 0, .claimResolved 0, .quotaPolled 0 none, .synced 0 false, .moveTask 0 .inProgress,
    .setSessions 0 [⟨"kookr-1", false⟩], .launch auditLaunch, .search 1, .probed 1 none, .search 1, .search 1,
    .claimResolved 1, .quotaPolled 1 (some (.codexCli, false, false)), .search 1, .synced 1 false,
    .launch { auditLaunch with agentType := .codexCli, model := some "gpt-5.6-luna", effort := some "high" }, .search 2]

theorem live_identities_unique_staleRun : ∃ s, exec (step plainHost) (.initial .empty 0 []) staleRun = some s ∧
    (s.tasks.entries.map fun e => (e.2.status, e.2.agentType)) = [(.terminated, .claudeCode), (.open, .codexCli)] ∧
    Unique plainHost s := by
  have hnone : StepsMeet (step plainHost) (NoneSince plainHost) (.initial .empty 0 []) staleRun := by decide +kernel
  have hunique : Unique plainHost (.initial .empty 0 []) := by
    rintro id id' identity ⟨task, hget, -⟩
    cases hget
  refine ⟨_, rfl, rfl, live_identities_unique plainHost (fun id task hget => ?_) hunique hnone rfl⟩
  cases hget

/-- Two launches search before either has made its task. -/
def racingLaunches : List Event :=
  [.launch auditLaunch, .launch auditLaunch, .search 0, .search 1, .claimResolved 0, .claimResolved 1,
    .quotaPolled 0 none, .quotaPolled 1 none, .synced 0 false, .synced 1 false]

theorem racing_launches_duplicate :
    ∃ s, exec (step plainHost) (.initial .empty 0 []) racingLaunches = some s ∧ ¬ Unique plainHost s := by
  refine ⟨_, rfl, fun hunique => ?_⟩
  have heq := hunique 0 1 _ ⟨_, rfl, rfl, rfl⟩ ⟨_, rfl, rfl, rfl⟩
  cases heq

end Kookr.Launch.Dedup.State
