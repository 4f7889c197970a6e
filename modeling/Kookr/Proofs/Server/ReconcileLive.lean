import Kookr.Lib.ListAt
import Kookr.Spec.Server.Reconciliation

/-! No session that is alive is declared dead, in every run in which the answer of `listSessions`
has, when it arrives, every live session that is attached to a task by then. A session that is not
in the answer is then dead already, and stays so, for names are not given twice. -/

namespace Kookr.Server.Reconcile.State

open Kookr.Lib Kookr.Launch List Option

def snapshotOf : Stage → Option (List String)
  | .listing snapshot => snapshot
  | _ => none

/-- When the answer arrives, it has every live session that some task has and does not record as
done, but for the ones that are asked for again. -/
def ListsAttached (s : State) : Event → Prop
  | .listed => ∀ live ∈ snapshotOf s.stage, ∀ e ∈ s.tasks.entries, ∀ session ∈ e.2.sessions,
      session.isDone = false → session.tmuxSession ∈ s.alive →
      e.2.exactProbeSession session.tmuxSession = false → session.tmuxSession ∈ live
  | _ => True

instance ListsAttached.decidable (s : State) (e : Event) : Decidable (ListsAttached s e) :=
  match e with
  | .listed => inferInstanceAs (Decidable (∀ live ∈ snapshotOf s.stage, ∀ e ∈ s.tasks.entries, ∀ session ∈ e.2.sessions,
      session.isDone = false → session.tmuxSession ∈ s.alive →
      e.2.exactProbeSession session.tmuxSession = false → session.tmuxSession ∈ live))
  | .start | .takeSnapshot | .nextTask | .judge | .ask | .asked .. | .settle | .create .. | .addSession .. | .exit ..
  | .mark .. | .deleteTask .. => isTrue trivial

variable {s s' : State} {e : Event} {id : ℕ} {task task' : Task} {session : Session} {name : String} {loop : Loop} {sessions : List Session}

theorem mem_updateSession {sessions updated : List Session} {lastStatus : LastStatus}
    (h : updateSession name lastStatus sessions = some updated) (hmem : session ∈ updated) :
    session ∈ sessions ∨ session.tmuxSession = name ∧ ∃ other ∈ sessions, other.tmuxSession = name := by
  induction sessions generalizing updated with
  | nil => cases h
  | cons first sessions ih =>
    unfold updateSession at h
    split at h
    · rename_i hname
      cases h
      rcases mem_cons.1 hmem with rfl | hmem
      · exact .inr ⟨hname, first, mem_cons_self, hname⟩
      · exact .inl (mem_cons_of_mem _ hmem)
    · obtain ⟨rest, hrest, rfl⟩ := map_eq_some_iff.1 h
      rcases mem_cons.1 hmem with rfl | hmem
      · exact .inl mem_cons_self
      · rcases ih hrest hmem with hold | ⟨hname, other, hother, heq⟩
        · exact .inl (mem_cons_of_mem _ hold)
        · exact .inr ⟨hname, other, mem_cons_of_mem _ hother, heq⟩

theorem allSessionsDone_mem (h : task.allSessionsDone = true) (hmem : session ∈ task.sessions) : session.isDone = true := by
  exact all_eq_true.1 (Bool.and_eq_true_iff.1 h).2 session hmem

/-- What is done to one task. -/
inductive Move (s : State) (task : Task) : Task → Prop
  | judged {name : String} {sessions : List Session} (hdead : name ∉ s.alive)
      (hupdate : updateSession name .completed task.sessions = some sessions) : Move s task { task with sessions }
  | settled {loop : Loop} {task' : Task} (hsettled : settled loop task = some task') : Move s task task'
  | attached {name : String} {status : TaskStatus} (hknown : name ∈ s.known)
      (hstatus : status = task.status ∨ status = .inProgress) :
      Move s task { task with sessions := task.sessions ++ [⟨name, .agent, false⟩], status }
  | marked (launchAdmission : Option LaunchAdmission) (ralphActive : Bool) :
      Move s task { task with launchAdmission, ralphActive }

/-- What is settled keeps its sessions, and ends only when they are all done. -/
theorem settled_eq_some (h : settled loop task = some task') : task'.sessions = task.sessions ∧
      (task'.status = .completed ∨ task'.status = .terminated → task'.status = task.status ∨ task.allSessionsDone = true) := by
  unfold settled at h
  dsimp only at h
  split at h
  · cases h
    exact ⟨rfl, fun hended => by rcases hended with h | h <;> cases h⟩
  · split at h
    · cases h
      exact ⟨rfl, fun _ => .inl rfl⟩
    · split at h
      · rename_i hdone
        cases h
        exact ⟨rfl, fun _ => .inr (Bool.and_eq_true_iff.1 hdone).2⟩
      · cases h

/-- Known names are dead for good. -/
structure Extends (s s' : State) : Prop where
  known : ∀ name ∈ s.known, name ∈ s'.known
  dead : ∀ name ∈ s.known, name ∉ s.alive → name ∉ s'.alive

/-- The task has or had the session, and the verdict on it will be right. -/
def Judgeable (s : State) (live : List String) (task : Task) (session : Session) : Prop :=
  session.tmuxSession ∈ s.known ∧ (session.isDone = true ∨ session.tmuxSession ∈ live ∨
    task.exactProbeSession session.tmuxSession = true ∨ session.tmuxSession ∉ s.alive)

def RestOk (s : State) (live : List String) (rest : List (ℕ × Task)) : Prop :=
  ∀ e ∈ rest, ∀ session ∈ e.2.sessions, Judgeable s live e.2 session

def StageOk (s : State) : Stage → Prop
  | .looping live rest => RestOk s live rest
  | .checking loop sessions => RestOk s loop.live loop.rest ∧ ∀ session ∈ sessions, Judgeable s loop.live loop.task session
  | .probing loop session sessions answer =>
    (RestOk s loop.live loop.rest ∧ ∀ session ∈ sessions, Judgeable s loop.live loop.task session) ∧
      session.tmuxSession ∈ s.known ∧ (answer = some false → session.tmuxSession ∉ s.alive)
  | _ => True

structure Sound (s : State) : Prop where
  alive : ∀ name ∈ s.alive, name ∈ s.known
  recorded : ∀ id task, s.tasks.get id = some task → ∀ session ∈ task.sessions, session.tmuxSession ∈ s.known
  dead : ∀ id task, s.tasks.get id = some task → ∀ session ∈ task.sessions, session.isDone = true →
    session.tmuxSession ∉ s.alive
  stage : StageOk s s.stage

theorem Judgeable.extends {live : List String} (h : Judgeable s live task session) (hext : Extends s s') :
    Judgeable s' live task session :=
  ⟨hext.known _ h.1, h.2.imp_right fun h' => h'.imp_right fun h'' => h''.imp_right (hext.dead _ h.1)⟩

theorem StageOk.extends {stage : Stage} (h : StageOk s stage) (hext : Extends s s') : StageOk s' stage := by
  cases stage with
  | idle | failed | listing snapshot => trivial
  | looping live rest => exact fun e he session hmem => (h e he session hmem).extends hext
  | checking loop sessions =>
    exact ⟨fun e he session hmem => (h.1 e he session hmem).extends hext, fun session hmem => (h.2 session hmem).extends hext⟩
  | probing loop session sessions answer =>
    obtain ⟨⟨hrest, hsessions⟩, hknown, hanswer⟩ := h
    refine ⟨⟨?_, ?_⟩, hext.known _ hknown, fun hfalse => hext.dead _ hknown (hanswer hfalse)⟩
    · exact fun e he session hmem => (hrest e he session hmem).extends hext
    · exact fun session hmem => (hsessions session hmem).extends hext

/-- What one event can do to the tasks. -/
def TasksMove (s s' : State) : Prop :=
  s'.tasks = s.tasks ∨ (∃ id, s'.tasks = s.tasks.delete id) ∨
    ∃ id task task', s.tasks.get id = some task ∧ s'.tasks = s.tasks.set id task' ∧ Move s task task'

/-- What one event can do. -/
structure Changed (s s' : State) : Prop extends Extends s s' where
  tasks : TasksMove s s'
  alive : ∀ name ∈ s'.alive, name ∈ s'.known
  stage : StageOk s' s'.stage

section

variable (h : Sound s)
include h

theorem Changed.goto {stage : Stage} (hstage : StageOk s stage) : Changed s (s.goto stage) where
  known := fun _ hknown => hknown
  dead := fun _ _ hdead => hdead
  tasks := .inl rfl
  alive := h.alive
  stage := hstage.extends ⟨fun _ hknown => hknown, fun _ _ hdead => hdead⟩

theorem Changed.update {stage : Stage} (hget : s.tasks.get id = some task) (hmove : Move s task task')
    (hstage : StageOk s stage) : Changed s ((s.update id task').goto stage) where
  known := fun _ hknown => hknown
  dead := fun _ _ hdead => hdead
  tasks := .inr (.inr ⟨id, task, task', hget, rfl, hmove⟩)
  alive := h.alive
  stage := hstage.extends ⟨fun _ hknown => hknown, fun _ _ hdead => hdead⟩

theorem changed_markCompleted (hdead : session.tmuxSession ∉ s.alive) (hstage : StageOk s (.checking loop sessions)) :
    Changed s (s.markCompleted loop session sessions) := by
  unfold markCompleted
  split
  · exact .goto h trivial
  · rename_i task hget
    split
    · exact .goto h trivial
    · rename_i updated hupdate
      exact .update h hget (.judged hdead hupdate) hstage

theorem changed_judge
    (hstage : StageOk s (.checking loop (session :: sessions))) : Changed s (s.judge loop session sessions) := by
  obtain ⟨hrest, hsessions⟩ := hstage
  obtain ⟨hknown, hverdict⟩ := hsessions session mem_cons_self
  have hnext : StageOk s (.checking loop sessions) :=
    ⟨hrest, fun other hmem => hsessions other (mem_cons_of_mem _ hmem)⟩
  unfold judge
  split
  · exact .goto h hnext
  · rename_i hdone
    split
    · exact .goto h hnext
    · rename_i hlive
      split
      · exact .goto h ⟨hnext, hknown, nofun⟩
      · rename_i hprobe
        refine changed_markCompleted h ?_ hnext
        exact ((hverdict.resolve_left hdone).resolve_left hlive).resolve_left hprobe

theorem changed_asked {alive fails : Bool} (hdead : fails = false → alive = false → session.tmuxSession ∉ s.alive)
    (hstage : StageOk s (.checking loop sessions)) : Changed s (s.asked loop session sessions alive fails) := by
  unfold asked
  split
  · exact .goto h hstage
  · rename_i hfalse
    obtain ⟨hfails, halive⟩ := Bool.or_eq_false_iff.1 (Bool.not_eq_true _ ▸ hfalse)
    exact changed_markCompleted h (hdead hfails halive) hstage

theorem changed_settle (hstage : RestOk s loop.live loop.rest) : Changed s (s.settle loop) := by
  unfold settle
  split
  · exact .goto h hstage
  · rename_i task' hsettled
    split
    · rename_i hhas
      obtain ⟨task, hget⟩ := isSome_iff_exists.1 hhas
      rw [hget] at hsettled
      exact .update h hget (.settled hsettled) hstage
    · exact .goto h trivial

theorem restOk_listed {live : List String} (hstage : s.stage = .listing (some live))
    (hok : ListsAttached s .listed) : RestOk s live s.tasks.entries := by
  intro e he session hmem
  have hget : s.tasks.get e.1 = some e.2 := (OrderedMap.get_eq_some_iff _ _ _).2 he
  refine ⟨h.recorded _ _ hget session hmem, ?_⟩
  have hlists : live ∈ snapshotOf s.stage := by
    rw [hstage]
    exact rfl
  by_cases hdone : session.isDone = true
  · exact .inl hdone
  · by_cases halive : session.tmuxSession ∈ s.alive
    · by_cases hprobe : e.2.exactProbeSession session.tmuxSession = true
      · exact .inr (.inr (.inl hprobe))
      · refine .inr (.inl (hok live hlists e he session hmem ?_ halive ?_))
        · exact Bool.eq_false_iff.2 hdone
        · exact Bool.eq_false_iff.2 hprobe
    · exact .inr (.inr (.inr halive))

theorem changed_reconcileStep (hok : ListsAttached s e) (hs : s.reconcileStep s.stage e = some s') : Changed s s' := by
  have hstage := h.stage
  generalize heq : s.stage = stage at hs hstage
  unfold reconcileStep at hs
  split at hs
  · cases hs
    exact .goto h trivial
  · cases hs
    exact .goto h trivial
  · cases hs
    exact .goto h trivial
  · cases hs
    exact .goto h (restOk_listed h heq hok)
  · cases hs
    exact .goto h trivial
  · rename_i live id task rest
    cases hs
    refine .goto h ⟨fun e he => hstage e (mem_cons_of_mem _ he), ?_⟩
    exact hstage (id, task) mem_cons_self
  · cases hs
    exact changed_judge h hstage
  · cases hs
    exact changed_settle h hstage.1
  · cases hs
    refine .goto h ⟨hstage.1, hstage.2.1, fun hanswer => ?_⟩
    exact of_decide_eq_false (some.inj hanswer)
  · cases hs
    refine changed_asked h (fun _ halive => ?_) hstage.1
    exact hstage.2.2 (congrArg some halive)
  · cases hs
    exact changed_asked h nofun hstage.1
  · cases hs

theorem Changed.beside (hext : Extends s s') (htasks : TasksMove s s')
    (halive : ∀ name ∈ s'.alive, name ∈ s'.known) (hstage : s'.stage = s.stage) : Changed s s' where
  toExtends := hext
  tasks := htasks
  alive := halive
  stage := by
    rw [hstage]
    exact h.stage.extends hext

theorem changed_addSession (hs : s.addSession id name = some s') : Changed s s' := by
  obtain ⟨task, hget, hs⟩ := bind_eq_some_iff.1 hs
  split at hs
  · cases hs
  · rename_i hrefused
    split at hs
    · cases hs
    · split at hs
      · cases hs
      · cases hs
        have hknown : name ∈ s.known := by
          by_contra hnot
          exact hrefused (by simp [hnot])
        refine .beside h ⟨fun _ hknown => hknown, fun _ _ hdead => hdead⟩ ?_ h.alive rfl
        refine .inr (.inr ⟨id, task, _, hget, rfl, .attached hknown ?_⟩)
        by_cases hlaunch : task.status.launchable = true
        · exact .inr (if_pos hlaunch)
        · exact .inl (if_neg hlaunch)

theorem changed_step (hok : ListsAttached s e) (hs : s.step e = some s') : Changed s s' := by
  cases e with
  | create name =>
    unfold step at hs
    dsimp only at hs
    split at hs
    · cases hs
    · rename_i hnew
      cases hs
      refine .beside h ⟨fun _ hknown => mem_append_left _ hknown, fun other hknown hdead hmem => ?_⟩ (.inl rfl) ?_ rfl
      · rcases mem_concat_cases hmem with hmem | hmem
        · exact hdead hmem
        · exact hnew (hmem ▸ hknown)
      · intro other hmem
        rcases mem_append.1 hmem with hmem | hmem
        · exact mem_append_left _ (h.alive other hmem)
        · exact mem_append_right _ hmem
  | addSession id name => exact changed_addSession h hs
  | exit name =>
    cases hs
    refine .beside h ⟨fun _ hknown => hknown, fun _ _ hdead hmem => hdead (mem_filter.1 hmem).1⟩ (.inl rfl) ?_ rfl
    exact fun other hmem => h.alive other (mem_filter.1 hmem).1
  | mark id launchAdmission ralphActive =>
    obtain ⟨task, hget, rfl⟩ := map_eq_some_iff.1 hs
    refine .beside h ⟨fun _ hknown => hknown, fun _ _ hdead => hdead⟩ ?_ h.alive rfl
    exact .inr (.inr ⟨id, task, _, hget, rfl, .marked launchAdmission ralphActive⟩)
  | deleteTask id =>
    cases hs
    exact .beside h ⟨fun _ hknown => hknown, fun _ _ hdead => hdead⟩ (.inr (.inl ⟨id, rfl⟩)) h.alive rfl
  | start | takeSnapshot | listed | nextTask | judge | ask | asked | settle => exact changed_reconcileStep h hok hs

end

/-- The sessions of a task after a step: those it had, and one that is dead or new. -/
theorem Move.mem_sessions (hmove : Move s task task') (hmem : session ∈ task'.sessions) : session ∈ task.sessions ∨
      (session.tmuxSession ∉ s.alive ∧ ∃ other ∈ task.sessions, other.tmuxSession = session.tmuxSession) ∨
      session.tmuxSession ∈ s.known ∧ session.isDone = false := by
  cases hmove with
  | judged hdead hupdate =>
    rcases mem_updateSession hupdate hmem with hold | ⟨hname, hother⟩
    · exact .inl hold
    · exact .inr (.inl (hname ▸ ⟨hdead, hother⟩))
  | settled hsettled => exact .inl ((settled_eq_some hsettled).1 ▸ hmem)
  | attached hknown =>
    rcases mem_concat_cases hmem with hold | rfl
    · exact .inl hold
    · exact .inr (.inr ⟨hknown, rfl⟩)
  | marked => exact .inl hmem

theorem TasksMove.get (htasks : TasksMove s s') (hget : s'.tasks.get id = some task') :
    s.tasks.get id = some task' ∨ ∃ task, s.tasks.get id = some task ∧ Move s task task' := by
  rcases htasks with heq | ⟨gone, heq⟩ | ⟨other, task, moved, hother, heq, hmove⟩
  · exact .inl (heq ▸ hget)
  · rw [heq] at hget
    exact .inl (OrderedMap.get_delete_some hget).2
  · rw [heq] at hget
    rcases OrderedMap.get_set_some hget with ⟨hid, rfl⟩ | ⟨-, hget⟩
    · exact .inr ⟨task, hid ▸ hother, hmove⟩
    · exact .inl hget

theorem Sound.step (h : Sound s) (hok : ListsAttached s e) (hs : s.step e = some s') : Sound s' := by
  have hchanged := changed_step h hok hs
  have hsession : ∀ id task, s'.tasks.get id = some task → ∀ session ∈ task.sessions,
      session.tmuxSession ∈ s.known ∧ (session.isDone = true → session.tmuxSession ∉ s.alive) := by
    intro id task' hget session hmem
    rcases hchanged.tasks.get hget with hold | ⟨task, hold, hmove⟩
    · exact ⟨h.recorded id task' hold session hmem, h.dead id task' hold session hmem⟩
    · rcases hmove.mem_sessions hmem with hmem | ⟨hdead, other, hother, hname⟩ | ⟨hknown, hnot⟩
      · exact ⟨h.recorded id task hold session hmem, h.dead id task hold session hmem⟩
      · exact ⟨hname ▸ h.recorded id task hold other hother, fun _ => hdead⟩
      · exact ⟨hknown, fun hdone => by rw [hnot] at hdone; cases hdone⟩
  exact {
    alive := hchanged.alive
    recorded := fun id task hget session hmem => hchanged.known _ (hsession id task hget session hmem).1
    dead := fun id task hget session hmem hdone =>
      hchanged.dead _ (hsession id task hget session hmem).1 ((hsession id task hget session hmem).2 hdone)
    stage := hchanged.stage }

theorem Move.ended (hmove : Move s task task') (hended : task'.status = .completed ∨ task'.status = .terminated)
    (hchanged : task'.status ≠ task.status) : task.allSessionsDone = true := by
  cases hmove with
  | judged => exact absurd rfl hchanged
  | settled hsettled => exact ((settled_eq_some hsettled).2 hended).resolve_left hchanged
  | attached _ hstatus =>
    rcases hstatus with rfl | rfl
    · exact absurd rfl hchanged
    · rcases hended with h | h <;> cases h
  | marked => exact absurd rfl hchanged

/-- What is recorded as done is dead, and a task ends only when its sessions are. -/
theorem live_sessions_stand {tasks : OrderedMap ℕ Task} {alive known : List String} {events : List Event}
    (halive : ∀ name ∈ alive, name ∈ known)
    (hrecorded : ∀ id task, tasks.get id = some task → ∀ session ∈ task.sessions, session.tmuxSession ∈ known)
    (hdead : ∀ id task, tasks.get id = some task → ∀ session ∈ task.sessions, session.isDone = true → session.tmuxSession ∉ alive)
    (hok : StepsMeet step ListsAttached (initial tasks alive known) (events ++ [e]))
    (hrun : exec step (initial tasks alive known) events = some s) (hs : s.step e = some s') :
    (∀ id task, s'.tasks.get id = some task → ∀ session ∈ task.sessions, session.isDone = true → session.tmuxSession ∉ s'.alive) ∧
    ∀ id task task', s.tasks.get id = some task → s'.tasks.get id = some task' →
      task'.status = .completed ∨ task'.status = .terminated → task'.status ≠ task.status →
      ∀ session ∈ task.sessions, session.tmuxSession ∉ s.alive := by
  have hinitial : Sound (initial tasks alive known) := ⟨halive, hrecorded, hdead, trivial⟩
  obtain ⟨hbefore, hlast⟩ := hok.append hrun
  have hsound : Sound s := exec_invariant (fun _ _ _ h hlists hstep => Sound.step h hlists hstep) hinitial hbefore hrun
  refine ⟨(hsound.step hlast.1 hs).dead, ?_⟩
  intro id task task' hget hget' hended hchanged session hmem
  rcases (changed_step hsound hlast.1 hs).tasks.get hget' with hold | ⟨old, hold, hmove⟩
  · rw [hget] at hold
    exact absurd (congrArg Task.status (some.inj hold)).symm hchanged
  · obtain rfl : task = old := some.inj (hget.symm.trans hold)
    exact hsound.dead id task hget session hmem (allSessionsDone_mem (hmove.ended hended hchanged) hmem)

/-- A new task, one whose probe has not started, and one whose agent has finished its turn and gone. -/
def threeTasks : OrderedMap ℕ Task :=
  ⟨[(0, ⟨.open, [], none, false⟩), (1, ⟨.open, [], some (.probing (some "kookr-3")), false⟩),
    (2, ⟨.inProgress, [⟨"kookr-1", .agent, true⟩], none, false⟩)], by decide⟩

/-- The first task gets its session before the sessions are listed, the probe while they are. -/
def sweep : List Event :=
  [.create "kookr-2", .addSession 0 "kookr-2", .start, .takeSnapshot, .create "kookr-3", .addSession 1 "kookr-3", .listed,
    .nextTask, .judge, .settle, .nextTask, .judge, .ask, .asked false, .settle, .nextTask, .judge]

theorem live_sessions_stand_sweep : ∃ s s', exec step (initial threeTasks [] ["kookr-1"]) sweep = some s ∧
    s.step .settle = some s' ∧ s'.alive = ["kookr-2", "kookr-3"] ∧
    (s'.tasks.entries.map fun e => e.2.status) = [.inProgress, .inProgress, .completed] ∧
    ∀ id task, s'.tasks.get id = some task → ∀ session ∈ task.sessions, session.isDone = true →
      session.tmuxSession ∉ s'.alive := by
  have hlists : StepsMeet step ListsAttached (initial threeTasks [] ["kookr-1"]) (sweep ++ [.settle]) := by decide +kernel
  have hrecorded : ∀ e ∈ threeTasks.entries, ∀ session ∈ e.2.sessions, session.tmuxSession ∈ ["kookr-1"] := by decide
  refine ⟨_, _, rfl, rfl, rfl, rfl, ?_⟩
  refine (live_sessions_stand (fun _ hmem => by cases hmem) (fun id task hget => ?_) ?_ hlists rfl rfl).1
  · exact hrecorded (id, task) ((OrderedMap.get_eq_some_iff _ _ _).1 hget)
  · exact fun _ _ _ _ _ _ => not_mem_nil

def newTask : OrderedMap ℕ Task := ⟨[(0, ⟨.open, [], none, false⟩)], by decide⟩

/-- The session is created and attached after the moment the backend answers for, before the answer. -/
def attachedMeanwhile : List Event :=
  [.start, .takeSnapshot, .create "kookr-1", .addSession 0 "kookr-1", .listed, .nextTask, .judge]

theorem attached_meanwhile_terminated : ∃ s s', exec step (initial newTask [] []) attachedMeanwhile = some s ∧
    s.step .settle = some s' ∧ "kookr-1" ∈ s.alive ∧ "kookr-1" ∈ s'.alive ∧
    s.tasks.get 0 = some ⟨.inProgress, [⟨"kookr-1", .completed, false⟩], none, false⟩ ∧
    s'.tasks.get 0 = some ⟨.terminated, [⟨"kookr-1", .completed, false⟩], none, false⟩ :=
  ⟨_, _, rfl, rfl, by decide, by decide, rfl, rfl⟩

end Kookr.Server.Reconcile.State
