import Mathlib.Data.List.Pairwise
import Mathlib.Data.List.Basic

/-! A value in memory with its file. Mutations wait in a queue and run one after the other: a mutation reads the value in
memory, its result is written, and memory has it once the write has returned. A write that has landed may still be cut off by
a restart, which loads the file. -/

namespace Kookr.Lib

open List

variable {α μ κ : Type*}

/-- A mutation under the number of its call. -/
structure Commit (μ : Type*) where
  call : ℕ
  mutation : μ
  deriving DecidableEq

/-- A mutation that has run, with what it read besides the value. -/
structure Applied (μ κ : Type*) where
  commit : Commit μ
  reading : κ

/-- A write under way. -/
structure CommitWrite (α μ κ : Type*) where
  applied : Applied μ κ
  next : α
  landed : Bool

/-- The log has the mutations whose writes have landed, the answers say of a commit whether its write returned. -/
structure CommitQueue (α μ κ : Type*) where
  file : α
  memory : α
  queue : List (Commit μ)
  writing : Option (CommitWrite α μ κ)
  calls : ℕ
  log : List (Applied μ κ)
  answers : List (Commit μ × Bool)

namespace CommitQueue

variable (apply : μ → κ → α → α)

def start (a : α) : CommitQueue α μ κ := ⟨a, a, [], none, 0, [], []⟩

/-- A call, which queues a mutation or is answered at once. -/
def call (q : CommitQueue α μ κ) (mutation : Option μ) : CommitQueue α μ κ :=
  { q with queue := q.queue ++ (mutation.map (Commit.mk q.calls)).toList, calls := q.calls + 1 }

/-- The next mutation runs once no write is under way. -/
def startWrite (q : CommitQueue α μ κ) (reading : κ) : Option (CommitQueue α μ κ) :=
  match q.writing, q.queue with
  | none, c :: queue => some { q with queue := queue, writing := some ⟨⟨c, reading⟩, apply c.mutation reading q.memory, false⟩ }
  | _, _ => none

def landWrite (q : CommitQueue α μ κ) : Option (CommitQueue α μ κ) :=
  match q.writing with
  | some ⟨applied, next, false⟩ => some { q with file := next, writing := some ⟨applied, next, true⟩, log := q.log ++ [applied] }
  | _ => none

def finishWrite (q : CommitQueue α μ κ) : Option (CommitQueue α μ κ) :=
  match q.writing with
  | some ⟨applied, next, true⟩ =>
    some { q with memory := next, writing := none, answers := q.answers ++ [(applied.commit, true)] }
  | _ => none

/-- A write that fails leaves the file and memory as they are. -/
def failWrite (q : CommitQueue α μ κ) : Option (CommitQueue α μ κ) :=
  match q.writing with
  | some ⟨applied, _, false⟩ => some { q with writing := none, answers := q.answers ++ [(applied.commit, false)] }
  | _ => none

/-- The process ends, and another one has loaded the file. -/
def reload (q : CommitQueue α μ κ) (loaded : α) : CommitQueue α μ κ := { q with memory := loaded, queue := [], writing := none }

def replay (a : α) (log : List (Applied μ κ)) : α := log.foldl (fun a e => apply e.commit.mutation e.reading a) a

@[simp] theorem replay_nil (a : α) : replay apply a [] = a := rfl

theorem replay_concat (a : α) (log : List (Applied μ κ)) (e : Applied μ κ) :
    replay apply a (log ++ [e]) = apply e.commit.mutation e.reading (replay apply a log) := by
  unfold replay
  rw [foldl_append]
  rfl

/-- The commit that is being written and has not landed. -/
def unlanded (q : CommitQueue α μ κ) : List (Commit μ) :=
  match q.writing with
  | some ⟨applied, _, false⟩ => [applied.commit]
  | _ => []

/-- The commits that wait for their write. -/
def pending (q : CommitQueue α μ κ) : List (Commit μ) := q.unlanded ++ q.queue

/-- The commits in the order of their writes. -/
def ahead (q : CommitQueue α μ κ) : List (Commit μ) := q.log.map Applied.commit ++ q.pending

section Ahead

variable {apply} {q q' : CommitQueue α μ κ}

theorem ahead_call (q : CommitQueue α μ κ) (mutation : Option μ) :
    (q.call mutation).ahead = q.ahead ++ (mutation.map (Commit.mk q.calls)).toList := by
  have hlog : (q.call mutation).ahead = q.log.map Applied.commit ++ (q.unlanded ++ (q.queue ++ (mutation.map (Commit.mk q.calls)).toList)) := rfl
  rw [hlog, ← append_assoc q.unlanded, ← append_assoc]
  rfl

theorem ahead_startWrite {reading : κ} (hq : q.startWrite apply reading = some q') : q'.ahead = q.ahead := by
  unfold startWrite at hq
  split at hq
  · rename_i c queue hwriting hqueue
    cases hq
    unfold ahead pending unlanded
    rw [hwriting, hqueue]
    rfl
  · cases hq

theorem ahead_landWrite (hq : q.landWrite = some q') : q'.ahead = q.ahead := by
  unfold landWrite at hq
  split at hq
  · rename_i applied next hwriting
    cases hq
    unfold ahead pending unlanded
    rw [hwriting]
    simp
  · cases hq

theorem ahead_finishWrite (hq : q.finishWrite = some q') : q'.ahead = q.ahead := by
  unfold finishWrite at hq
  split at hq
  · rename_i applied next hwriting
    cases hq
    unfold ahead pending unlanded
    rw [hwriting]
  · cases hq

theorem ahead_failWrite (hq : q.failWrite = some q') : q'.ahead.Sublist q.ahead := by
  unfold failWrite at hq
  split at hq
  · rename_i applied next hwriting
    cases hq
    unfold ahead pending unlanded
    rw [hwriting]
    exact List.Sublist.append_left (sublist_cons_self _ _) _
  · cases hq

/-- What the steps of a write and a restart do: a commit that waited may come to the log, and none comes to wait. -/
structure Writes (q q' : CommitQueue α μ κ) : Prop where
  log : q'.log = q.log ∨ ∃ e, e.commit ∈ q.pending ∧ q'.log = q.log ++ [e]
  pending : ∀ c ∈ q'.pending, c ∈ q.pending
  ahead : q'.ahead.Sublist q.ahead

theorem Writes.of_startWrite {reading : κ} (hq : q.startWrite apply reading = some q') : Writes q q' := by
  have hahead := ahead_startWrite hq
  unfold startWrite at hq
  split at hq
  · rename_i c queue hwriting hqueue
    cases hq
    refine ⟨.inl rfl, fun c' hc' => ?_, hahead ▸ List.Sublist.refl _⟩
    unfold CommitQueue.pending unlanded
    rw [hwriting, hqueue]
    exact hc'
  · cases hq

theorem Writes.of_landWrite (hq : q.landWrite = some q') : Writes q q' := by
  have hahead := ahead_landWrite hq
  unfold landWrite at hq
  split at hq
  · rename_i applied next hwriting
    cases hq
    have hpending : q.pending = applied.commit :: q.queue := by
      unfold CommitQueue.pending unlanded
      rw [hwriting]
      rfl
    refine ⟨.inr ⟨applied, ?_, rfl⟩, fun c hc => ?_, hahead ▸ List.Sublist.refl _⟩
    · rw [hpending]
      exact mem_cons_self
    · rw [hpending]
      exact mem_cons_of_mem _ hc
  · cases hq

theorem Writes.of_finishWrite (hq : q.finishWrite = some q') : Writes q q' := by
  have hahead := ahead_finishWrite hq
  unfold finishWrite at hq
  split at hq
  · rename_i applied next hwriting
    cases hq
    refine ⟨.inl rfl, fun c hc => ?_, hahead ▸ List.Sublist.refl _⟩
    unfold CommitQueue.pending unlanded
    rw [hwriting]
    exact hc
  · cases hq

theorem Writes.of_failWrite (hq : q.failWrite = some q') : Writes q q' := by
  have hahead := ahead_failWrite hq
  unfold failWrite at hq
  split at hq
  · cases hq
    exact ⟨.inl rfl, fun c hc => mem_append_right _ hc, hahead⟩
  · cases hq

theorem Writes.of_reload (q : CommitQueue α μ κ) (loaded : α) : Writes q (q.reload loaded) :=
  ⟨.inl rfl, nofun, List.Sublist.append_left (nil_sublist _) _⟩

end Ahead

/-- The file is what the log makes of the first value, memory is the file but for a write that has not returned, and the log has
the commits that were answered with success and none that was rejected, in the order of their calls. -/
structure Linear (a : α) (q : CommitQueue α μ κ) : Prop where
  file : q.file = replay apply a q.log
  memory : (∀ w ∈ q.writing, w.landed = false) → q.memory = q.file
  next : ∀ w ∈ q.writing, w.next = apply w.applied.commit.mutation w.applied.reading q.memory
  landed : ∀ w ∈ q.writing, w.landed = true → q.file = w.next ∧ ∃ before, q.log = before ++ [w.applied] ∧ q.memory = replay apply a before
  ordered : (q.ahead.map Commit.call).Pairwise (· < ·)
  bounded : ∀ c ∈ q.ahead, c.call < q.calls
  resolved : ∀ c, (c, true) ∈ q.answers → ∃ e ∈ q.log, e.commit = c
  rejected : ∀ c, (c, false) ∈ q.answers → c.call < q.calls ∧ c.call ∉ q.ahead.map Commit.call
  unreturned : ∀ w ∈ q.writing, ∀ c, (c, true) ∈ q.answers → c.call ≠ w.applied.commit.call

namespace Linear

variable {apply} {a : α} {q q' : CommitQueue α μ κ}

theorem start (apply : μ → κ → α → α) (a : α) : Linear apply a (.start a) where
  file := rfl
  memory := fun _ => rfl
  next := nofun
  landed := nofun
  ordered := List.Pairwise.nil
  bounded := nofun
  resolved := nofun
  rejected := nofun
  unreturned := nofun

section

variable (h : Linear apply a q)
include h

theorem memory_replay : q.memory = replay apply a q.log ∨
    ∃ w ∈ q.writing, w.landed = true ∧ ∃ before, q.log = before ++ [w.applied] ∧ q.memory = replay apply a before := by
  by_cases hidle : ∀ w ∈ q.writing, w.landed = false
  · exact .inl ((h.memory hidle).trans h.file)
  · simp only [not_forall, Bool.not_eq_false] at hidle
    obtain ⟨w, hw, hlanded⟩ := hidle
    exact .inr ⟨w, hw, hlanded, (h.landed w hw hlanded).2⟩

theorem call (mutation : Option μ) : Linear apply a (q.call mutation) := by
  have hnew : ∀ c ∈ (mutation.map (Commit.mk q.calls)).toList, c.call = q.calls := by
    intro c hc
    obtain ⟨m, _, rfl⟩ := Option.map_eq_some_iff.1 (Option.mem_toList.1 hc)
    rfl
  refine ⟨h.file, h.memory, h.next, h.landed, ?_, ?_, h.resolved, ?_, h.unreturned⟩
  · rw [ahead_call, map_append]
    refine pairwise_append.2 ⟨h.ordered, ?_, ?_⟩
    · cases mutation with
      | none => exact List.Pairwise.nil
      | some m => exact pairwise_singleton _ _
    · intro x hx y hy
      obtain ⟨c, hc, rfl⟩ := mem_map.1 hx
      obtain ⟨c', hc', rfl⟩ := mem_map.1 hy
      rw [hnew c' hc']
      exact h.bounded c hc
  · intro c hc
    rw [ahead_call] at hc
    rcases mem_append.1 hc with hc | hc
    · exact Nat.lt_succ_of_lt (h.bounded c hc)
    · rw [hnew c hc]
      exact Nat.lt_succ_self _
  · intro c hc
    obtain ⟨hlt, hnot⟩ := h.rejected c hc
    refine ⟨Nat.lt_succ_of_lt hlt, fun hmem => ?_⟩
    rw [ahead_call, map_append] at hmem
    rcases mem_append.1 hmem with hmem | hmem
    · exact hnot hmem
    · obtain ⟨c', hc', heq⟩ := mem_map.1 hmem
      rw [hnew c' hc'] at heq
      exact absurd heq.symm (Nat.ne_of_lt hlt)

theorem startWrite {reading : κ} (hq : q.startWrite apply reading = some q') : Linear apply a q' := by
  have hahead := ahead_startWrite hq
  unfold CommitQueue.startWrite at hq
  split at hq
  · rename_i c queue hwriting hqueue
    cases hq
    have hidle : ∀ w ∈ q.writing, w.landed = false := by
      rw [hwriting]
      exact nofun
    refine ⟨h.file, fun _ => h.memory hidle, ?_, ?_, ?_, ?_, h.resolved, ?_, ?_⟩
    · rintro w hw
      cases hw
      rfl
    · rintro w hw hlanded
      cases hw
      cases hlanded
    · rw [hahead]
      exact h.ordered
    · exact fun c' hc' => h.bounded c' (by rwa [← hahead])
    · exact fun c' hc' => ⟨(h.rejected c' hc').1, by rw [hahead]; exact (h.rejected c' hc').2⟩
    · -- what was answered is in the log, before everything that waits
      rintro w hw c' hc'
      cases hw
      obtain ⟨e, he, rfl⟩ := h.resolved c' hc'
      have hordered := h.ordered
      unfold ahead pending at hordered
      rw [hqueue, map_append, pairwise_append] at hordered
      exact Nat.ne_of_lt (hordered.2.2 _ (mem_map_of_mem (mem_map_of_mem he)) _ (by simp))
  · cases hq

theorem landWrite (hq : q.landWrite = some q') : Linear apply a q' := by
  have hahead := ahead_landWrite hq
  unfold CommitQueue.landWrite at hq
  split at hq
  · rename_i applied next hwriting
    cases hq
    have hidle : ∀ w ∈ q.writing, w.landed = false := by
      rw [hwriting]
      rintro w hw
      cases hw
      rfl
    have hnext : next = apply applied.commit.mutation applied.reading q.memory := h.next _ hwriting
    have hmemory : q.memory = replay apply a q.log := (h.memory hidle).trans h.file
    refine ⟨?_, fun hfalse => ?_, ?_, ?_, ?_, ?_, ?_, ?_, ?_⟩
    · rw [replay_concat, ← hmemory]
      exact hnext
    · cases hfalse ⟨applied, next, true⟩ rfl
    · rintro w hw
      cases hw
      exact hnext
    · rintro w hw _
      cases hw
      exact ⟨rfl, q.log, rfl, hmemory⟩
    · rw [hahead]
      exact h.ordered
    · exact fun c hc => h.bounded c (by rwa [← hahead])
    · intro c hc
      obtain ⟨e, he, hcommit⟩ := h.resolved c hc
      exact ⟨e, mem_append_left _ he, hcommit⟩
    · exact fun c hc => ⟨(h.rejected c hc).1, by rw [hahead]; exact (h.rejected c hc).2⟩
    · rintro w hw
      cases hw
      exact h.unreturned ⟨applied, next, false⟩ hwriting
  · cases hq

theorem finishWrite (hq : q.finishWrite = some q') : Linear apply a q' := by
  have hahead := ahead_finishWrite hq
  unfold CommitQueue.finishWrite at hq
  split at hq
  · rename_i applied next hwriting
    cases hq
    obtain ⟨hfile, before, hlog, _⟩ := h.landed _ hwriting rfl
    refine ⟨h.file, fun _ => hfile.symm, nofun, nofun, (by rw [hahead]; exact h.ordered),
      fun c hc => h.bounded c (by rwa [← hahead]), fun c hc => ?_, fun c hc => ?_, nofun⟩
    · rcases mem_append.1 hc with hc | hc
      · exact h.resolved c hc
      · cases mem_singleton.1 hc
        exact ⟨applied, by rw [hlog]; exact mem_append_right _ (mem_singleton_self _), rfl⟩
    · rcases mem_append.1 hc with hc | hc
      · exact ⟨(h.rejected c hc).1, by rw [hahead]; exact (h.rejected c hc).2⟩
      · cases mem_singleton.1 hc
  · cases hq

theorem failWrite (hq : q.failWrite = some q') : Linear apply a q' := by
  unfold CommitQueue.failWrite at hq
  split at hq
  · rename_i applied next hwriting
    cases hq
    have hidle : ∀ w ∈ q.writing, w.landed = false := by
      rw [hwriting]
      rintro w hw
      cases hw
      rfl
    have hahead : q.ahead = q.log.map Applied.commit ++ ([applied.commit] ++ q.queue) := by
      unfold ahead pending unlanded
      rw [hwriting]
    have hsub : (q.log.map Applied.commit ++ ([] ++ q.queue)).Sublist q.ahead := by
      rw [hahead]
      exact List.Sublist.append_left (sublist_cons_self _ _) _
    refine ⟨h.file, fun _ => h.memory hidle, nofun, nofun,
      h.ordered.sublist (hsub.map _), fun c hc => h.bounded c (hsub.subset hc), fun c hc => ?_, fun c hc => ?_,
      nofun⟩
    · rcases mem_append.1 hc with hc | hc
      · exact h.resolved c hc
      · cases mem_singleton.1 hc
    · rcases mem_append.1 hc with hc | hc
      · exact ⟨(h.rejected c hc).1, fun hmem => (h.rejected c hc).2 ((hsub.map _).subset hmem)⟩
      · cases mem_singleton.1 hc
        refine ⟨h.bounded _ (by rw [hahead]; simp), ?_⟩
        -- the numbers of the others are less or greater
        have hordered := h.ordered
        rw [hahead, map_append, map_append, pairwise_append] at hordered
        obtain ⟨_, hrest, hbefore⟩ := hordered
        intro hmem
        obtain ⟨c', hc', heq⟩ := mem_map.1 hmem
        rcases mem_append.1 hc' with hlog | hqueue
        · have hlt := hbefore c'.call (mem_map_of_mem hlog) applied.commit.call (by simp)
          exact absurd heq (Nat.ne_of_lt hlt)
        · have hlt := (pairwise_append.1 hrest).2.2 applied.commit.call (by simp) c'.call (mem_map_of_mem hqueue)
          exact absurd heq.symm (Nat.ne_of_lt hlt)
  · cases hq

theorem reload {loaded : α} (hloaded : loaded = q.file) : Linear apply a (q.reload loaded) := by
  have hsub : (q.reload loaded).ahead.Sublist q.ahead := List.Sublist.append_left (nil_sublist _) _
  exact ⟨h.file, fun _ => hloaded, nofun, nofun, h.ordered.sublist (hsub.map _),
    fun c hc => h.bounded c (hsub.subset hc), h.resolved,
    fun c hc => ⟨(h.rejected c hc).1, fun hmem => (h.rejected c hc).2 ((hsub.map _).subset hmem)⟩, nofun⟩

/-- Memory is what a part of the log makes of the first value, and that part has every commit whose write has returned. -/
theorem returned : ∃ before after, q.log = before ++ after ∧ q.memory = replay apply a before ∧
    ∀ c, (c, true) ∈ q.answers → ∃ e ∈ before, e.commit = c := by
  rcases h.memory_replay with hmemory | ⟨w, hw, _, before, hlog, hmemory⟩
  · exact ⟨q.log, [], (append_nil _).symm, hmemory, h.resolved⟩
  · refine ⟨before, [w.applied], hlog, hmemory, fun c hc => ?_⟩
    obtain ⟨e, he, hcommit⟩ := h.resolved c hc
    rw [hlog] at he
    rcases mem_append.1 he with he | he
    · exact ⟨e, he, hcommit⟩
    · rw [mem_singleton.1 he] at hcommit
      exact absurd (congrArg Commit.call hcommit).symm (h.unreturned w hw c hc)

end

end Linear

end CommitQueue

end Kookr.Lib
