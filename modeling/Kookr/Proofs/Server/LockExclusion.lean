import Mathlib.Tactic.ByContra
import Mathlib.Tactic.SplitIfs
import Kookr.Spec.Server.CrossProcessLock

/-! The lock excludes, in every run in which no reclaimer removes the directory of a process that
holds the lock. Two reclaimers may both have read the dead holder: the second one removes what the
first has made since, and both acquire. -/

namespace Kookr.Server.CrossProcessLock

open Kookr.Lib Option

variable {isAlive : ℕ → Bool} {s s' : CrossProcessLock} {e : LockEvent} {pid q : ℕ} {directory : Option HolderFile}
  {process : LockProcess}

/-- No two processes hold the lock, and no process holds it twice. -/
def Excludes (s : CrossProcessLock) : Prop :=
  (∀ pid q, 0 < (s.processes pid).acquired → 0 < (s.processes q).acquired → pid = q) ∧
    ∀ pid, (s.processes pid).acquired ≤ 1

def NotHeld (s : CrossProcessLock) : Prop :=
  match s.directory with
  | some (.record holder _) => (s.processes holder).acquired = 0
  | _ => True

/-- A reclaimer removes the directory of nobody who holds the lock. -/
def ReclaimsDead (s : CrossProcessLock) : LockEvent → Prop
  | .operation pid _ false =>
    match (s.processes pid).stage with
    | .remove _ _ => s.NotHeld
    | _ => True
  | _ => True

instance NotHeld.decidable (s : CrossProcessLock) : Decidable s.NotHeld := by
  unfold NotHeld
  split <;> infer_instance

instance ReclaimsDead.decidable (s : CrossProcessLock) (e : LockEvent) : Decidable (s.ReclaimsDead e) := by
  unfold ReclaimsDead
  split
  · split <;> infer_instance
  · infer_instance

/-- Whoever holds the lock holds it once, and is the one the directory records. -/
def Recorded (s : CrossProcessLock) : Prop :=
  ∀ pid, 0 < (s.processes pid).acquired →
    (s.processes pid).acquired = 1 ∧ ∃ since, s.directory = some (.record pid since)

theorem Recorded.excludes (h : s.Recorded) : s.Excludes := by
  constructor
  · intro pid q hpid hq
    obtain ⟨-, since, hdir⟩ := h pid hpid
    obtain ⟨-, since', hdir'⟩ := h q hq
    rw [hdir] at hdir'
    simp only [some.injEq, HolderFile.record.injEq] at hdir'
    exact hdir'.1
  · intro pid
    by_cases hpid : 0 < (s.processes pid).acquired
    · exact Nat.le_of_eq (h pid hpid).1
    · omega

theorem recorded_start (directory : Option HolderFile) : (start directory).Recorded := by
  intro pid hpid
  simp [start] at hpid

theorem Recorded.nobody (h : s.Recorded) (hnot : s.NotHeld) (pid : ℕ) : (s.processes pid).acquired = 0 := by
  by_contra hne
  obtain ⟨-, since, hdir⟩ := h pid (Nat.pos_of_ne_zero hne)
  simp only [NotHeld, hdir] at hnot
  exact hne hnot

theorem put_self (s : CrossProcessLock) (pid : ℕ) (directory : Option HolderFile) (process : LockProcess) :
    (s.put pid directory process).processes pid = process := if_pos rfl

theorem put_other (s : CrossProcessLock) (directory : Option HolderFile) (process : LockProcess) (hq : q ≠ pid) :
    (s.put pid directory process).processes q = s.processes q := if_neg hq

theorem Recorded.keep (h : s.Recorded) (hacquired : process.acquired = (s.processes pid).acquired) :
    (s.put pid s.directory process).Recorded := by
  intro q hq
  by_cases heq : q = pid
  · subst heq
    rw [put_self, hacquired] at hq ⊢
    exact h q hq
  · rw [put_other _ _ _ heq] at hq ⊢
    exact h q hq

theorem Recorded.free (hnobody : ∀ pid, (s.processes pid).acquired = 0) (hacquired : process.acquired = 0) :
    (s.put pid directory process).Recorded := by
  intro q hq
  by_cases heq : q = pid
  · subst heq
    rw [put_self] at hq
    omega
  · rw [put_other _ _ _ heq, hnobody q] at hq
    omega

theorem found_acquired (p : LockProcess) (pid attempt : ℕ) (holder : LockHolder) :
    (p.found isAlive pid attempt holder).acquired = p.acquired := by
  unfold LockProcess.found
  split
  · split_ifs <;> rfl
  · rfl

theorem recorded_operation {now : String} {fails : Bool} (h : s.Recorded)
    (hok : s.ReclaimsDead (.operation pid now fails)) (hstep : s.operation isAlive pid now fails = some s') : s'.Recorded := by
  unfold operation at hstep
  dsimp only at hstep
  split at hstep
  · simp at hstep
  · -- making the directory
    split at hstep
    · obtain rfl := some.inj hstep
      exact h.keep rfl
    · split at hstep
      · rename_i hdir
        obtain rfl := some.inj hstep
        have hnobody := h.nobody (by simp [NotHeld, hdir])
        exact .free hnobody (hnobody pid)
      · rename_i hdir
        obtain rfl := some.inj hstep
        rw [← hdir]
        exact h.keep rfl
  · -- writing the holder
    split at hstep
    · obtain rfl := some.inj hstep
      exact h.keep rfl
    · split at hstep
      · rename_i hdir
        obtain rfl := some.inj hstep
        rw [← hdir]
        exact h.keep rfl
      · rename_i hdir
        obtain rfl := some.inj hstep
        have hnobody := h.nobody (by simp [NotHeld, hdir])
        intro q hq
        by_cases heq : q = pid
        · subst heq
          rw [put_self]
          exact ⟨by simp [LockProcess.acquires, hnobody q], _, rfl⟩
        · rw [put_other _ _ _ heq, hnobody q] at hq
          omega
      · rename_i hdir
        obtain rfl := some.inj hstep
        rw [← hdir]
        exact h.keep rfl
  · obtain rfl := some.inj hstep
    exact h.keep (found_acquired _ pid _ _)
  · -- the removal
    rename_i attempt holder hstage
    split at hstep
    · obtain rfl := some.inj hstep
      exact h.keep rfl
    · rename_i hfails
      obtain rfl := some.inj hstep
      have hnobody : ∀ pid, (s.processes pid).acquired = 0 := by
        refine h.nobody ?_
        simpa [ReclaimsDead, hstage, hfails] using hok
      exact .free hnobody (hnobody pid)
  · obtain rfl := some.inj hstep
    exact h.keep rfl

theorem recorded_step (h : s.Recorded) (hok : s.ReclaimsDead e) (hstep : s.step isAlive e = some s') : s'.Recorded := by
  cases e with
  | tryAcquire pid =>
    obtain ⟨-, hs'⟩ := ite_none_right_eq_some.1 hstep
    obtain rfl := some.inj hs'
    exact h.keep rfl
  | operation pid now fails => exact recorded_operation h hok (ite_none_right_eq_some.1 hstep).2
  | release pid fails =>
    obtain ⟨⟨-, -, hheld⟩, hs'⟩ := ite_none_right_eq_some.1 hstep
    obtain rfl := some.inj hs'
    have hone := (h pid hheld).1
    intro q hq
    by_cases heq : q = pid
    · subst heq
      rw [put_self] at hq
      simp only at hq
      omega
    · -- another holder would be the same process
      rw [put_other _ _ _ heq] at hq
      exact absurd (h.excludes.1 q pid hq hheld) heq

/-- Whatever directory was left, or none, the lock excludes. -/
theorem lock_excludes (isAlive : ℕ → Bool) (directory : Option HolderFile) (events : List LockEvent)
    (hok : StepsMeet (step isAlive) ReclaimsDead (start directory) events)
    (hrun : exec (step isAlive) (start directory) events = some s) : s.Excludes :=
  (exec_invariant (fun _ _ _ h hok hstep => recorded_step h hok hstep) (recorded_start directory) hok hrun).excludes

def oneAndTwo (pid : ℕ) : Bool := pid = 1 ∨ pid = 2

def left : Option HolderFile := some (.record 9 "before")

/-- One process reclaims the lock of a dead one, and another one that comes meanwhile finds it taken. -/
def reclaimRun : List LockEvent :=
  [.tryAcquire 1, .operation 1 "t" false, .operation 1 "t" false, .operation 1 "t" false, .operation 1 "t" false,
    .tryAcquire 2, .operation 2 "t" false, .operation 1 "t" false, .operation 2 "t" false, .release 1 false]

theorem lock_excludes_reclaimRun : ∃ s, exec (step oneAndTwo) (start left) reclaimRun = some s ∧ s.Excludes :=
  ⟨_, rfl, lock_excludes oneAndTwo left reclaimRun (by decide) rfl⟩

/-- A directory that a dead process may have left, or none. -/
def LeftByDead (isAlive : ℕ → Bool) (directory : Option HolderFile) : Prop :=
  ∀ pid since, directory = some (.record pid since) → isAlive pid = false

/-- Both read the dead holder; the second one removes what the first has made. -/
def crossedRun : List LockEvent :=
  [.tryAcquire 1, .tryAcquire 2, .operation 1 "t" false, .operation 2 "t" false, .operation 1 "t" false,
    .operation 2 "t" false, .operation 1 "t" false, .operation 1 "t" false, .operation 1 "t" false,
    .operation 2 "t" false, .operation 2 "t" false, .operation 2 "t" false]

theorem reclaimers_share : ¬ ∀ isAlive directory, LeftByDead isAlive directory →
    ∀ events s, exec (step isAlive) (start directory) events = some s → s.Excludes := by
  intro h
  have hdead : LeftByDead oneAndTwo left := by
    intro pid since heq
    simp only [left, some.injEq, HolderFile.record.injEq] at heq
    simp [← heq.1, oneAndTwo]
  have heq := (h oneAndTwo left hdead crossedRun _ rfl).1 1 2 (by decide) (by decide)
  omega

end Kookr.Server.CrossProcessLock
