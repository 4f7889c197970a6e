import Mathlib.Data.List.Basic

/-! Programs that ask their surroundings and may fail, with the log of what they asked and were
told. The surroundings are a function of the log so far, so they may answer the same question
differently each time. -/

namespace Kookr.Lib

open List

variable {ε τ α β : Type}

structure Traced (ε τ α : Type) where
  run : List τ → Except ε α × List τ

namespace Traced

def andThen (m : Traced ε τ α) (f : α → Traced ε τ β) : Traced ε τ β where
  run log :=
    match m.run log with
    | (.ok a, log) => (f a).run log
    | (.error e, log) => (.error e, log)

instance : Monad (Traced ε τ) where
  pure a := ⟨fun log => (.ok a, log)⟩
  bind := andThen

/-- A question that may fail. -/
def ask (answer : List τ → Except ε α) (entry : Except ε α → τ) : Traced ε τ α :=
  ⟨fun log => (answer log, log ++ [entry (answer log)])⟩

def query (answer : List τ → α) (entry : α → τ) : Traced ε τ α :=
  ⟨fun log => (.ok (answer log), log ++ [entry (answer log)])⟩

def note (entry : τ) : Traced ε τ Unit := ⟨fun log => (.ok (), log ++ [entry])⟩

def lift (result : Except ε α) : Traced ε τ α := ⟨fun log => (result, log)⟩

/-- Go on after a failure as well. -/
def attempt (m : Traced ε τ α) : Traced ε τ (Except ε α) := ⟨fun log => (.ok (m.run log).1, (m.run log).2)⟩

variable {m : Traced ε τ α} {f : α → Traced ε τ β} {log log' : List τ} {a : α} {b : β} {p : τ → Prop} {entry : τ} {result : Except ε α}

theorem bind_of_ok {log₁ : List τ} (h : m.run log = (.ok a, log₁)) : (m >>= f).run log = (f a).run log₁ := by
  change (andThen m f).run log = _
  simp only [andThen, h]

theorem bind_of_error {log₁ : List τ} {e : ε} (h : m.run log = (.error e, log₁)) : (m >>= f).run log = (.error e, log₁) := by
  change (andThen m f).run log = _
  simp only [andThen, h]

theorem bind_eq_ok : (m >>= f).run log = (.ok b, log') ↔ ∃ a log₁, m.run log = (.ok a, log₁) ∧ (f a).run log₁ = (.ok b, log') := by
  rcases hm : m.run log with ⟨e | a, log₁⟩
  · simp [bind_of_error hm]
  · simp [bind_of_ok hm]

theorem pure_eq_ok {a' : α} : (pure a : Traced ε τ α).run log = (.ok a', log') ↔ a = a' ∧ log = log' := by
  change (Except.ok a, log) = (Except.ok a', log') ↔ _
  simp

theorem ask_eq_ok {answer : List τ → Except ε α} {entry : Except ε α → τ} :
    (ask answer entry).run log = (.ok a, log') ↔ answer log = .ok a ∧ log' = log ++ [entry (.ok a)] := by
  unfold ask
  rw [Prod.mk.injEq]
  constructor
  · rintro ⟨ha, rfl⟩
    exact ⟨ha, by rw [ha]⟩
  · rintro ⟨ha, rfl⟩
    exact ⟨ha, by rw [ha]⟩

theorem query_eq_ok {answer : List τ → α} {entry : α → τ} :
    (query answer entry : Traced ε τ α).run log = (.ok a, log') ↔ answer log = a ∧ log' = log ++ [entry a] := by
  unfold query
  rw [Prod.mk.injEq, Except.ok.injEq]
  constructor
  · rintro ⟨rfl, rfl⟩
    exact ⟨rfl, rfl⟩
  · rintro ⟨rfl, rfl⟩
    exact ⟨rfl, rfl⟩

theorem lift_eq_ok : (lift result : Traced ε τ α).run log = (.ok a, log') ↔ result = .ok a ∧ log = log' := by
  unfold lift
  rw [Prod.mk.injEq]

theorem mem_bind (h : entry ∈ ((m >>= f).run log).2) :
    entry ∈ (m.run log).2 ∨ ∃ a log₁, m.run log = (.ok a, log₁) ∧ entry ∈ ((f a).run log₁).2 := by
  rcases hm : m.run log with ⟨e | a, log₁⟩
  · rw [bind_of_error hm] at h
    exact .inl h
  · rw [bind_of_ok hm] at h
    exact .inr ⟨a, log₁, rfl, h⟩

/-- The program only adds entries, and of this kind. -/
def Adds (p : τ → Prop) (m : Traced ε τ α) : Prop := ∀ log, ∃ new, (m.run log).2 = log ++ new ∧ ∀ entry ∈ new, p entry

theorem adds_pure (a : α) : Adds p (pure a : Traced ε τ α) := fun log => ⟨[], (append_nil log).symm, by simp⟩

theorem adds_lift (result : Except ε α) : Adds p (lift result : Traced ε τ α) := fun log =>
  ⟨[], (append_nil log).symm, by simp⟩

theorem adds_ask {answer : List τ → Except ε α} {entry : Except ε α → τ} (h : ∀ result, p (entry result)) :
    Adds p (ask answer entry) := fun _ => ⟨_, rfl, by simp [h]⟩

theorem adds_query {answer : List τ → α} {entry : α → τ} (h : ∀ result, p (entry result)) :
    Adds p (query answer entry : Traced ε τ α) := fun _ => ⟨_, rfl, by simp [h]⟩

theorem adds_note (h : p entry) : Adds p (note entry : Traced ε τ Unit) := fun _ => ⟨_, rfl, by simp [h]⟩

theorem Adds.attempt (h : Adds p m) : Adds p (attempt m) := h

theorem Adds.bind (hm : Adds p m) (hf : ∀ a, Adds p (f a)) : Adds p (m >>= f) := by
  intro log
  obtain ⟨new, hnew, hp⟩ := hm log
  rcases hr : m.run log with ⟨e | a, log₁⟩
  · rw [bind_of_error hr]
    exact ⟨new, by simpa [hr] using hnew, hp⟩
  · rw [bind_of_ok hr]
    obtain ⟨more, hmore, hp'⟩ := hf a log₁
    rw [hr] at hnew
    refine ⟨new ++ more, ?_, fun entry hentry => (mem_append.1 hentry).elim (hp entry) (hp' entry)⟩
    rw [← append_assoc, ← hnew]
    exact hmore

theorem Adds.mono {q : τ → Prop} (h : Adds p m) (hpq : ∀ entry, p entry → q entry) : Adds q m := fun log => by
  obtain ⟨new, hnew, hp⟩ := h log
  exact ⟨new, hnew, fun entry hentry => hpq entry (hp entry hentry)⟩

theorem Adds.mem (h : Adds p m) (hentry : entry ∈ log) : entry ∈ (m.run log).2 := by
  obtain ⟨new, hnew, -⟩ := h log
  rw [hnew]
  exact mem_append_left _ hentry

theorem Adds.mem_of_eq (h : Adds p m) (hrun : m.run log = (result, log')) (hentry : entry ∈ log) : entry ∈ log' := by
  have := h.mem hentry
  rwa [hrun] at this

theorem mem_bind_left (hf : ∀ a, Adds p (f a)) (h : entry ∈ (m.run log).2) : entry ∈ ((m >>= f).run log).2 := by
  rcases hm : m.run log with ⟨e | a, log₁⟩
  · rw [hm] at h
    rwa [bind_of_error hm]
  · rw [hm] at h
    rw [bind_of_ok hm]
    exact (hf a).mem h

theorem Adds.mem_cases (h : Adds p m) (hentry : entry ∈ (m.run log).2) : entry ∈ log ∨ p entry := by
  obtain ⟨new, hnew, hp⟩ := h log
  rw [hnew] at hentry
  exact (mem_append.1 hentry).imp_right (hp entry)

theorem Adds.mem_cases_of_eq (h : Adds p m) (hrun : m.run log = (result, log')) (hentry : entry ∈ log') : entry ∈ log ∨ p entry :=
  h.mem_cases (by rwa [hrun])

theorem only_entry_of_kind {q : τ → Prop} {before after before' after' : List τ} {x y : τ} (hbefore : ∀ entry ∈ before, ¬ q entry)
    (hafter : ∀ entry ∈ after, ¬ q entry) (hy : q y) (heq : before ++ x :: after = before' ++ y :: after') :
    before = before' ∧ x = y := by
  rcases append_eq_append_iff.1 heq with ⟨mid, rfl, hmid⟩ | ⟨mid, rfl, hmid⟩
  · cases mid with
    | nil =>
      simp only [nil_append, cons.injEq] at hmid
      exact ⟨(append_nil _).symm, hmid.1⟩
    | cons z mid =>
      simp only [cons_append, cons.injEq] at hmid
      exact absurd hy (hafter y (hmid.2 ▸ by simp))
  · cases mid with
    | nil =>
      simp only [nil_append, cons.injEq] at hmid
      exact ⟨append_nil _, hmid.1.symm⟩
    | cons z mid =>
      simp only [cons_append, cons.injEq] at hmid
      exact absurd (hmid.1 ▸ hy) (hbefore z (by simp))

end Traced

end Kookr.Lib
