import Mathlib.Logic.Basic

/-! Finite runs of a machine whose step is a partial function of the state and an
event. An event that is not enabled has no successor. Conditions on a run are
conditions on the state before a step and its event. -/

namespace Kookr.Lib

open List

variable {σ ε : Type*}

def exec (step : σ → ε → Option σ) : σ → List ε → Option σ
  | s, [] => some s
  | s, e :: es => (step s e).bind fun s' => exec step s' es

/-- Every step of the run from `s` along the events meets `ok`. -/
def StepsMeet (step : σ → ε → Option σ) (ok : σ → ε → Prop) : σ → List ε → Prop
  | _, [] => True
  | s, e :: es => ok s e ∧ ∀ s', step s e = some s' → StepsMeet step ok s' es

variable {step : σ → ε → Option σ} {ok : σ → ε → Prop} {es : List ε} {Inv : σ → Prop} {s : σ} {ok' : σ → ε → Prop} {p : ε → Prop}

/-- A run is checked by running it. -/
instance StepsMeet.decidable [∀ s e, Decidable (ok s e)] :
    (s : σ) → (es : List ε) → Decidable (StepsMeet step ok s es)
  | _, [] => isTrue trivial
  | s, e :: es =>
    if hok : ok s e then
      match hs : step s e with
      | none => isTrue ⟨hok, fun s' hs' => by rw [hs] at hs'; cases hs'⟩
      | some s' =>
        match StepsMeet.decidable s' es with
        | isTrue h => isTrue ⟨hok, fun s'' hs'' => by rw [hs] at hs''; cases hs''; exact h⟩
        | isFalse h => isFalse fun hmeet => h (hmeet.2 s' hs)
    else isFalse fun hmeet => hok hmeet.1

@[simp] theorem exec_nil (s : σ) : exec step s [] = some s := rfl

theorem exec_cons_eq_some {s t : σ} {e : ε} :
    exec step s (e :: es) = some t ↔ ∃ s', step s e = some s' ∧ exec step s' es = some t := by
  simp [exec, Option.bind_eq_some_iff]

theorem exec_append (s : σ) (es es' : List ε) : exec step s (es ++ es') = (exec step s es).bind fun s' => exec step s' es' := by
  induction es generalizing s with
  | nil => rfl
  | cons e es ih =>
    simp only [cons_append, exec]
    cases step s e with
    | none => rfl
    | some s' => exact ih s'

theorem exec_append_eq_some {s t : σ} {es es' : List ε} : exec step s (es ++ es') = some t ↔
      ∃ s', exec step s es = some s' ∧ exec step s' es' = some t := by
  rw [exec_append, Option.bind_eq_some_iff]

theorem StepsMeet.append {s s' : σ} {es es' : List ε} (h : StepsMeet step ok s (es ++ es'))
    (hs : exec step s es = some s') : StepsMeet step ok s es ∧ StepsMeet step ok s' es' := by
  induction es generalizing s with
  | nil => cases hs; exact ⟨trivial, h⟩
  | cons e es ih =>
    obtain ⟨s₁, h₁, h₂⟩ := exec_cons_eq_some.1 hs
    refine ⟨⟨h.1, fun s₂ hs₂ => ?_⟩, (ih (h.2 s₁ h₁) h₂).2⟩
    obtain rfl : s₁ = s₂ := Option.some.inj (h₁.symm.trans hs₂)
    exact (ih (h.2 s₁ h₁) h₂).1

theorem StepsMeet.concat {e : ε} (h : StepsMeet step ok s es)
    (hlast : ∀ s', exec step s es = some s' → ok s' e) : StepsMeet step ok s (es ++ [e]) := by
  induction es generalizing s with
  | nil => exact ⟨hlast s rfl, fun _ _ => trivial⟩
  | cons e' es ih =>
    refine ⟨h.1, fun s' hs' => ih (h.2 s' hs') fun s'' hs'' => hlast s'' ?_⟩
    exact exec_cons_eq_some.2 ⟨s', hs', hs''⟩

theorem StepsMeet.mono (himp : ∀ s e, ok s e → ok' s e) (h : StepsMeet step ok s es) : StepsMeet step ok' s es := by
  induction es generalizing s with
  | nil => trivial
  | cons e es ih => exact ⟨himp s e h.1, fun s' hs' => ih (h.2 s' hs')⟩

theorem StepsMeet.and (h : StepsMeet step ok s es)
    (h' : StepsMeet step ok' s es) : StepsMeet step (fun s e => ok s e ∧ ok' s e) s es := by
  induction es generalizing s with
  | nil => trivial
  | cons e es ih => exact ⟨⟨h.1, h'.1⟩, fun s' hs' => ih (h.2 s' hs') (h'.2 s' hs')⟩

theorem StepsMeet.and_forall (h : StepsMeet step ok s es)
    (hp : ∀ e ∈ es, p e) : StepsMeet step (fun s e => ok s e ∧ p e) s es := by
  induction es generalizing s with
  | nil => trivial
  | cons e es ih =>
    exact ⟨⟨h.1, hp e mem_cons_self⟩,
      fun s' hs' => ih (h.2 s' hs') fun e' he' => hp e' (mem_cons_of_mem _ he')⟩

theorem StepsMeet.of_forall (hp : ∀ e ∈ es, p e) : StepsMeet step (fun _ e => p e) s es := by
  induction es generalizing s with
  | nil => trivial
  | cons e es ih =>
    exact ⟨hp e mem_cons_self, fun s' _ => ih fun e' he' => hp e' (mem_cons_of_mem _ he')⟩

theorem StepsMeet.of_invariant (hok : ∀ s e, Inv s → p e → ok s e)
    (hstep : ∀ s e s', Inv s → p e → step s e = some s' → Inv s') (hinv : Inv s)
    (hp : ∀ e ∈ es, p e) : StepsMeet step ok s es := by
  induction es generalizing s with
  | nil => trivial
  | cons e es ih =>
    have he := hp e mem_cons_self
    exact ⟨hok s e hinv he, fun s' hs' => ih (hstep s e s' hinv he hs') fun e' he' => hp e' (mem_cons_of_mem _ he')⟩

/-- Two conditions on steps that an invariant makes the same, and that keep it. -/
theorem StepsMeet.iff_of_invariant (hiff : ∀ s e, Inv s → (ok s e ↔ ok' s e))
    (hstep : ∀ s e s', Inv s → ok' s e → step s e = some s' → Inv s') (hinv : Inv s) :
    StepsMeet step ok s es ↔ StepsMeet step ok' s es := by
  induction es generalizing s with
  | nil => exact Iff.rfl
  | cons e es ih =>
    constructor
    · rintro ⟨hok, hrest⟩
      have hok' := (hiff s e hinv).1 hok
      exact ⟨hok', fun s' hs' => (ih (hstep s e s' hinv hok' hs')).1 (hrest s' hs')⟩
    · rintro ⟨hok', hrest⟩
      exact ⟨(hiff s e hinv).2 hok', fun s' hs' => (ih (hstep s e s' hinv hok' hs')).2 (hrest s' hs')⟩

/-- The invariant rule: what every admissible step keeps, every admissible run keeps. -/
theorem exec_invariant (hstep : ∀ s e s', Inv s → ok s e → step s e = some s' → Inv s')
    {s s' : σ} (hinv : Inv s) (hok : StepsMeet step ok s es) (hs : exec step s es = some s') : Inv s' := by
  induction es generalizing s with
  | nil => cases hs; exact hinv
  | cons e es ih =>
    obtain ⟨s₁, h₁, h₂⟩ := exec_cons_eq_some.1 hs
    exact ih (hstep s e s₁ hinv hok.1 h₁) (hok.2 s₁ h₁) h₂

theorem exec_invariant_log {Inv : List ε → σ → Prop}
    (hstep : ∀ past s e s', Inv past s → ok s e → step s e = some s' → Inv (past ++ [e]) s')
    {past : List ε} {s s' : σ} (hinv : Inv past s) (hok : StepsMeet step ok s es)
    (hs : exec step s es = some s') : Inv (past ++ es) s' := by
  induction es generalizing s past with
  | nil =>
    cases hs
    rwa [append_nil]
  | cons e es ih =>
    obtain ⟨s₁, h₁, h₂⟩ := exec_cons_eq_some.1 hs
    rw [← singleton_append, ← append_assoc]
    exact ih (hstep past s e s₁ hinv hok.1 h₁) (hok.2 s₁ h₁) h₂

theorem stepsMeet_true (s : σ) (es : List ε) : StepsMeet step (fun _ _ => True) s es := by
  induction es generalizing s with
  | nil => trivial
  | cons e es ih => exact ⟨trivial, fun s' _ => ih s'⟩

theorem exec_preserves (hstep : ∀ s e s', Inv s → step s e = some s' → Inv s')
    {s s' : σ} (hinv : Inv s) (hs : exec step s es = some s') : Inv s' :=
  exec_invariant (fun s e s' h _ => hstep s e s' h) hinv (stepsMeet_true s es) hs

end Kookr.Lib
