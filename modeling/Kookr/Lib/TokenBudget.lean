import Mathlib.Algebra.Order.Floor.Semiring
import Mathlib.Algebra.Order.Field.Basic
import Mathlib.Tactic.Linarith

/-! What a bucket of tokens that is refilled lazily lets through. Of the bucket there is how many tokens it holds
and when it was refilled last; how it decides on a refill is left to the program. -/

namespace Kookr.Lib

variable {K : Type*} [LinearOrder K]

def takesFrom (a : K) (takes : List K) : ℕ := takes.countP fun t => a ≤ t

def takesWithin (a b : K) (takes : List K) : ℕ := takes.countP fun t => a ≤ t ∧ t ≤ b

theorem takesWithin_le_takesFrom (a b : K) (takes : List K) : takesWithin a b takes ≤ takesFrom a takes :=
  List.countP_mono_left fun t _ ht => by
    rw [decide_eq_true_eq] at ht ⊢
    exact ht.1

theorem takesFrom_concat (a t : K) (takes : List K) : takesFrom a (takes ++ [t]) = takesFrom a takes + if a ≤ t then 1 else 0 := by
  simp [takesFrom, List.countP_append, List.countP_singleton]

theorem takesWithin_concat_of_not {a b t : K} (h : ¬ (a ≤ t ∧ t ≤ b)) (takes : List K) :
    takesWithin a b (takes ++ [t]) = takesWithin a b takes := by
  simp only [takesWithin, List.countP_append, List.countP_singleton, decide_eq_true_eq, h, if_false, add_zero]

/-- The tokens taken since any moment are those of a full bucket and those regained, which an interval each has gone
by for, from an interval before that moment at the earliest. -/
structure Rationed [Field K] [FloorSemiring K] (capacity : ℕ) (interval : K) (tokens : ℕ) (lastRefillAt : K) (takes : List K) : Prop where
  tokens_le : tokens ≤ capacity
  budget : ∀ a, 0 < takesFrom a takes → ∃ gained : ℕ, takesFrom a takes + tokens ≤ capacity + gained ∧ gained * interval < lastRefillAt - a + interval
  within : ∀ a b, takesWithin a b takes ≤ capacity + ⌈(b - a) / interval⌉₊

variable [Field K] [FloorSemiring K] {capacity tokens : ℕ} {interval lastRefillAt now : K} {takes : List K}

theorem rationed_full (capacity : ℕ) (interval startAt : K) : Rationed capacity interval capacity startAt [] where
  tokens_le := le_rfl
  budget := by simp [takesFrom]
  within := by simp [takesWithin]

variable [IsStrictOrderedRing K]

theorem Rationed.refill (h : Rationed capacity interval tokens lastRefillAt takes) (gained : ℕ) :
    Rationed capacity interval (min capacity (tokens + gained)) (lastRefillAt + gained * interval) takes where
  tokens_le := min_le_left _ _
  budget a ha := by
    obtain ⟨before, hcount, htime⟩ := h.budget a ha
    refine ⟨before + gained, ?_, ?_⟩
    · omega
    · push_cast
      linarith
  within := h.within

theorem Rationed.take (h : Rationed capacity interval (tokens + 1) lastRefillAt takes) (hpos : 0 < interval) (hlast : lastRefillAt ≤ now)
    (hdue : now < lastRefillAt + interval) : Rationed capacity interval tokens lastRefillAt (takes ++ [now]) := by
  have htokens := h.tokens_le
  have hbudget : ∀ a, 0 < takesFrom a (takes ++ [now]) → ∃ gained : ℕ,
      takesFrom a (takes ++ [now]) + tokens ≤ capacity + gained ∧ gained * interval < lastRefillAt - a + interval := by
    intro a ha
    rw [takesFrom_concat] at ha ⊢
    rcases Nat.eq_zero_or_pos (takesFrom a takes) with hzero | hsome
    · -- the first take since then: nothing need be regained
      refine ⟨0, ?_, ?_⟩
      · split_ifs <;> omega
      · have hnow : a ≤ now := by
          by_contra hnot
          simp [hzero, hnot] at ha
        rw [Nat.cast_zero]
        linarith
    · obtain ⟨gained, hcount, htime⟩ := h.budget a hsome
      refine ⟨gained, ?_, htime⟩
      split_ifs <;> omega
  refine ⟨by omega, hbudget, fun a b => ?_⟩
  by_cases hin : a ≤ now ∧ now ≤ b
  · have hsome : 0 < takesFrom a (takes ++ [now]) := by
      rw [takesFrom_concat, if_pos hin.1]
      omega
    obtain ⟨gained, hcount, htime⟩ := hbudget a hsome
    have hgained : gained ≤ ⌈(b - a) / interval⌉₊ := by
      have hlt : (gained : K) < (b - a) / interval + 1 := by
        rw [← sub_lt_iff_lt_add, lt_div_iff₀ hpos]
        linarith [hin.2]
      have hceil : (gained : K) < (⌈(b - a) / interval⌉₊ + 1 : ℕ) := by
        push_cast
        linarith [Nat.le_ceil ((b - a) / interval)]
      exact Nat.lt_succ_iff.1 (Nat.cast_lt.1 hceil)
    have hle := takesWithin_le_takesFrom a b (takes ++ [now])
    omega
  · rw [takesWithin_concat_of_not hin]
    exact h.within a b

end Kookr.Lib
