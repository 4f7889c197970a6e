import Mathlib.Logic.Function.Basic
import Mathlib.Order.Lattice
import Mathlib.Tactic.SplitIfs

/-! Registers kept in memory, recovered from a base image and a log of writes. A write
does not replace a value of higher rank; among equal ranks the last write wins. Writers
change memory first and log later, each at its own pace; a rotation captures memory,
installs the capture as the new base and drops the log. -/

namespace Kookr.Lib.RegisterLog

variable {κ ν ι : Type*} [DecidableEq κ] (rank : ν → ℕ)

def upd (x v : ν) : ν := if rank x ≤ rank v then v else x

def put (m : κ → ν) (e : κ × ν) : κ → ν := Function.update m e.1 (upd rank (m e.1) e.2)

def replay (m : κ → ν) (log : List (κ × ν)) : κ → ν := log.foldl (put rank) m

variable {rank} (m : κ → ν)

theorem upd_of_le {x v : ν} (h : rank x ≤ rank v) : upd rank x v = v := if_pos h

theorem rank_upd (rank : ν → ℕ) (x v : ν) : rank (upd rank x v) = max (rank x) (rank v) := by
  unfold upd; split <;> omega

theorem upd_eq_or (x v : ν) : upd rank x v = v ∨ upd rank x v = x := by
  unfold upd; split <;> simp

theorem upd_upd_self (x v : ν) : upd rank (upd rank x v) v = upd rank x v := by
  unfold upd; split_ifs <;> rfl

theorem put_apply (e : κ × ν) (k : κ) : put rank m e k = if k = e.1 then upd rank (m k) e.2 else m k := by
  unfold put
  by_cases h : k = e.1
  · subst h; simp
  · simp [h]

theorem put_of_ne (e : κ × ν) {k : κ} (h : k ≠ e.1) : put rank m e k = m k := by
  simp [put_apply, h]

@[simp] theorem put_self (k : κ) (v : ν) : put rank m (k, v) k = upd rank (m k) v := by
  simp [put_apply]

theorem rank_le_put (e : κ × ν) (k : κ) : rank (m k) ≤ rank (put rank m e k) := by
  rw [put_apply]; split
  · rw [rank_upd rank]; exact le_max_left _ _
  · exact le_rfl

@[simp] theorem replay_nil : replay rank m [] = m := rfl

theorem replay_append (log log' : List (κ × ν)) :
    replay rank m (log ++ log') = replay rank (replay rank m log) log' := List.foldl_append

theorem replay_concat (log : List (κ × ν)) (e : κ × ν) :
    replay rank m (log ++ [e]) = put rank (replay rank m log) e := replay_append m log [e]

theorem rank_le_replay (log : List (κ × ν)) (k : κ) : rank (m k) ≤ rank (replay rank m log k) := by
  induction log generalizing m with
  | nil => exact le_rfl
  | cons e log ih => exact (rank_le_put m e k).trans (ih (put rank m e))

theorem replay_congr {m m' : κ → ν} {k : κ} (h : m k = m' k) (log : List (κ × ν)) :
    replay rank m log k = replay rank m' log k := by
  induction log generalizing m m' with
  | nil => exact h
  | cons e log ih => exact ih (by rw [put_apply, put_apply, h])

/-- Replaying a log over a later image gives that image or what the log gave before. -/
theorem replay_eq_or (m m' : κ → ν) (log : List (κ × ν)) (k : κ) (h : rank (m k) ≤ rank (m' k)) :
    replay rank m' log k = m' k ∨ replay rank m' log k = replay rank m log k := by
  induction log generalizing m m' with
  | nil => exact .inl rfl
  | cons e log ih =>
    by_cases hk : k = e.1
    · by_cases hv : rank (m' k) ≤ rank e.2
      · -- the write replaces both values
        have hput : put rank m' e k = put rank m e k := by
          rw [put_apply, put_apply, if_pos hk, if_pos hk, upd_of_le hv, upd_of_le (h.trans hv)]
        exact .inr (replay_congr hput log)
      · have hput : put rank m' e k = m' k := by
          rw [put_apply, if_pos hk, upd, if_neg hv]
        have hle : rank (put rank m e k) ≤ rank (put rank m' e k) := by
          rw [hput, put_apply, if_pos hk, rank_upd rank]; omega
        simpa only [replay, List.foldl_cons, hput] using ih (put rank m e) (put rank m' e) hle
    · have hle : rank (put rank m e k) ≤ rank (put rank m' e k) := by
        rwa [put_of_ne m e hk, put_of_ne m' e hk]
      simpa only [replay, List.foldl_cons, put_of_ne m' e hk] using
        ih (put rank m e) (put rank m' e) hle

/-- Some writer has yet to log `v` for `k`. -/
def Pending (pend : ι → Option (κ × ν)) (k : κ) (v : ν) : Prop := ∃ i, pend i = some (k, v)

/-- Some writer other than `i` has yet to log `v` for `k`. -/
def PendingBut (pend : ι → Option (κ × ν)) (i : ι) (k : κ) (v : ν) : Prop :=
  ∃ j, j ≠ i ∧ pend j = some (k, v)

variable (rank)

/-- What memory shows is recovered, or its writer has yet to log it; likewise for every
capture that a rotation in progress is about to install. -/
structure Inv (mem base : κ → ν) (log : List (κ × ν)) (pend : ι → Option (κ × ν))
    (cap : ι → Option (κ → ν)) : Prop where
  shown : ∀ k, replay rank base log k = mem k ∨ Pending pend k (mem k)
  rank_le : ∀ k, rank (replay rank base log k) ≤ rank (mem k)
  pend_le : ∀ i k v, pend i = some (k, v) → rank v ≤ rank (mem k)
  cap_shown : ∀ i σ, cap i = some σ → ∀ k, σ k = mem k ∨ Pending pend k (mem k)
  cap_le : ∀ i σ, cap i = some σ → ∀ k, rank (σ k) ≤ rank (mem k)
  base_le : ∀ i σ, cap i = some σ → ∀ k, rank (base k) ≤ rank (σ k)

variable {rank} {mem base : κ → ν} {log : List (κ × ν)} {pend pend' : ι → Option (κ × ν)}
  {cap cap' : ι → Option (κ → ν)} {i : ι}

namespace Inv

theorem init (base : κ → ν) (log : List (κ × ν)) : Inv rank (replay rank base log) base log (fun _ : ι => none) fun _ => none :=
  ⟨fun _ => .inl rfl, fun _ => le_rfl, by simp, by simp, by simp, by simp⟩

section

variable (h : Inv rank mem base log pend cap)
include h

theorem call (hi : pend i = none) (e : κ × ν) (hnew : pend' i = some e) (hsame : ∀ j, j ≠ i → pend' j = pend j) :
    Inv rank (put rank mem e) base log pend' cap := by
  have hkeep : ∀ {k v}, Pending pend k v → Pending pend' k v := by
    rintro k v ⟨j, hj⟩
    exact ⟨j, by rwa [hsame j (by rintro rfl; simp [hi] at hj)]⟩
  have hshow : ∀ (x : κ → ν) (k : κ), (x k = mem k ∨ Pending pend k (mem k)) →
      x k = put rank mem e k ∨ Pending pend' k (put rank mem e k) := by
    intro x k hx
    by_cases hv : k = e.1 ∧ upd rank (mem k) e.2 = e.2
    · refine .inr ⟨i, ?_⟩
      rw [hnew, put_apply, if_pos hv.1, hv.2, hv.1]
    · have hold : put rank mem e k = mem k := by
        by_cases hk : k = e.1
        · rw [put_apply, if_pos hk]
          exact (upd_eq_or (mem k) e.2).resolve_left fun he => hv ⟨hk, he⟩
        · exact put_of_ne mem e hk
      rw [hold]
      exact hx.imp_right hkeep
  refine ⟨fun k => hshow _ k (h.shown k), fun k => (h.rank_le k).trans (rank_le_put mem e k), ?_,
    fun j σ hσ k => hshow σ k (h.cap_shown j σ hσ k),
    fun j σ hσ k => (h.cap_le j σ hσ k).trans (rank_le_put mem e k), h.base_le⟩
  intro j k v hj
  by_cases hji : j = i
  · subst hji
    rw [hnew, Option.some.injEq] at hj
    subst hj
    rw [put_self, rank_upd rank]; exact le_max_right _ _
  · rw [hsame j hji] at hj
    exact (h.pend_le j k v hj).trans (rank_le_put mem e k)

/-- A write is logged: it would not replace what memory shows, or what memory shows is
still to be logged by another; and if memory shows it, so does every capture. -/
theorem append {k : κ} {v : ν} (hi : pend i = some (k, v)) (hlast : upd rank (mem k) v = mem k ∨ PendingBut pend i k (mem k))
    (hcov : v = mem k → ∀ j σ, cap j = some σ → σ k = v ∨ PendingBut pend i k (mem k))
    (hdone : pend' i = none) (hsame : ∀ j, j ≠ i → pend' j = pend j) : Inv rank mem base (log ++ [(k, v)]) pend' cap := by
  have hbut : ∀ {k' v'}, PendingBut pend i k' v' → Pending pend' k' v' := by
    rintro k' v' ⟨j, hji, hj⟩
    exact ⟨j, by rwa [hsame j hji]⟩
  have hkeep : ∀ {k' v'}, Pending pend k' v' → Pending pend' k' v' ∨ (k' = k ∧ v' = v) := by
    rintro k' v' ⟨j, hj⟩
    by_cases hji : j = i
    · subst hji
      rw [hi] at hj
      cases hj
      exact .inr ⟨rfl, rfl⟩
    · exact .inl (hbut ⟨j, hji, hj⟩)
  refine ⟨fun k' => ?_, fun k' => ?_, ?_, fun j σ hσ k' => ?_, h.cap_le, h.base_le⟩
  · rw [replay_concat, put_apply]
    split
    · rename_i hk
      obtain rfl : k' = k := hk
      rcases hlast with hlast | hlast
      · rcases h.shown k' with hs | hs
        · exact .inl (by rw [hs, hlast])
        · rcases hkeep hs with hs | ⟨-, hv⟩
          · exact .inr hs
          · exact .inl (by rw [hv, upd_of_le (hv ▸ h.rank_le k')])
      · exact .inr (hbut hlast)
    · rename_i hk
      rcases h.shown k' with hs | hs
      · exact .inl hs
      · exact .inr ((hkeep hs).resolve_right fun hkv => hk hkv.1)
  · rw [replay_concat, put_apply]
    split
    · rename_i hk
      obtain rfl : k' = k := hk
      rw [rank_upd rank]; exact max_le (h.rank_le k') (h.pend_le i k' v hi)
    · exact h.rank_le k'
  · intro j k' v' hj
    by_cases hji : j = i
    · subst hji; simp [hdone] at hj
    · exact h.pend_le j k' v' (by rwa [hsame j hji] at hj)
  · rcases h.cap_shown j σ hσ k' with hs | hs
    · exact .inl hs
    · rcases hkeep hs with hs | ⟨rfl, hv⟩
      · exact .inr hs
      · rcases hcov hv.symm j σ hσ with hc | hc
        · exact .inl (hc.trans hv.symm)
        · exact .inr (hbut hc)

theorem capture (hi : cap' i = some mem) (hsame : ∀ j, j ≠ i → cap' j = cap j) : Inv rank mem base log pend cap' := by
  have hcases : ∀ j σ, cap' j = some σ → σ = mem ∨ cap j = some σ := by
    intro j σ hσ
    by_cases hji : j = i
    · subst hji; exact .inl (Option.some.inj (hσ.symm.trans hi))
    · exact .inr (by rwa [hsame j hji] at hσ)
  refine ⟨h.shown, h.rank_le, h.pend_le, fun j σ hσ k => ?_, fun j σ hσ k => ?_, fun j σ hσ k => ?_⟩
  · rcases hcases j σ hσ with rfl | hσ
    · exact .inl rfl
    · exact h.cap_shown j σ hσ k
  · rcases hcases j σ hσ with rfl | hσ
    · exact le_rfl
    · exact h.cap_le j σ hσ k
  · rcases hcases j σ hσ with rfl | hσ
    · exact (rank_le_replay base log k).trans (h.rank_le k)
    · exact h.base_le j σ hσ k

theorem install {σ : κ → ν} (hi : cap i = some σ) (honly : ∀ j, j ≠ i → cap j = none) : Inv rank mem σ log pend cap := by
  have hor := fun k => replay_eq_or base σ log k (h.base_le i σ hi k)
  refine ⟨fun k => ?_, fun k => ?_, h.pend_le, h.cap_shown, h.cap_le, fun j τ hτ k => ?_⟩
  · rcases hor k with hk | hk <;> rw [hk]
    · exact h.cap_shown i σ hi k
    · exact h.shown k
  · rcases hor k with hk | hk <;> rw [hk]
    · exact h.cap_le i σ hi k
    · exact h.rank_le k
  · by_cases hji : j = i
    · subst hji
      obtain rfl : τ = σ := Option.some.inj (hτ.symm.trans hi)
      exact le_rfl
    · rw [honly j hji] at hτ; cases hτ

omit h in
theorem drop {σ : κ → ν} (h : Inv rank mem σ log pend cap) (hi : cap i = some σ) : Inv rank mem σ [] pend cap :=
  ⟨h.cap_shown i σ hi, h.cap_le i σ hi, h.pend_le, h.cap_shown, h.cap_le, h.base_le⟩

theorem release (hcap : ∀ j σ, cap' j = some σ → cap j = some σ) : Inv rank mem base log pend cap' :=
  ⟨h.shown, h.rank_le, h.pend_le, fun j σ hσ => h.cap_shown j σ (hcap j σ hσ),
    fun j σ hσ => h.cap_le j σ (hcap j σ hσ), fun j σ hσ => h.base_le j σ (hcap j σ hσ)⟩

theorem recovered (hp : ∀ i, pend i = none) : replay rank base log = mem := by
  funext k
  refine (h.shown k).resolve_right ?_
  rintro ⟨i, hi⟩
  simp [hp] at hi

end

end Inv

end Kookr.Lib.RegisterLog
