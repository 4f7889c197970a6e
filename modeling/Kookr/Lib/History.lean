import Mathlib.Data.List.Induction

/-! Histories: properties of every element of a log after the elements before it, the last
element that satisfies a condition, and what has come since. -/

namespace Kookr.Lib

open List

variable {α β : Type*}

/-- Every element of the log stands in the relation to what came before it. -/
def Along (ok : List α → α → Prop) (log : List α) : Prop :=
  ∀ before x after, log = before ++ x :: after → ok before x

variable {ok : List α → α → Prop} {log : List α} {x : α}

theorem along_nil : Along ok [] := by
  intro before x after heq
  cases before <;> cases heq

theorem Along.concat (h : Along ok log) (hx : ok log x) : Along ok (log ++ [x]) := by
  intro before y after heq
  rcases eq_nil_or_concat after with rfl | ⟨after, z, rfl⟩
  · obtain ⟨rfl, hy⟩ := append_inj' heq rfl
    obtain rfl := singleton_inj.1 hy
    exact hx
  · rw [concat_eq_append, ← cons_append, ← append_assoc] at heq
    exact h before y after (append_inj' heq rfl).1

theorem Along.append {news : List α} (h : Along ok log) (hnews : ∀ before x after, news = before ++ x :: after → ok (log ++ before) x) :
    Along ok (log ++ news) := by
  induction news using reverseRecOn with
  | nil => rwa [append_nil]
  | append_singleton news x ih =>
    rw [← append_assoc]
    refine (ih fun before y after heq => hnews before y (after ++ [x]) (by rw [heq]; simp)).concat ?_
    exact hnews news x [] rfl

theorem Along.before {more : List α} (h : Along ok (log ++ more)) : Along ok log :=
  fun before x after heq => h before x (after ++ more) (by rw [heq, append_assoc, cons_append])

theorem Along.last (h : Along ok (log ++ [x])) : ok log x := h log x [] rfl

/-- The value of the last element that has one. -/
def lastOf (f : α → Option β) (log : List α) : Option β :=
  log.foldl (fun last x => (f x).or last) none

variable (f : α → Option β)

theorem lastOf_concat (log : List α) (x : α) : lastOf f (log ++ [x]) = (f x).or (lastOf f log) := by
  unfold lastOf
  rw [foldl_append]
  rfl

theorem lastOf_append (log more : List α) : lastOf f (log ++ more) = (lastOf f more).or (lastOf f log) := by
  induction more using reverseRecOn with
  | nil => simp [lastOf]
  | append_singleton more x ih => rw [← append_assoc, lastOf_concat, lastOf_concat, ih, Option.or_assoc]

theorem lastOf_map {γ : Type*} (g : γ → α) (log : List γ) : lastOf f (log.map g) = lastOf (fun x => f (g x)) log := by
  unfold lastOf
  rw [foldl_map]

theorem lastOf_eq_none {f : α → Option β} {log : List α} (h : ∀ x ∈ log, f x = none) : lastOf f log = none := by
  induction log using reverseRecOn with
  | nil => rfl
  | append_singleton log x ih =>
    rw [lastOf_concat, h x (by simp)]
    exact ih fun y hy => h y (mem_append_left _ hy)

/-- Where every entry has a key: what is appended under one key is news of that key alone. -/
theorem lastOf_append_key {κ : Type*} [DecidableEq κ] (log : List (κ × α)) (more : List α) (k k' : κ) :
    lastOf (fun entry : κ × α => if entry.1 = k' then f entry.2 else none) (log ++ more.map fun x => (k, x)) =
      if k = k' then (lastOf f more).or (lastOf (fun entry : κ × α => if entry.1 = k' then f entry.2 else none) log)
      else lastOf (fun entry : κ × α => if entry.1 = k' then f entry.2 else none) log := by
  rw [lastOf_append, lastOf_map]
  by_cases hk : k = k'
  · simp only [hk, if_true]
  · simp only [hk, if_false]
    rw [lastOf_eq_none fun _ _ => rfl, Option.none_or]

/-- What has come since the last element that satisfies the condition. -/
def sinceLast (p : α → Bool) (log : List α) : List α :=
  log.foldl (fun since x => if p x then [] else since ++ [x]) []

theorem sinceLast_concat (p : α → Bool) (log : List α) (x : α) :
    sinceLast p (log ++ [x]) = if p x then [] else sinceLast p log ++ [x] := by
  unfold sinceLast
  rw [foldl_append]
  rfl

section Cut

variable {σ ε : Type*} {P : σ → Prop} {apply : σ → ε → σ} {s : σ}

/-- The property holds wherever the steps are cut off. -/
def HoldsAlong (P : σ → Prop) (apply : σ → ε → σ) : σ → List ε → Prop
  | s, [] => P s
  | s, x :: xs => P s ∧ HoldsAlong P apply (apply s x) xs

theorem HoldsAlong.take {xs : List ε} (h : HoldsAlong P apply s xs) (n : ℕ) : P ((xs.take n).foldl apply s) := by
  induction xs generalizing s n with
  | nil => rwa [take_nil]
  | cons x xs ih =>
    cases n with
    | zero => exact h.1
    | succ n => exact ih h.2 n

theorem HoldsAlong.all {xs : List ε} (h : HoldsAlong P apply s xs) : P (xs.foldl apply s) := by
  have hall := h.take xs.length
  rwa [take_length] at hall

theorem HoldsAlong.append {xs ys : List ε} (hxs : HoldsAlong P apply s xs) (hys : HoldsAlong P apply (xs.foldl apply s) ys) :
    HoldsAlong P apply s (xs ++ ys) := by
  induction xs generalizing s with
  | nil => exact hys
  | cons x xs ih => exact ⟨hxs.1, ih hxs.2 hys⟩

end Cut

end Kookr.Lib
