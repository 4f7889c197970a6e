import Kookr.Lib.ListAt
import Kookr.Sanity.Core.LedgerEntries
import Kookr.Spec.Launch.IdempotentLaunch

/-! For every key at most one launch is in flight, and while the ledger keeps its task and the task
can be given back, no other is started and every call is given that task. A launch in flight owns
the pending entry of its key, and nothing but the launch itself takes that away. -/

namespace Kookr.Launch.Idempotent.State

open Kookr.Lib Kookr.Core IdempotencyLedger List OrderedMap

variable {runtime : LedgerRuntime} {s s' : State} {p q r : ℕ} {key taskId : String} {duplicate : Bool} {e : Event} {t : Timestamp}

/-- A `launchTaskCore` for the key is in flight. -/
def InFlight (s : State) (p : ℕ) (key : String) : Prop := ∃ r t, s.calls[p]? = some ⟨key, .launching r t⟩

/-- The ledger keeps the task for the key, and the task is in the store and can be given back. -/
def Kept (key taskId : String) (duplicate : Bool) (s : State) : Prop :=
  ∃ entry, s.ledger.state.get key = some (.finalized entry) ∧ entry.taskId = taskId ∧ entry.duplicate = duplicate ∧
    isExpired s.ledger.ttlMs s.now entry = false ∧ s.replayable taskId = true

instance Kept.decidable : Decidable (Kept key taskId duplicate s) :=
  match hget : s.ledger.state.get key with
  | some (.finalized entry) =>
    decidable_of_iff (entry.taskId = taskId ∧ entry.duplicate = duplicate ∧
        isExpired s.ledger.ttlMs s.now entry = false ∧ s.replayable taskId = true)
      ⟨fun h => ⟨entry, hget, h⟩, fun ⟨_, hget', h⟩ => by cases hget.symm.trans hget'; exact h⟩
  | some (.pending ..) => isFalse fun ⟨_, hget', _⟩ => by cases hget.symm.trans hget'
  | none => isFalse fun ⟨_, hget', _⟩ => by cases hget.symm.trans hget'

/-- Neither launches nor waits nor has an answer. -/
def plain : Stage → Bool
  | .launching .. | .waiting _ | .replayed .. => false
  | _ => true

/-- Where the task of a new answer comes from: the entry of the ledger, or the promise. -/
def Answered (s : State) (q : ℕ) (key taskId : String) (duplicate : Bool) : Prop :=
  s.replayable taskId = true ∧
    ((∃ t, s.ledger.state.get key = some (.finalized ⟨t, taskId, duplicate⟩)) ∨
      ∃ r, s.calls[q]? = some ⟨key, .waiting r⟩ ∧ s.promises[r]? = some (some (.ok taskId duplicate)))

/-- What one event can do to the reservations. -/
inductive Change (s : State) : State → Prop
  /-- No call begins to launch or to wait. -/
  | quiet {s' : State} (hledger : Shrinks s.ledger s'.ledger) (hpromises : s'.promises = s.promises)
      (hcalls : ∀ (q : ℕ) key stage, s'.calls[q]? = some ⟨key, stage⟩ → plain stage = true ∨
        s.calls[q]? = some ⟨key, stage⟩ ∨
        ∃ taskId duplicate, stage = .replayed taskId duplicate ∧ Answered s q key taskId duplicate) : Change s s'
  | waits {s' : State} {p r : ℕ} {key : String} {t : Timestamp} (hledger : Shrinks s.ledger s'.ledger)
      (hpromises : s'.promises = s.promises) (hpending : s.ledger.state.get key = some (.pending t r))
      (hcalls : s'.calls = s.calls.set p ⟨key, .waiting r⟩) : Change s s'
  | owns {s' : State} {p : ℕ} {key : String}
      (hfree : (s.ledger.compactExpired s.now).2.state.get key = none)
      (hstate : s'.ledger.state = (s.ledger.compactExpired s.now).2.state.set key (.pending s.now s.promises.length))
      (hpromises : s'.promises = s.promises ++ [none])
      (hcalls : s'.calls = s.calls.set p ⟨key, .launching s.promises.length s.now⟩) : Change s s'
  | releases {s' : State} {p r : ℕ} {key : String} {t : Timestamp} (hcall : s.calls[p]? = some ⟨key, .launching r t⟩)
      (hstate : s'.ledger.state = s.ledger.state.delete key)
      (hpromises : s'.promises = s.promises.set r (some .released))
      (hcalls : s'.calls = s.calls.set p ⟨key, .settling none⟩) : Change s s'
  | finalizes {s' : State} {p r : ℕ} {key : String} {t : Timestamp} {entry : FinalizedState} {task : Option String}
      {ledger : IdempotencyLedger} (hcall : s.calls[p]? = some ⟨key, .launching r t⟩)
      (hgoneOn : ∀ call ∈ s.calls, s.isWoken key call = false)
      (hstate : ledger.state = s.ledger.state.set key (.finalized entry)) (hledger : Shrinks ledger s'.ledger)
      (hpromises : s'.promises = s.promises.set r (some (.ok entry.taskId entry.duplicate)))
      (hcalls : s'.calls = s.calls.set p ⟨key, .settling task⟩) : Change s s'

/-- A call whose stage is not the new one was there before. -/
theorem getElem?_of_set {stage stage' : Stage} {key' : String} (hcalls : s'.calls = s.calls.set p ⟨key, stage⟩)
    (hget : s'.calls[q]? = some ⟨key', stage'⟩) (hne : stage ≠ stage') : s.calls[q]? = some ⟨key', stage'⟩ := by
  rw [hcalls] at hget
  rcases getElem?_set_cases hget with ⟨-, heq⟩ | ⟨-, hold⟩
  · cases heq
    exact absurd rfl hne
  · exact hold

theorem Change.goto {stage : Stage} (hledger : Shrinks s.ledger s'.ledger) (hpromises : s'.promises = s.promises)
    (hcalls : s'.calls = s.calls.set p ⟨key, stage⟩) (hstage : plain stage = true ∨
      ∃ taskId duplicate, stage = .replayed taskId duplicate ∧ Answered s p key taskId duplicate) : Change s s' := by
  refine .quiet hledger hpromises fun q key' stage' hget => ?_
  rw [hcalls] at hget
  rcases getElem?_set_cases hget with ⟨rfl, heq⟩ | ⟨-, hold⟩
  · cases heq
    exact hstage.imp_right .inr
  · exact .inr (.inl hold)

theorem Change.others (hledger : Shrinks s.ledger s'.ledger) (hpromises : s'.promises = s.promises)
    (hcalls : s'.calls = s.calls) : Change s s' :=
  .quiet hledger hpromises fun _ _ _ hget => .inr (.inl (hcalls ▸ hget))

theorem change_reserve (s : State) (p : ℕ) (key : String) : Change s (s.reserve p key) := by
  have hshrinks : Shrinks s.ledger (s.ledger.compactExpired s.now).2 := shrinks_compactExpired
  unfold reserve reserveOrWait
  dsimp only
  cases hget : (s.ledger.compactExpired s.now).2.state.get key with
  | none => exact .owns hget rfl rfl rfl
  | some state =>
    cases state with
    | pending t r => exact .waits hshrinks rfl (hshrinks.pending.1 hget) rfl
    | finalized existing =>
      dsimp only
      split
      · rename_i hreplayable
        refine Change.goto hshrinks rfl rfl (.inr ⟨_, _, rfl, hreplayable, .inl ⟨existing.createdAtMs, ?_⟩⟩)
        exact hshrinks.finalized hget
      · exact Change.goto (hshrinks.trans (shrinks_delete hget)) rfl rfl (.inl rfl)

theorem change_woken {outcome : IdempotencyWaitOutcome} (hcall : s.calls[p]? = some ⟨key, .waiting r⟩)
    (hresolved : s.promises[r]? = some (some outcome)) : Change s (s.woken p key outcome) := by
  cases outcome with
  | released => exact Change.goto (.refl _) rfl rfl (.inl rfl)
  | ok taskId duplicate =>
    unfold woken
    dsimp only
    split
    · rename_i hreplayable
      exact Change.goto (.refl _) rfl rfl (.inr ⟨_, _, rfl, hreplayable, .inr ⟨r, hcall, hresolved⟩⟩)
    · exact Change.goto (.refl _) rfl rfl (.inl rfl)

theorem change_settled {outcome : LaunchOutcome} (hcall : s.calls[p]? = some ⟨key, .launching r t⟩)
    (h : s.settled runtime p key r t outcome = some s') : Change s s' := by
  unfold settled at h
  split at h
  · cases h
    exact .releases hcall rfl rfl rfl
  · split at h
    · cases h
    · rename_i hwoken
      cases h
      refine .finalizes hcall (fun call hmem => ?_) rfl shrinks_compactBySize rfl rfl
      cases hcase : s.isWoken key call with
      | false => rfl
      | true => exact absurd (any_eq_true.2 ⟨call, hmem, hcase⟩) hwoken

theorem change_callStep {stage : Stage} (hcall : s.calls[p]? = some ⟨key, stage⟩)
    (h : s.callStep runtime p key stage e = some s') : Change s s' := by
  unfold callStep at h
  split at h
  · cases h
    exact change_reserve s p key
  · cases h
    exact Change.goto (.refl _) rfl rfl (.inl rfl)
  · obtain ⟨outcome, hresolved, rfl⟩ := Option.map_eq_some_iff.1 h
    exact change_woken hcall (Option.join_eq_some_iff.1 hresolved)
  · exact change_settled hcall h
  · cases h
    exact Change.goto (.refl _) rfl rfl (.inl rfl)
  · cases h
    exact Change.goto (.refl _) rfl rfl (.inl rfl)
  · cases h

theorem change_step (h : s.step runtime e = some s') : Change s s' := by
  have hcalls : ∀ p, (s.calls[p]?.bind fun call => s.callStep runtime p call.idempotencyKey call.stage e) = some s' →
      Change s s' := by
    intro p hstep
    obtain ⟨call, hcall, hstep⟩ := Option.bind_eq_some_iff.1 hstep
    exact change_callStep hcall hstep
  cases e with
  | launch idempotencyKey =>
    cases h
    refine .quiet (.refl _) rfl fun q key stage hget => ?_
    rcases getElem?_concat_cases hget with ⟨-, heq⟩ | hold
    · cases heq
      exact .inl rfl
    · exact .inr (.inl hold)
  | configure ttlMs maxEntries => cases h; exact Change.others shrinks_configure rfl rfl
  | putTask id task | deleteTask id | tick now => cases h; exact Change.others (.refl _) rfl rfl
  | reserve p | cleared p | woken p | settled p outcome | recorded p => exact hcalls p h

structure Reserved (s : State) : Prop where
  owner : ∀ (p : ℕ) key r t, s.calls[p]? = some ⟨key, .launching r t⟩ → s.ledger.state.get key = some (.pending t r)
  single : ∀ (p q : ℕ) key key' r t t', s.calls[p]? = some ⟨key, .launching r t⟩ →
    s.calls[q]? = some ⟨key', .launching r t'⟩ → p = q
  unresolved : ∀ key t r, s.ledger.state.get key = some (.pending t r) → s.promises[r]? = some none
  distinct : ∀ key key' t t' r, s.ledger.state.get key = some (.pending t r) →
    s.ledger.state.get key' = some (.pending t' r) → key = key'
  waits : ∀ (p : ℕ) key r, s.calls[p]? = some ⟨key, .waiting r⟩ →
    r < s.promises.length ∧ (s.promises[r]? = some none → ∃ t, s.ledger.state.get key = some (.pending t r))
  woken : ∀ (p : ℕ) key entry r taskId duplicate, s.ledger.state.get key = some (.finalized entry) →
    s.calls[p]? = some ⟨key, .waiting r⟩ → s.promises[r]? = some (some (.ok taskId duplicate)) →
    taskId = entry.taskId ∧ duplicate = entry.duplicate

section

variable (h : Reserved s)
include h

/-- Finalized entries go, and no call begins to launch. A call that begins to wait does so for the
pending entry of its key. -/
theorem Reserved.shrinks (hledger : Shrinks s.ledger s'.ledger) (hpromises : s'.promises = s.promises)
    (hlaunching : ∀ (q : ℕ) key r t, s'.calls[q]? = some ⟨key, .launching r t⟩ → s.calls[q]? = some ⟨key, .launching r t⟩)
    (hwaiting : ∀ (q : ℕ) key r, s'.calls[q]? = some ⟨key, .waiting r⟩ → s.calls[q]? = some ⟨key, .waiting r⟩ ∨
      ∃ t, s.ledger.state.get key = some (.pending t r)) : Reserved s' := by
  refine ⟨?_, ?_, ?_, ?_, ?_, ?_⟩
  · exact fun p key r t hget => hledger.pending.2 (h.owner p key r t (hlaunching p key r t hget))
  · intro p q key key' r t t' hp hq
    exact h.single p q key key' r t t' (hlaunching p key r t hp) (hlaunching q key' r t' hq)
  · intro key t r hget
    rw [hpromises]
    exact h.unresolved key t r (hledger.pending.1 hget)
  · intro key key' t t' r hget hget'
    exact h.distinct key key' t t' r (hledger.pending.1 hget) (hledger.pending.1 hget')
  · intro p key r hget
    rw [hpromises]
    rcases hwaiting p key r hget with hold | ⟨t, hpending⟩
    · obtain ⟨hlt, hunresolved⟩ := h.waits p key r hold
      exact ⟨hlt, fun hnone => (hunresolved hnone).imp fun t => hledger.pending.2⟩
    · exact ⟨(List.getElem?_eq_some_iff.1 (h.unresolved key t r hpending)).1, fun _ => ⟨t, hledger.pending.2 hpending⟩⟩
  · intro p key entry r taskId duplicate hentry hget hresolved
    rw [hpromises] at hresolved
    rcases hwaiting p key r hget with hold | ⟨t, hpending⟩
    · exact h.woken p key entry r taskId duplicate (hledger.finalized hentry) hold hresolved
    · rw [h.unresolved key t r hpending] at hresolved
      cases hresolved

theorem Reserved.owns (hfree : (s.ledger.compactExpired s.now).2.state.get key = none)
    (hstate : s'.ledger.state = (s.ledger.compactExpired s.now).2.state.set key (.pending s.now s.promises.length))
    (hpromises : s'.promises = s.promises ++ [none])
    (hcalls : s'.calls = s.calls.set p ⟨key, .launching s.promises.length s.now⟩) : Reserved s' := by
  have hshrinks : Shrinks s.ledger (s.ledger.compactExpired s.now).2 := shrinks_compactExpired
  -- the entry of a key that was pending is pending still, and under the old promise
  have hkept : ∀ key' t r, s.ledger.state.get key' = some (.pending t r) →
      s'.ledger.state.get key' = some (.pending t r) := by
    intro key' t r hget
    have hold := hshrinks.pending.2 hget
    rw [hstate, get_set_of_ne _ _ ?_]
    · exact hold
    · rintro rfl
      rw [hfree] at hold
      cases hold
  have hpending : ∀ key' t r, s'.ledger.state.get key' = some (.pending t r) →
      key' = key ∧ r = s.promises.length ∨ s.ledger.state.get key' = some (.pending t r) := by
    intro key' t r hget
    rw [hstate, get_set] at hget
    split at hget
    · rename_i hkey
      cases hget
      exact .inl ⟨hkey.symm, rfl⟩
    · exact .inr (hshrinks.pending.1 hget)
  have hold : ∀ key' t r, s.ledger.state.get key' = some (.pending t r) → r < s.promises.length := fun key' t r hget =>
    (List.getElem?_eq_some_iff.1 (h.unresolved key' t r hget)).1
  have hlaunching : ∀ (q : ℕ) key' r t, s'.calls[q]? = some ⟨key', .launching r t⟩ →
      q = p ∧ key' = key ∧ r = s.promises.length ∧ t = s.now ∨ s.calls[q]? = some ⟨key', .launching r t⟩ := by
    intro q key' r t hget
    rw [hcalls] at hget
    rcases getElem?_set_cases hget with ⟨rfl, heq⟩ | ⟨-, hold⟩
    · cases heq
      exact .inl ⟨rfl, rfl, rfl, rfl⟩
    · exact .inr hold
  have hwaiting : ∀ (q : ℕ) key' r, s'.calls[q]? = some ⟨key', .waiting r⟩ → s.calls[q]? = some ⟨key', .waiting r⟩ := by
    exact fun q key' r hget => getElem?_of_set hcalls hget (by simp)
  refine ⟨?_, ?_, ?_, ?_, ?_, ?_⟩
  · intro q key' r t hget
    rcases hlaunching q key' r t hget with ⟨-, rfl, rfl, rfl⟩ | hcall
    · rw [hstate, get_set_self]
    · exact hkept key' t r (h.owner q key' r t hcall)
  · intro q q' key' key'' r t t' hq hq'
    rcases hlaunching q key' r t hq with ⟨rfl, -, rfl, -⟩ | hcall
    · rcases hlaunching q' key'' _ t' hq' with ⟨rfl, -⟩ | hcall'
      · rfl
      · exact absurd (hold _ _ _ (h.owner _ _ _ _ hcall')) (Nat.lt_irrefl _)
    · rcases hlaunching q' key'' r t' hq' with ⟨-, -, rfl, -⟩ | hcall'
      · exact absurd (hold _ _ _ (h.owner _ _ _ _ hcall)) (Nat.lt_irrefl _)
      · exact h.single q q' key' key'' r t t' hcall hcall'
  · intro key' t r hget
    rw [hpromises]
    rcases hpending key' t r hget with ⟨-, rfl⟩ | hget
    · exact getElem?_concat_length
    · exact getElem?_concat_of_some (h.unresolved key' t r hget)
  · intro key' key'' t t' r hget hget'
    rcases hpending key' t r hget with ⟨rfl, rfl⟩ | hget
    · rcases hpending key'' t' _ hget' with ⟨rfl, -⟩ | hget'
      · rfl
      · exact absurd (hold _ _ _ hget') (Nat.lt_irrefl _)
    · rcases hpending key'' t' r hget' with ⟨rfl, rfl⟩ | hget'
      · exact absurd (hold _ _ _ hget) (Nat.lt_irrefl _)
      · exact h.distinct key' key'' t t' r hget hget'
  · intro q key' r hget
    obtain ⟨hlt, hunresolved⟩ := h.waits q key' r (hwaiting q key' r hget)
    rw [hpromises, length_append, getElem?_append_left hlt]
    exact ⟨Nat.lt_add_right _ hlt, fun hnone => (hunresolved hnone).imp fun t => hkept key' t r⟩
  · intro q key' entry r taskId duplicate hentry hget hresolved
    have hcall := hwaiting q key' r hget
    rw [hpromises, getElem?_append_left (h.waits q key' r hcall).1] at hresolved
    refine h.woken q key' entry r taskId duplicate ?_ hcall hresolved
    rw [hstate, get_set] at hentry
    split at hentry
    · cases hentry
    · exact hshrinks.finalized hentry

/-- The owner settles: the entry is no longer pending, and its promise is resolved. -/
theorem Reserved.settles {stage : Stage} {outcome : IdempotencyWaitOutcome}
    (hcall : s.calls[p]? = some ⟨key, .launching r t⟩) (hplain : plain stage = true)
    (hpromises : s'.promises = s.promises.set r (some outcome)) (hcalls : s'.calls = s.calls.set p ⟨key, stage⟩)
    (hself : ∀ t r, s'.ledger.state.get key ≠ some (.pending t r))
    (hothers : ∀ key', key' ≠ key → s'.ledger.state.get key' = s.ledger.state.get key' ∨
      s'.ledger.state.get key' = none ∧ ∃ entry, s.ledger.state.get key' = some (.finalized entry))
    (hwoken : ∀ entry, s'.ledger.state.get key = some (.finalized entry) →
      outcome = .ok entry.taskId entry.duplicate ∧ ∀ call ∈ s.calls, s.isWoken key call = false) : Reserved s' := by
  have howner := h.owner p key r t hcall
  have hheld : ∀ (q : ℕ) key' stage', s'.calls[q]? = some ⟨key', stage'⟩ → plain stage' = false →
      q ≠ p ∧ s.calls[q]? = some ⟨key', stage'⟩ := by
    intro q key' stage' hget hheld
    rw [hcalls] at hget
    rcases getElem?_set_cases hget with ⟨-, heq⟩ | hold
    · cases heq
      rw [hplain] at hheld
      cases hheld
    · exact hold
  have hpending : ∀ key' t' r', s'.ledger.state.get key' = some (.pending t' r') →
      key' ≠ key ∧ s.ledger.state.get key' = some (.pending t' r') := by
    intro key' t' r' hget
    have hne : key' ≠ key := fun heq => hself t' r' (heq ▸ hget)
    rcases hothers key' hne with heq | ⟨hnone, -⟩
    · exact ⟨hne, heq ▸ hget⟩
    · rw [hnone] at hget
      cases hget
  have hkept : ∀ key' t' r', key' ≠ key → s.ledger.state.get key' = some (.pending t' r') →
      s'.ledger.state.get key' = some (.pending t' r') := by
    intro key' t' r' hne hget
    rcases hothers key' hne with heq | ⟨-, entry, hentry⟩
    · rw [heq, hget]
    · rw [hget] at hentry
      cases hentry
  refine ⟨?_, ?_, ?_, ?_, ?_, ?_⟩
  · intro q key' r' t' hget
    obtain ⟨hne, hq⟩ := hheld q key' _ hget rfl
    have hq' := h.owner q key' r' t' hq
    refine hkept key' t' r' ?_ hq'
    rintro rfl
    rw [howner] at hq'
    cases hq'
    exact hne (h.single q p _ _ _ _ _ hq hcall)
  · intro q q' key' key'' r' t' t'' hq hq'
    exact h.single q q' key' key'' r' t' t'' (hheld q key' _ hq rfl).2 (hheld q' key'' _ hq' rfl).2
  · intro key' t' r' hget
    obtain ⟨hne, hold⟩ := hpending key' t' r' hget
    rw [hpromises, getElem?_set_ne, h.unresolved key' t' r' hold]
    rintro rfl
    exact hne (h.distinct key' key t' t _ hold howner)
  · intro key' key'' t' t'' r' hget hget'
    exact h.distinct key' key'' t' t'' r' (hpending key' t' r' hget).2 (hpending key'' t'' r' hget').2
  · intro q key' r' hget
    obtain ⟨hlt, hunresolved⟩ := h.waits q key' r' (hheld q key' _ hget rfl).2
    rw [hpromises, length_set]
    refine ⟨hlt, fun hnone => ?_⟩
    rw [getElem?_set] at hnone
    split at hnone
    · split at hnone <;> cases hnone
    · rename_i hr
      obtain ⟨t', hold⟩ := hunresolved hnone
      refine ⟨t', hkept key' t' r' ?_ hold⟩
      rintro rfl
      rw [howner] at hold
      cases hold
      exact hr rfl
  · intro q key' entry r' taskId duplicate hentry hget hresolved
    have hq := (hheld q key' _ hget rfl).2
    rw [hpromises, getElem?_set] at hresolved
    by_cases hkey : key' = key
    · subst hkey
      obtain ⟨rfl, hgoneOn⟩ := hwoken entry hentry
      split at hresolved
      · split at hresolved
        · cases hresolved
          exact ⟨rfl, rfl⟩
        · cases hresolved
      · have hfalse := hgoneOn _ (mem_of_getElem? hq)
        simp [isWoken, hresolved] at hfalse
    · have hold : s.ledger.state.get key' = some (.finalized entry) := by
        rcases hothers key' hkey with heq | ⟨hnone, -⟩
        · rw [← heq, hentry]
        · rw [hnone] at hentry
          cases hentry
      split at hresolved
      · rename_i hr
        obtain ⟨t', hpending'⟩ := (h.waits q key' r' hq).2 (hr ▸ h.unresolved key t r howner)
        rw [hold] at hpending'
        cases hpending'
      · exact h.woken q key' entry r' taskId duplicate hold hq hresolved

theorem Reserved.change (hchange : Change s s') : Reserved s' := by
  cases hchange with
  | quiet hledger hpromises hcalls =>
    refine h.shrinks hledger hpromises (fun q key r t hget => ?_) fun q key r hget => ?_
    · rcases hcalls q key _ hget with hplain | hold | ⟨_, _, heq, -⟩
      · cases hplain
      · exact hold
      · cases heq
    · rcases hcalls q key _ hget with hplain | hold | ⟨_, _, heq, -⟩
      · cases hplain
      · exact .inl hold
      · cases heq
  | waits hledger hpromises hpending hcalls =>
    refine h.shrinks hledger hpromises (fun q key r t hget => ?_) fun q key r hget => ?_
    · exact getElem?_of_set hcalls hget (by simp)
    · rw [hcalls] at hget
      rcases getElem?_set_cases hget with ⟨-, heq⟩ | ⟨-, hold⟩
      · cases heq
        exact .inr ⟨_, hpending⟩
      · exact .inl hold
  | owns hfree hstate hpromises hcalls => exact h.owns hfree hstate hpromises hcalls
  | @releases p r key t hcall hstate hpromises hcalls =>
    have hself : s'.ledger.state.get key = none := by rw [hstate, get_delete, if_pos rfl]
    refine h.settles hcall rfl hpromises hcalls (fun t r hget => ?_) (fun key' hne => .inl ?_) fun entry hget => ?_
    · rw [hself] at hget
      cases hget
    · rw [hstate, get_delete, if_neg (Ne.symm hne)]
    · rw [hself] at hget
      cases hget
  | finalizes hcall hgoneOn hstate hledger hpromises hcalls =>
    have hset := fun key' => congrArg (OrderedMap.get · key') hstate
    simp only [get_set] at hset
    refine h.settles hcall rfl hpromises hcalls (fun t r hget => ?_) (fun key' hne => ?_) fun entry hget => ?_
    · have hold := hledger.pending.1 hget
      rw [hset, if_pos rfl] at hold
      cases hold
    · rcases hledger key' with heq | ⟨entry, hget, hnone⟩
      · rw [hset, if_neg (Ne.symm hne)] at heq
        exact .inl heq
      · rw [hset, if_neg (Ne.symm hne)] at hget
        exact .inr ⟨hnone, entry, hget⟩
    · have hold := hledger.finalized hget
      rw [hset, if_pos rfl] at hold
      cases hold
      exact ⟨rfl, hgoneOn⟩

omit h in
theorem Reserved.initial {ledger : IdempotencyLedger} {tasks : OrderedMap String Task} {now : Timestamp}
    (hpending : ∀ key t r, ledger.state.get key ≠ some (.pending t r)) : Reserved (.initial ledger tasks now) where
  owner p key r t hget := by cases hget
  single p q key key' r t t' hget := by cases hget
  unresolved key t r hget := absurd hget (hpending key t r)
  distinct key key' t t' r hget := absurd hget (hpending key t r)
  waits p key r hget := by cases hget
  woken p key entry r taskId duplicate _ hget := by cases hget

theorem Reserved.inFlight_unique (hp : InFlight s p key) (hq : InFlight s q key) : p = q := by
  obtain ⟨r, t, hp⟩ := hp
  obtain ⟨r', t', hq⟩ := hq
  have heq := (h.owner p key r t hp).symm.trans (h.owner q key r' t' hq)
  cases heq
  exact h.single p q key key r t t hp hq

theorem Reserved.not_inFlight (hkept : Kept key taskId duplicate s) : ¬ InFlight s p key := by
  rintro ⟨r, t, hp⟩
  obtain ⟨entry, hget, -⟩ := hkept
  rw [h.owner p key r t hp] at hget
  cases hget

omit h in
theorem Kept.get_compactExpired (hkept : Kept key taskId duplicate s) :
    ∃ t, (s.ledger.compactExpired s.now).2.state.get key = some (.finalized ⟨t, taskId, duplicate⟩) := by
  obtain ⟨⟨t, taskId', duplicate'⟩, hget, rfl, rfl, hfresh, -⟩ := hkept
  refine ⟨t, ?_⟩
  rw [get_compactExpired_finalized hget, hfresh]
  rfl

omit h in
theorem Change.launching (hchange : Change s s') (hp : s'.calls[p]? = some ⟨key, .launching r t⟩) :
    s.calls[p]? = some ⟨key, .launching r t⟩ ∨ (s.ledger.compactExpired s.now).2.state.get key = none := by
  cases hchange with
  | quiet hledger hpromises hcalls =>
    rcases hcalls p key _ hp with hplain | hold | ⟨_, _, heq, -⟩
    · cases hplain
    · exact .inl hold
    · cases heq
  | waits hledger hpromises hpending hcalls => exact .inl (getElem?_of_set hcalls hp (by simp))
  | owns hfree hstate hpromises hcalls =>
    rw [hcalls] at hp
    rcases getElem?_set_cases hp with ⟨-, heq⟩ | ⟨-, hold⟩
    · cases heq
      exact .inr hfree
    · exact .inl hold
  | releases hcall hstate hpromises hcalls | finalizes hcall hgoneOn hstate hledger hpromises hcalls =>
    exact .inl (getElem?_of_set hcalls hp (by simp))

theorem Reserved.not_started (hkept : Kept key taskId duplicate s) (hchange : Change s s') : ¬ InFlight s' p key := by
  rintro ⟨r, t, hp⟩
  rcases hchange.launching hp with hold | hfree
  · exact h.not_inFlight hkept ⟨r, t, hold⟩
  · obtain ⟨_, hget⟩ := hkept.get_compactExpired
    rw [hfree] at hget
    cases hget

omit h in
theorem Change.replayed (hchange : Change s s') (hp : s'.calls[p]? = some ⟨key, .replayed taskId duplicate⟩) :
    s.calls[p]? = some ⟨key, .replayed taskId duplicate⟩ ∨ Answered s p key taskId duplicate := by
  cases hchange with
  | quiet hledger hpromises hcalls =>
    rcases hcalls p key _ hp with hplain | hold | ⟨_, _, heq, hanswered⟩
    · cases hplain
    · exact .inl hold
    · cases heq
      exact .inr hanswered
  | waits hledger hpromises hpending hcalls | owns hfree hstate hpromises hcalls | releases hcall hstate hpromises hcalls
  | finalizes hcall hgoneOn hstate hledger hpromises hcalls => exact .inl (getElem?_of_set hcalls hp (by simp))

theorem Reserved.answered {taskId' : String} {duplicate' : Bool} (hkept : Kept key taskId duplicate s)
    (hanswered : Answered s p key taskId' duplicate') : taskId' = taskId ∧ duplicate' = duplicate := by
  obtain ⟨entry, hget, rfl, rfl, -⟩ := hkept
  obtain ⟨-, ⟨t, hentry⟩ | ⟨r, hcall, hresolved⟩⟩ := hanswered
  · rw [hget] at hentry
    cases hentry
    exact ⟨rfl, rfl⟩
  · exact h.woken p key entry r taskId' duplicate' hget hcall hresolved

omit h in
theorem Kept.reserve (hkept : Kept key taskId duplicate s) (hp : s.calls[p]? = some ⟨key, .looping⟩) :
    ∃ s', s.step runtime (.reserve p) = some s' ∧ s'.calls[p]? = some ⟨key, .replayed taskId duplicate⟩ := by
  refine ⟨s.reserve p key, by simp [step, hp, callStep], ?_⟩
  obtain ⟨t, hget⟩ := hkept.get_compactExpired
  obtain ⟨-, -, -, -, -, hreplayable⟩ := hkept
  have hlt := (List.getElem?_eq_some_iff.1 hp).1
  simp [State.reserve, reserveOrWait, hget, hreplayable, goto, hlt]

/-- While the task is kept, a call that waits has been woken: it is given the task, or it goes to
the head of its loop. -/
theorem Reserved.wake (hkept : Kept key taskId duplicate s) (hp : s.calls[p]? = some ⟨key, .waiting r⟩) :
    ∃ s', s.step runtime (.woken p) = some s' ∧
      (s'.calls[p]? = some ⟨key, .replayed taskId duplicate⟩ ∨ s'.calls[p]? = some ⟨key, .looping⟩) := by
  obtain ⟨entry, hget, rfl, rfl, -, hreplayable⟩ := hkept
  obtain ⟨hlt, hunresolved⟩ := h.waits p key r hp
  have hcalls := (List.getElem?_eq_some_iff.1 hp).1
  cases hpromise : s.promises[r]? with
  | none => exact absurd hlt (Nat.not_lt.2 (List.getElem?_eq_none_iff.1 hpromise))
  | some promise =>
    cases promise with
    | none =>
      obtain ⟨t, hpending⟩ := hunresolved hpromise
      rw [hget] at hpending
      cases hpending
    | some outcome =>
      refine ⟨s.woken p key outcome, by simp [step, hp, callStep, hpromise], ?_⟩
      cases outcome with
      | released => exact .inr (by simp [State.woken, goto, hcalls])
      | ok taskId' duplicate' =>
        obtain ⟨rfl, rfl⟩ := h.woken p key entry r taskId' duplicate' hget hp hpromise
        exact .inl (by simp [State.woken, hreplayable, goto, hcalls])

end

/-- What a launch has recorded stands in the ledger, unless it was evicted at once. -/
theorem recorded_or_evicted {outcome : LaunchOutcome} (hp : s.calls[p]? = some ⟨key, .launching r t⟩)
    (hrecords : s.recordsTask outcome = some (taskId, duplicate)) (h : s.step runtime (.settled p outcome) = some s') :
    s'.ledger.state.get key = some (.finalized ⟨t, taskId, duplicate⟩) ∨ s'.ledger.state.get key = none := by
  obtain ⟨call, hcall, hstep⟩ := Option.bind_eq_some_iff.1 h
  rw [hp] at hcall
  cases hcall
  change s.settled runtime p key r t outcome = some s' at hstep
  unfold settled at hstep
  rw [hrecords] at hstep
  dsimp only at hstep
  split at hstep
  · cases hstep
  · cases hstep
    have hshrinks : Shrinks { s.ledger with state := s.ledger.state.set key (.finalized ⟨t, taskId, duplicate⟩) }
        (s.ledger.finalize runtime key ⟨t, taskId, duplicate⟩) := shrinks_compactBySize
    rcases hshrinks key with heq | ⟨_, -, hnone⟩
    · exact .inl (heq.trans (get_set_self _ _ _))
    · exact .inr hnone

/-- The calls since the task is kept. -/
structure Once (key taskId : String) (duplicate : Bool) (s₀ s : State) : Prop where
  reserved : Reserved s
  none : ∀ p, ¬ InFlight s p key
  answers : ∀ (p : ℕ) taskId' duplicate', s.calls[p]? = some ⟨key, .replayed taskId' duplicate'⟩ →
    s₀.calls[p]? = some ⟨key, .replayed taskId' duplicate'⟩ ∨ taskId' = taskId ∧ duplicate' = duplicate

theorem Once.step {s₀ : State} (h : Once key taskId duplicate s₀ s) (hkept : Kept key taskId duplicate s)
    (hstep : s.step runtime e = some s') : Once key taskId duplicate s₀ s' := by
  have hchange := change_step hstep
  refine ⟨h.reserved.change hchange, fun p => h.reserved.not_started hkept hchange, fun p taskId' duplicate' hp => ?_⟩
  rcases hchange.replayed hp with hold | hanswered
  · exact h.answers p taskId' duplicate' hold
  · exact .inr (h.reserved.answered hkept hanswered)

/-- From a ledger without reservations: at most one launch for a key is in flight. What a launch has
recorded is in the ledger, unless it is evicted at once. As long as the ledger keeps the task and the
task can be given back, no launch for the key is started, every answer is that task, and every call
that goes on is given the task, at the latest in its next round. -/
theorem launches_once (runtime : LedgerRuntime) {ledger : IdempotencyLedger} {tasks : OrderedMap String Task}
    {now : Timestamp} (hpending : ∀ key t r, ledger.state.get key ≠ some (.pending t r)) {events : List Event} {s : State}
    (hrun : exec (step runtime) (.initial ledger tasks now) events = some s) (key : String) :
    (∀ p q, InFlight s p key → InFlight s q key → p = q) ∧
    (∀ (p r : ℕ) t outcome taskId duplicate s', s.calls[p]? = some ⟨key, .launching r t⟩ →
      s.recordsTask outcome = some (taskId, duplicate) → s.step runtime (.settled p outcome) = some s' →
      s'.ledger.state.get key = some (.finalized ⟨t, taskId, duplicate⟩) ∨ s'.ledger.state.get key = none) ∧
    ∀ taskId duplicate, Kept key taskId duplicate s → ∀ events' s',
      StepsMeet (step runtime) (fun s _ => Kept key taskId duplicate s) s events' → exec (step runtime) s events' = some s' →
      (∀ p, ¬ InFlight s' p key) ∧ (∀ (p : ℕ) taskId' duplicate', s'.calls[p]? = some ⟨key, .replayed taskId' duplicate'⟩ →
        s.calls[p]? = some ⟨key, .replayed taskId' duplicate'⟩ ∨ taskId' = taskId ∧ duplicate' = duplicate) ∧
      (Kept key taskId duplicate s' →
        (∀ (p : ℕ), s'.calls[p]? = some ⟨key, .looping⟩ → ∃ s'', s'.step runtime (.reserve p) = some s'' ∧
          s''.calls[p]? = some ⟨key, .replayed taskId duplicate⟩) ∧
        ∀ (p r : ℕ), s'.calls[p]? = some ⟨key, .waiting r⟩ → ∃ s'', s'.step runtime (.woken p) = some s'' ∧
          (s''.calls[p]? = some ⟨key, .replayed taskId duplicate⟩ ∨ s''.calls[p]? = some ⟨key, .looping⟩)) := by
  have hreserved : Reserved s :=
    exec_preserves (fun _ _ _ h hstep => h.change (change_step hstep)) (Reserved.initial hpending) hrun
  refine ⟨fun p q => hreserved.inFlight_unique, ?_, fun taskId duplicate hkept events' s' hmeets hrun' => ?_⟩
  · exact fun p r t outcome taskId duplicate s' hp hrecords hstep => recorded_or_evicted hp hrecords hstep
  · have hstart : Once key taskId duplicate s s :=
      ⟨hreserved, fun p => hreserved.not_inFlight hkept, fun _ _ _ hp => .inl hp⟩
    have hend := exec_invariant (fun _ _ _ h hok hstep => Once.step h hok hstep) hstart hmeets hrun'
    refine ⟨hend.none, hend.answers, fun hkept' => ⟨fun p hp => hkept'.reserve hp, fun p r hp => ?_⟩⟩
    exact hend.reserved.wake hkept' hp

/-- A day, and room for ten entries. -/
def emptyLedger : IdempotencyLedger := ⟨86400000, 10, .empty⟩

def epoch : Timestamp := .epoch

/-- The first call launches and its task comes to life; the second waits for it. -/
def launchRun : List Event :=
  [.launch "retry-7", .launch "retry-7", .reserve 0, .reserve 1, .putTask "task-1" ⟨.inProgress, 1, false⟩,
    .settled 0 (.returned "task-1" false)]

/-- The waiter goes on, a third call comes, and the task ends. -/
def replayRun : List Event :=
  [.woken 1, .launch "retry-7", .putTask "task-1" ⟨.completed, 1, false⟩, .recorded 0, .reserve 2]

theorem launches_once_replayRun : ∃ s s', exec (step isoRuntime) (.initial emptyLedger .empty epoch) launchRun = some s ∧
    exec (step isoRuntime) s replayRun = some s' ∧
    (s'.calls.map Call.stage) = [.launched "task-1", .replayed "task-1" false, .replayed "task-1" false] ∧
    ∀ p, ¬ InFlight s' p "retry-7" := by
  have hempty : ∀ key t r, emptyLedger.state.get key ≠ some (.pending t r) := fun _ _ _ hget => by cases hget
  have hrun : exec (step isoRuntime) (.initial emptyLedger .empty epoch) launchRun = some _ := rfl
  have honce := launches_once isoRuntime hempty hrun "retry-7"
  refine ⟨_, _, rfl, rfl, rfl, ?_⟩
  exact (honce.2.2 "task-1" false (by decide +kernel) replayRun _ (by decide +kernel) rfl).1

end Kookr.Launch.Idempotent.State
