import Kookr.Lib.Exec
import Kookr.Sanity.Core.QueueMaps

/-! No finding is lost while nobody resolves it. The snooze of a task has room for one
finding: a finding that is in it is kept as long as only its own session reaches the
snooze. -/

namespace Kookr.Core

open Kookr.Lib OrderedMap Option

variable {opts : QueueOpts} {q q' : AttentionQueue}

theorem Anomaly.SameFinding.trans {x y z : Anomaly} (h : x.SameFinding y) (h' : y.SameFinding z) : x.SameFinding z := by
  unfold SameFinding at h h' ⊢
  rw [← h', ← h]

theorem Anomaly.SameFinding.agentId {x y : Anomaly} (h : x.SameFinding y) : x.agentId = y.agentId := by
  rw [← h]

namespace AttentionQueue

/-- The finding is held as the agent's active entry, or in a snooze and still the agent's. -/
def Holds (q : AttentionQueue) (agentId : String) (x : Anomaly) : Prop :=
  (∃ e ∈ q.entries.get agentId, e.anomaly.SameFinding x) ∨
    ∃ s ∈ q.snoozed.values, ∃ y ∈ s.anomaly, y.agentId = agentId ∧ y.SameFinding x

instance (q : AttentionQueue) (agentId : String) (x : Anomaly) : Decidable (q.Holds agentId x) :=
  inferInstanceAs (Decidable (_ ∨ _))

end AttentionQueue

/-- The finding an agent still has: the last one enqueued for it since anything was resolved. -/
def owedStep (agentId : String) (owed : Option Anomaly) : QueueEvent → Option Anomaly
  | .enqueue a anomaly _ _ => if a = agentId then some anomaly else owed
  | .remove _ | .respondAndAdvance _ _ | .purge _ | .purgeTask _ | .expireDue _ _ | .clear => none
  | _ => owed

def owed (agentId : String) (es : List QueueEvent) : Option Anomaly := es.foldl (owedStep agentId) none

def QueueEvent.isImport : QueueEvent → Bool
  | .importSnoozed _ => true
  | _ => false

/-- A call reaches a snooze that holds a finding only for the session the finding is of: it
enqueues for that session, snoozes it again with the same finding, or restores it to that
session. -/
def TimedQueue.Keeps (opts : QueueOpts) (s : TimedQueue) : QueueEvent → Prop
  | .enqueue a z now now' =>
    z.agentId = a ∧ ∀ hidden ∈ s.queue.snoozed.get (opts.snoozeKey a), ∀ y ∈ hidden.anomaly,
      y.agentId = a ∧ (now < hidden.expiresAt → now' < hidden.expiresAt)
  | .snooze a _ _ fallback _ =>
    (∀ hidden ∈ s.queue.snoozed.get (opts.snoozeKey a), ∀ y ∈ hidden.anomaly,
      a ∉ s.queue.entries.keys ∧ ∃ f ∈ fallback, f.SameFinding y) ∧
    (a ∉ s.queue.entries.keys → ∀ f ∈ fallback, f.agentId = a)
  | .cancelSnooze a restored =>
    ∀ hidden ∈ s.queue.snoozed.get (opts.snoozeKey a), ∀ y ∈ hidden.anomaly, y.agentId = restored
  | _ => True

instance TimedQueue.Keeps.decidable (opts : QueueOpts) (s : TimedQueue) : (e : QueueEvent) → Decidable (s.Keeps opts e)
  | .enqueue .. | .snooze .. => inferInstanceAs (Decidable (_ ∧ _))
  | .cancelSnooze a _ =>
    inferInstanceAs (Decidable (∀ hidden ∈ s.queue.snoozed.get (opts.snoozeKey a), _))
  | .next .. | .skip .. | .remove .. | .purge .. | .purgeTask .. | .importSnoozed .. | .respondAndAdvance ..
  | .getAll .. | .peek .. | .getDepth .. | .expireDue .. | .clear => isTrue trivial

namespace AttentionQueue

/-- The finding in a snooze. -/
def slot (q : AttentionQueue) (key : String) : Option Anomaly := (q.snoozed.get key).bind SnoozeEntry.anomaly

/-- The finding in its snooze that is an agent's own. -/
def ownSlot (opts : QueueOpts) (q : AttentionQueue) (agentId : String) : Option Anomaly :=
  (q.slot (opts.snoozeKey agentId)).filter fun y => y.agentId = agentId

/-- The finding of an agent. While it is snoozed that is the one in the snooze. -/
def finding (opts : QueueOpts) (q : AttentionQueue) (agentId : String) : Option Anomaly :=
  (q.ownSlot opts agentId).or ((q.entries.get agentId).map QueueEntry.anomaly)

structure Owned (opts : QueueOpts) (q : AttentionQueue) : Prop where
  keyed : q.Keyed
  active : ∀ a e, q.entries.get a = some e → e.anomaly.agentId = a
  slot : ∀ k s y, q.snoozed.get k = some s → s.anomaly = some y → opts.snoozeKey y.agentId = k
  own : ∀ k s, q.snoozed.get k = some s → s.key = s.agentId → ∃ y, s.anomaly = some y ∧ y.agentId = s.agentId

variable {s : SnoozeEntry} {k : String}

theorem Owned.own_of_anomaly (h : q.Owned opts) {y : Anomaly}
    (hget : q.snoozed.get k = some s) (hanomaly : s.anomaly = some y) (hkey : s.key = s.agentId) : y.agentId = s.agentId := by
  obtain ⟨y', hy', hown⟩ := h.own k s hget hkey
  rw [hanomaly] at hy'
  rwa [some.inj hy']

variable {a : String}

theorem holds_of_finding {x y : Anomaly} (h : q.finding opts a = some y) (hsame : y.SameFinding x) :
    q.Holds a x := by
  rcases or_eq_some_iff.1 h with hslot | ⟨-, hentry⟩
  · obtain ⟨hslot, hown⟩ := filter_eq_some_iff.1 hslot
    obtain ⟨s, hget, hy⟩ := bind_eq_some_iff.1 hslot
    exact .inr ⟨s, (q.snoozed.mem_values_iff s).2 ⟨_, hget⟩, y, hy, by simpa using hown, hsame⟩
  · obtain ⟨e, he, rfl⟩ := map_eq_some_iff.1 hentry
    exact .inl ⟨e, he, hsame⟩

/-- Every finding survives, perhaps seen at another time. -/
def Preserves (opts : QueueOpts) (q q' : AttentionQueue) (a : String) : Prop :=
  ∀ y, q.finding opts a = some y → ∃ y', q'.finding opts a = some y' ∧ y'.SameFinding y

theorem Preserves.of_eq
    (hentry : (q'.entries.get a).map QueueEntry.anomaly = (q.entries.get a).map QueueEntry.anomaly)
    (hslot : q'.ownSlot opts a = q.ownSlot opts a) : Preserves opts q q' a := by
  intro y hy
  refine ⟨y, ?_, rfl⟩
  unfold finding at hy ⊢
  rw [hentry, hslot]
  exact hy

theorem slot_eq_of_get (h : q.snoozed.get k = some s) : q.slot k = s.anomaly := by
  unfold slot
  rw [h]
  rfl

theorem ownSlot_eq_none (h : ∀ y ∈ q.slot (opts.snoozeKey a), y.agentId ≠ a) : q.ownSlot opts a = none := by
  apply filter_eq_none_iff.2
  intro y hy
  simpa using h y hy

theorem ownSlot_eq_some {y : Anomaly} (hslot : q.slot (opts.snoozeKey a) = some y) (hown : y.agentId = a) :
    q.ownSlot opts a = some y := by
  unfold ownSlot
  rw [hslot]
  exact filter_some_pos (by simpa using hown)

theorem finding_of_slot {y : Anomaly} (hslot : q.slot (opts.snoozeKey a) = some y) (hown : y.agentId = a) :
    q.finding opts a = some y := by
  unfold finding
  rw [ownSlot_eq_some hslot hown]
  rfl

theorem finding_of_no_slot (hslot : q.slot (opts.snoozeKey a) = none) :
    q.finding opts a = (q.entries.get a).map QueueEntry.anomaly := by
  unfold finding
  rw [ownSlot_eq_none (by rw [hslot]; exact fun y hy => absurd hy (Option.not_mem_none y))]
  rfl

/-- A change of one agent's entry, and of its snooze while that holds only its own finding,
leaves every other agent's finding. -/
theorem preserves_other {a b : String} (hb : b ≠ a) (hentry : q'.entries.get b = q.entries.get b)
    (hslots : ∀ k, k ≠ opts.snoozeKey a → q'.slot k = q.slot k) (hold : ∀ y ∈ q.slot (opts.snoozeKey a), y.agentId = a)
    (hnew : ∀ y ∈ q'.slot (opts.snoozeKey a), y.agentId = a) : Preserves opts q q' b := by
  apply Preserves.of_eq
  · rw [hentry]
  · by_cases hkey : opts.snoozeKey b = opts.snoozeKey a
    · rw [ownSlot_eq_none, ownSlot_eq_none]
      · rw [hkey]
        exact fun y hy heq => hb (heq.symm.trans (hold y hy))
      · rw [hkey]
        exact fun y hy heq => hb (heq.symm.trans (hnew y hy))
    · unfold ownSlot
      rw [hslots _ hkey]

theorem slot_set {k k' : String} (h : q'.snoozed = q.snoozed.set k s) : q'.slot k' = if k = k' then s.anomaly else q.slot k' := by
  unfold slot
  rw [h, OrderedMap.get_set]
  split <;> rfl

theorem slot_delete {k k' : String} (h : q'.snoozed = q.snoozed.delete k) : q'.slot k' = if k = k' then none else q.slot k' := by
  unfold slot
  rw [h, OrderedMap.get_delete]
  split <;> rfl

section Enqueue

variable {a : String} {z : Anomaly} {now now' : ℤ} (hkeyed : q.Keyed) {clock : ℤ}
  (hkeeps : TimedQueue.Keeps opts ⟨q, clock⟩ (.enqueue a z now now'))

include hkeeps

theorem slot_own_of_enqueue : ∀ y ∈ q.slot (opts.snoozeKey a), y.agentId = a := by
  intro y hy
  obtain ⟨s, hget, hanomaly⟩ := bind_eq_some_iff.1 hy
  exact (hkeeps.2 s hget y hanomaly).1

include hkeyed

theorem enqueue_finding : ∃ y, (q.enqueue opts a z now now').finding opts a = some y ∧ y.SameFinding z := by
  rcases enqueue_cases hkeyed opts a z now now' with
    ⟨e, -, hsame, hentries, hsnoozed⟩ | ⟨s, z', hget, -, -, hsame, hentries, hsnoozed⟩
  · refine ⟨e.anomaly, ?_, hsame⟩
    rw [finding_of_no_slot, hentries, OrderedMap.get_set_self]
    · rfl
    · rcases hsnoozed with hdelete | ⟨hkept, hdue⟩
      · rw [slot_delete hdelete, if_pos rfl]
      · -- the clock did not pass the expiry of a snooze with a finding in it
        unfold slot
        rw [hkept]
        cases hget : q.snoozed.get (opts.snoozeKey a) with
        | none => rfl
        | some s =>
          cases hanomaly : s.anomaly with
          | none => exact hanomaly
          | some y =>
            have hlate := (hkeeps.2 s hget y hanomaly).2 (hdue s hget).1
            exact absurd (hdue s hget).2 (not_le.2 hlate)
  · have hslot : (q.enqueue opts a z now now').slot (opts.snoozeKey a) = some z' := by
      rw [slot_set hsnoozed, if_pos rfl]
    exact ⟨z', finding_of_slot hslot (hsame.agentId.trans hkeeps.1), hsame⟩

theorem enqueue_preserves {b : String} (hb : b ≠ a) : Preserves opts q (q.enqueue opts a z now now') b := by
  have hold := slot_own_of_enqueue hkeeps
  rcases enqueue_cases hkeyed opts a z now now' with
    ⟨e, -, -, hentries, hsnoozed⟩ | ⟨s, z', hget, -, -, hsame, hentries, hsnoozed⟩
  · have hentry : (q.enqueue opts a z now now').entries.get b = q.entries.get b := by
      rw [hentries, OrderedMap.get_set_of_ne _ _ (Ne.symm hb)]
    rcases hsnoozed with hdelete | ⟨hkept, -⟩
    · refine preserves_other hb hentry (fun k hk => ?_) hold fun y hy => ?_
      · rw [slot_delete hdelete, if_neg (Ne.symm hk)]
      · rw [slot_delete hdelete, if_pos rfl] at hy
        cases hy
    · have hslots : ∀ k, (q.enqueue opts a z now now').slot k = q.slot k := by
        intro k
        unfold slot
        rw [hkept]
      refine preserves_other hb hentry (fun k _ => hslots k) hold fun y hy => ?_
      rw [hslots] at hy
      exact hold y hy
  · refine preserves_other hb (by rw [hentries]) (fun k hk => ?_) hold fun y hy => ?_
    · rw [slot_set hsnoozed, if_neg (Ne.symm hk)]
    · rw [slot_set hsnoozed, if_pos rfl] at hy
      cases hy
      exact hsame.agentId.trans hkeeps.1

end Enqueue

/-- A finding moves from the snooze that holds it to its agent's active entry. -/
theorem restored_preserves {a b : String} {x : Anomaly} (hslot : q.slot (opts.snoozeKey a) = some x) (hown : x.agentId = a)
    (hentries : q'.entries = q.entries.set a ⟨a, x, false⟩)
    (hsnoozed : q'.snoozed = q.snoozed.delete (opts.snoozeKey a)) : Preserves opts q q' b := by
  by_cases hb : b = a
  · subst hb
    intro y hy
    rw [finding_of_slot hslot hown] at hy
    cases hy
    refine ⟨x, ?_, rfl⟩
    rw [finding_of_no_slot, hentries, OrderedMap.get_set_self]
    · rfl
    · rw [slot_delete hsnoozed, if_pos rfl]
  · refine preserves_other hb ?_ (fun k hk => ?_) (fun y hy => ?_) fun y hy => ?_
    · rw [hentries, OrderedMap.get_set_of_ne _ _ (Ne.symm hb)]
    · rw [slot_delete hsnoozed, if_neg (Ne.symm hk)]
    · rw [hslot] at hy
      cases hy
      exact hown
    · rw [slot_delete hsnoozed, if_pos rfl] at hy
      cases hy

theorem dropped_preserves {k b : String} (hslot : q.slot k = none) (hentries : q'.entries = q.entries)
    (hsnoozed : q'.snoozed = q.snoozed.delete k) : Preserves opts q q' b := by
  apply Preserves.of_eq
  · rw [hentries]
  · unfold ownSlot
    rw [slot_delete hsnoozed]
    split
    · rename_i hk
      rw [← hk, hslot]
    · rfl

theorem Preserves.refl (opts : QueueOpts) (q : AttentionQueue) (b : String) : Preserves opts q q b :=
  fun y hy => ⟨y, hy, rfl⟩

theorem Preserves.trans {q'' : AttentionQueue} {b : String} (h : Preserves opts q q' b)
    (h' : Preserves opts q' q'' b) : Preserves opts q q'' b := by
  intro y hy
  obtain ⟨y', hy', hsame⟩ := h y hy
  obtain ⟨y'', hy'', hsame'⟩ := h' y' hy'
  exact ⟨y'', hy'', hsame'.trans hsame⟩

theorem restoreOne_preserves (h : q.Owned opts) {now : ℤ}
    (hget : q.snoozed.get k = some s) (hdue : s.expiresAt ≤ now) (b : String) : Preserves opts q (q.restoreOne now (k, s)) b := by
  rcases restoreOne_cases q k hdue with ⟨hnone, heq⟩ | ⟨x, hanomaly, hkey, heq⟩ | ⟨-, -, heq⟩
  · rw [heq]
    exact dropped_preserves (by rw [slot_eq_of_get hget, hnone]) rfl rfl
  · -- the snooze is its agent's own, and so is the finding in it
    have hown := h.own_of_anomaly hget hanomaly hkey
    have hslotkey : opts.snoozeKey s.agentId = k := hown ▸ h.slot k s x hget hanomaly
    rw [heq]
    refine restored_preserves (a := s.agentId) ?_ hown rfl ?_
    · rw [hslotkey, slot_eq_of_get hget, hanomaly]
    · rw [hslotkey]
  · rw [heq]
    exact Preserves.refl opts q b

theorem cancelSnooze_preserves (h : q.Owned opts) {a restored : String} {clock : ℤ}
    (hkeeps : TimedQueue.Keeps opts ⟨q, clock⟩ (.cancelSnooze a restored)) (b : String) :
    Preserves opts q (q.cancelSnooze opts a restored).2 b := by
  unfold cancelSnooze
  cases hget : q.snoozed.get (opts.snoozeKey a) with
  | none => exact Preserves.refl opts q b
  | some s =>
    have hkey := h.keyed.snoozed _ s hget
    dsimp only
    cases hanomaly : s.anomaly with
    | none => exact dropped_preserves (by rw [hkey, slot_eq_of_get hget, hanomaly]) rfl rfl
    | some x =>
      have hown : x.agentId = restored := hkeeps s hget x hanomaly
      have hslotkey : opts.snoozeKey restored = opts.snoozeKey a := hown ▸ h.slot _ s x hget hanomaly
      refine restored_preserves (a := restored) (x := x) ?_ hown ?_ ?_
      · rw [hslotkey, slot_eq_of_get hget, hanomaly]
      · rw [← hown]
      · rw [hslotkey, hkey]

section Snooze

variable {a : String} {d : ℤ} {reason : Option String} {fallback : Option Anomaly} {now clock : ℤ}
  (h : q.Owned opts) (hkeeps : TimedQueue.Keeps opts ⟨q, clock⟩ (.snooze a d reason fallback now))

include hkeeps

theorem slot_of_snooze {y : Anomaly} (hy : q.slot (opts.snoozeKey a) = some y) :
    q.entries.get a = none ∧ ∃ f, fallback = some f ∧ f.SameFinding y ∧ y.agentId = a := by
  obtain ⟨s, hget, hanomaly⟩ := bind_eq_some_iff.1 hy
  obtain ⟨hmem, f, hf, hsame⟩ := hkeeps.1 s hget y hanomaly
  exact ⟨(q.entries.get_eq_none_iff a).2 hmem, f, hf, hsame, hsame.agentId.symm.trans (hkeeps.2 hmem f hf)⟩

include h

theorem snoozed_own {y : Anomaly} (hy : ((q.entries.get a).map QueueEntry.anomaly).or fallback = some y) : y.agentId = a := by
  rcases or_eq_some_iff.1 hy with hentry | ⟨hnone, hf⟩
  · obtain ⟨e, he, rfl⟩ := map_eq_some_iff.1 hentry
    exact h.active a e he
  · rw [map_eq_none_iff] at hnone
    exact hkeeps.2 ((q.entries.get_eq_none_iff a).1 hnone) y hf

theorem snooze_preserves (b : String) : Preserves opts q (q.snooze opts a d reason fallback now).2 b := by
  rcases snooze_cases q opts a d reason fallback now with heq | ⟨s, -, -, hanomaly, -, hentries, hsnoozed⟩
  · rw [heq]
    exact Preserves.refl opts q b
  · by_cases hb : b = a
    · subst hb
      have hfinding : ∀ y, ((q.entries.get b).map QueueEntry.anomaly).or fallback = some y →
          (q.snooze opts b d reason fallback now).2.finding opts b = some y := by
        intro y hy
        refine finding_of_slot ?_ (snoozed_own h hkeeps hy)
        rw [slot_set hsnoozed, if_pos rfl, hanomaly, hy]
      intro y hy
      cases hslot : q.slot (opts.snoozeKey b) with
      | none =>
        rw [finding_of_no_slot hslot] at hy
        exact ⟨y, hfinding y (by rw [hy]; rfl), rfl⟩
      | some hidden =>
        obtain ⟨hentry, f, rfl, hsame, hown⟩ := slot_of_snooze hkeeps hslot
        rw [finding_of_slot hslot hown] at hy
        cases hy
        exact ⟨f, hfinding f (by rw [hentry]; rfl), hsame⟩
    · refine preserves_other hb ?_ (fun k hk => ?_) (fun y hy => ?_) fun y hy => ?_
      · rw [hentries, OrderedMap.get_delete, if_neg (Ne.symm hb)]
      · rw [slot_set hsnoozed, if_neg (Ne.symm hk)]
      · obtain ⟨-, f, -, -, hown⟩ := slot_of_snooze hkeeps hy
        exact hown
      · rw [slot_set hsnoozed, if_pos rfl, hanomaly] at hy
        exact snoozed_own h hkeeps hy

end Snooze

section

variable (h : q.Owned opts)
include h

theorem Owned.of_maps (hkeyed : q'.Keyed) (hentries : ∀ a e, q'.entries.get a = some e →
      (∃ e', q.entries.get a = some e' ∧ e'.anomaly = e.anomaly) ∨ e.anomaly.agentId = a)
    (hsnoozed : ∀ k s, q'.snoozed.get k = some s → q.snoozed.get k = some s ∨
      (∀ y, s.anomaly = some y → opts.snoozeKey y.agentId = k) ∧
        (s.key = s.agentId → ∃ y, s.anomaly = some y ∧ y.agentId = s.agentId)) : q'.Owned opts := by
  refine ⟨hkeyed, fun a e hget => ?_, fun k s y hget hy => ?_, fun k s hget hkey => ?_⟩
  · rcases hentries a e hget with ⟨e', hold, heq⟩ | hown
    · rw [← heq]
      exact h.active a e' hold
    · exact hown
  · rcases hsnoozed k s hget with hold | ⟨hown, -⟩
    · exact h.slot k s y hold hy
    · exact hown y hy
  · rcases hsnoozed k s hget with hold | ⟨-, hown⟩
    · exact h.own k s hold hkey
    · exact hown hkey

theorem restoreOne_owned {now : ℤ}
    (hget : q.snoozed.get k = some s) (hdue : s.expiresAt ≤ now) : (q.restoreOne now (k, s)).Owned opts := by
  refine h.of_maps (restoreOne_keyed h.keyed hdue) (fun a e he => ?_) fun k' s' hs' => ?_
  · rcases restoreOne_cases q k hdue with ⟨-, heq⟩ | ⟨x, hanomaly, hkey, heq⟩ | ⟨-, -, heq⟩
    · rw [heq] at he
      exact .inl ⟨e, he, rfl⟩
    · rw [heq] at he
      rcases get_set_some he with ⟨rfl, rfl⟩ | ⟨-, hold⟩
      · exact .inr (h.own_of_anomaly hget hanomaly hkey)
      · exact .inl ⟨e, hold, rfl⟩
    · rw [heq] at he
      exact .inl ⟨e, he, rfl⟩
  · left
    rcases restoreOne_cases q k hdue with ⟨-, heq⟩ | ⟨x, -, -, heq⟩ | ⟨-, -, heq⟩
    · rw [heq] at hs'
      exact (get_delete_some hs').2
    · rw [heq] at hs'
      exact (get_delete_some hs').2
    · rwa [heq] at hs'

theorem restore_owned (now : ℤ) : (q.restoreExpiredSnoozes now).Owned opts :=
  restore_induct (fun _ _ _ h hget hdue => restoreOne_owned h hget hdue) h

theorem restore_preserves (now : ℤ) (b : String) : Preserves opts q (q.restoreExpiredSnoozes now) b := by
  have hboth : (q.restoreExpiredSnoozes now).Owned opts ∧ Preserves opts q (q.restoreExpiredSnoozes now) b :=
    restore_induct (P := fun q₁ => q₁.Owned opts ∧ Preserves opts q q₁ b)
      (fun _ _ _ hinv hget hdue =>
        ⟨restoreOne_owned hinv.1 hget hdue, hinv.2.trans (restoreOne_preserves hinv.1 hget hdue b)⟩)
      ⟨h, Preserves.refl opts q b⟩
  exact hboth.2

theorem enqueue_owned {a : String} {z : Anomaly} {now now' clock : ℤ}
    (hkeeps : TimedQueue.Keeps opts ⟨q, clock⟩ (.enqueue a z now now')) : (q.enqueue opts a z now now').Owned opts := by
  have hkeyed := enqueue_keyed h.keyed opts a z now now'
  rcases enqueue_cases h.keyed opts a z now now' with
    ⟨e, -, hsame, hentries, hsnoozed⟩ | ⟨s, z', hget, -, -, hsame, hentries, hsnoozed⟩
  · refine h.of_maps hkeyed (fun b e' he' => ?_) fun k s hs => .inl ?_
    · rw [hentries] at he'
      rcases get_set_some he' with ⟨rfl, rfl⟩ | ⟨-, hold⟩
      · exact .inr (hsame.agentId.trans hkeeps.1)
      · exact .inl ⟨e', hold, rfl⟩
    · rcases hsnoozed with hdelete | ⟨hkept, -⟩
      · rw [hdelete] at hs
        exact (get_delete_some hs).2
      · rwa [hkept] at hs
  · have hown : z'.agentId = a := hsame.agentId.trans hkeeps.1
    refine h.of_maps hkeyed (fun b e' he' => .inl ⟨e', hentries ▸ he', rfl⟩) fun k s' hs' => ?_
    rw [hsnoozed] at hs'
    rcases get_set_some hs' with ⟨rfl, rfl⟩ | ⟨-, hold⟩
    · refine .inr ⟨fun y hy => ?_, fun hkey => ⟨z', rfl, ?_⟩⟩
      · cases hy
        rw [hown]
      · obtain ⟨y, hy, hyown⟩ := h.own _ s hget hkey
        exact hown.trans ((hkeeps.2 s hget y hy).1.symm.trans hyown)
    · exact .inl hold

theorem snooze_owned {a : String} {d : ℤ} {reason : Option String} {fallback : Option Anomaly}
    {now clock : ℤ} (hkeeps : TimedQueue.Keeps opts ⟨q, clock⟩ (.snooze a d reason fallback now)) :
    (q.snooze opts a d reason fallback now).2.Owned opts := by
  have hkeyed := apply_keyed h.keyed opts (.snooze a d reason fallback now)
  rcases snooze_cases q opts a d reason fallback now with heq | ⟨s, hid, hkey, hanomaly, hfull, hentries, hsnoozed⟩
  · rw [heq]
    exact h
  · refine h.of_maps hkeyed (fun b e he => ?_) fun k s' hs' => ?_
    · rw [hentries] at he
      exact .inl ⟨e, (get_delete_some he).2, rfl⟩
    · rw [hsnoozed] at hs'
      rcases get_set_some hs' with ⟨rfl, rfl⟩ | ⟨-, hold⟩
      · refine .inr ⟨fun y hy => ?_, fun hagent => ?_⟩
        · rw [snoozed_own h hkeeps (hanomaly.symm.trans hy)]
        · cases hy : s.anomaly with
          | none => exact absurd hagent (hfull hy)
          | some y => exact ⟨y, rfl, (snoozed_own h hkeeps (hanomaly.symm.trans hy)).trans hid.symm⟩
      · exact .inl hold

theorem cancelSnooze_owned (a restored : String) : (q.cancelSnooze opts a restored).2.Owned opts := by
  refine h.of_maps (apply_keyed h.keyed opts (.cancelSnooze a restored)) (fun b e he => ?_) fun k s hs => .inl ?_
  · unfold cancelSnooze at he
    split at he
    · exact .inl ⟨e, he, rfl⟩
    · split at he
      · rcases get_set_some he with ⟨rfl, rfl⟩ | ⟨-, hold⟩
        · exact .inr rfl
        · exact .inl ⟨e, hold, rfl⟩
      · exact .inl ⟨e, he, rfl⟩
  · unfold cancelSnooze at hs
    split at hs
    · exact hs
    · exact (get_delete_some hs).2

omit h in
theorem skip_entries (q : AttentionQueue) (a b : String) :
    ((q.skip a).entries.get b).map QueueEntry.anomaly = (q.entries.get b).map QueueEntry.anomaly ∧
      (q.skip a).snoozed = q.snoozed := by
  unfold skip
  split
  · rename_i e he
    refine ⟨?_, rfl⟩
    dsimp only
    rw [OrderedMap.get_set]
    split
    · rename_i hab
      rw [← hab, he]
      rfl
    · rfl
  · exact ⟨rfl, rfl⟩

theorem apply_owned {e : QueueEvent} {clock : ℤ} (himport : e.isImport = false)
    (hkeeps : TimedQueue.Keeps opts ⟨q, clock⟩ e) : (q.apply opts e).Owned opts := by
  have hkeyed := apply_keyed h.keyed opts e
  cases e with
  | enqueue a z now now' => exact enqueue_owned h hkeeps
  | next now | getAll now | getDepth asked now => exact restore_owned h _
  | skip a =>
    refine h.of_maps hkeyed (fun b e he => .inl ?_) fun k s hs => .inl ?_
    · have hmap := (skip_entries q a b).1
      rw [show (q.skip a).entries.get b = some e from he] at hmap
      obtain ⟨e', he', heq⟩ := map_eq_some_iff.1 hmap.symm
      exact ⟨e', he', heq⟩
    · rw [AttentionQueue.apply, (skip_entries q a "").2] at hs
      exact hs
  | snooze a d reason fallback now => exact snooze_owned h hkeeps
  | cancelSnooze a restored => exact cancelSnooze_owned h a restored
  | remove a =>
    obtain ⟨hentries, hsnoozed⟩ := remove_entries q opts a
    refine h.of_maps hkeyed (fun b e he => .inl ?_) fun k s hs => .inl ?_
    · rw [AttentionQueue.apply, hentries] at he
      exact ⟨e, (get_delete_some he).2, rfl⟩
    · rwa [AttentionQueue.apply, hsnoozed] at hs
  | purge a =>
    exact h.of_maps hkeyed (fun b e he => .inl ⟨e, (get_delete_some he).2, rfl⟩) fun k s hs => .inl hs
  | purgeTask key =>
    exact h.of_maps hkeyed (fun b e he => .inl ⟨e, he, rfl⟩) fun k s hs => .inl (get_delete_some hs).2
  | importSnoozed entries => cases himport
  | respondAndAdvance a now =>
    have hdelete : ({ q with entries := q.entries.delete a } : AttentionQueue).Owned opts :=
      h.of_maps (delete_entry_keyed h.keyed a) (fun b e he => .inl ⟨e, (get_delete_some he).2, rfl⟩)
        fun k s hs => .inl hs
    exact restore_owned hdelete now
  | peek a now => exact h
  | expireDue asked now =>
    exact h.of_maps hkeyed (fun b e he => .inl ⟨e, he, rfl⟩) fun k s hs => .inl (expireDue_snoozed hs)
  | clear => exact h.of_maps hkeyed (fun b e he => by cases he) fun k s hs => by cases hs

end

/-- Every finding that is owed is where its agent's findings are looked for. -/
def Pays (opts : QueueOpts) (q : AttentionQueue) (past : List QueueEvent) : Prop :=
  ∀ a x, owed a past = some x → ∃ y, q.finding opts a = some y ∧ y.SameFinding x

theorem Pays.of_preserves {past : List QueueEvent} {e : QueueEvent} (h : q.Pays opts past)
    (hpreserves : ∀ b, Preserves opts q q' b) (howed : ∀ b, owed b (past ++ [e]) = owed b past) : q'.Pays opts (past ++ [e]) := by
  intro a x hx
  rw [howed] at hx
  obtain ⟨y, hy, hsame⟩ := h a x hx
  obtain ⟨y', hy', hsame'⟩ := hpreserves a y hy
  exact ⟨y', hy', hsame'.trans hsame⟩

theorem owed_concat (b : String) (past : List QueueEvent) (e : QueueEvent) :
    owed b (past ++ [e]) = owedStep b (owed b past) e := by
  unfold owed
  rw [List.foldl_append]
  rfl

theorem apply_pays (h : q.Owned opts) {past : List QueueEvent} (hpays : q.Pays opts past) {e : QueueEvent} {clock : ℤ}
    (himport : e.isImport = false) (hkeeps : TimedQueue.Keeps opts ⟨q, clock⟩ e) : (q.apply opts e).Pays opts (past ++ [e]) := by
  have hreset : (∀ b o, owedStep b o e = none) → (q.apply opts e).Pays opts (past ++ [e]) := by
    intro hnone a x hx
    rw [owed_concat, hnone] at hx
    cases hx
  cases e with
  | enqueue a z now now' =>
    intro b x hx
    rw [owed_concat] at hx
    by_cases hb : a = b
    · subst hb
      obtain rfl := some.inj ((if_pos rfl).symm.trans hx)
      exact enqueue_finding h.keyed hkeeps
    · have hx : owed b past = some x := (if_neg hb).symm.trans hx
      obtain ⟨y, hy, hsame⟩ := hpays b x hx
      obtain ⟨y', hy', hsame'⟩ := enqueue_preserves h.keyed hkeeps (Ne.symm hb) y hy
      exact ⟨y', hy', hsame'.trans hsame⟩
  | next now | getAll now | getDepth asked now =>
    exact hpays.of_preserves (restore_preserves h _) fun b => owed_concat b past _
  | skip a =>
    refine hpays.of_preserves (fun b => Preserves.of_eq (skip_entries q a b).1 ?_) fun b => owed_concat b past _
    unfold ownSlot slot
    rw [AttentionQueue.apply, (skip_entries q a "").2]
  | snooze a d reason fallback now =>
    exact hpays.of_preserves (snooze_preserves h hkeeps) fun b => owed_concat b past _
  | cancelSnooze a restored =>
    exact hpays.of_preserves (cancelSnooze_preserves h hkeeps) fun b => owed_concat b past _
  | peek a now => exact hpays.of_preserves (Preserves.refl opts q) fun b => owed_concat b past _
  | importSnoozed entries => cases himport
  | remove _ | purge _ | purgeTask _ | respondAndAdvance _ _ | expireDue _ _ | clear => exact hreset fun _ _ => rfl

/-- As long as each snooze that holds a finding is reached for the finding's own session
only, no finding that is owed is lost. -/
theorem finding_is_kept (opts : QueueOpts) (clock : ℤ) (es : List QueueEvent) (s : TimedQueue)
    (hops : ∀ e ∈ es, e.isImport = false) (hkeeps : StepsMeet (TimedQueue.step opts) (TimedQueue.Keeps opts) (.initial clock) es)
    (hrun : exec (TimedQueue.step opts) (.initial clock) es = some s) (agentId : String) (x : Anomaly)
    (howed : owed agentId es = some x) : s.queue.Holds agentId x := by
  have hpreserved : ∀ past s e s', (s.queue.Owned opts ∧ s.queue.Pays opts past) →
      (TimedQueue.Keeps opts s e ∧ e.isImport = false) → TimedQueue.step opts s e = some s' →
      s'.queue.Owned opts ∧ s'.queue.Pays opts (past ++ [e]) := by
    intro past s e s' hinv hok hstep
    rw [(TimedQueue.step_eq_some hstep).2]
    exact ⟨apply_owned hinv.1 hok.2 hok.1, apply_pays hinv.1 hinv.2 hok.2 hok.1⟩
  have hinitial : (TimedQueue.initial clock).queue.Owned opts := by
    refine ⟨initial_keyed, fun a e he => ?_, fun k s y hs => ?_, fun k s hs => ?_⟩
    · cases he
    · cases hs
    · cases hs
  have hnothing : (TimedQueue.initial clock).queue.Pays opts [] := by
    intro a x hx
    cases hx
  obtain ⟨-, hpays⟩ := exec_invariant_log hpreserved ⟨hinitial, hnothing⟩ (hkeeps.and_forall hops) hrun
  obtain ⟨y, hy, hsame⟩ := hpays agentId x howed
  exact holds_of_finding hy hsame

/-- A finding goes through its session's snoozes and comes back, beside that of another
session of the task. -/
theorem finding_survives_snoozes : ∃ s, exec (TimedQueue.step oneTask) (.initial 0)
      [.enqueue "first" (waiting "first") 1 1, .snooze "first" 60000 none none 2,
        .enqueue "first" (waiting "first") 3 3, .snooze "first" 10 none (some (waiting "first")) 4, .next 20,
        .cancelSnooze "first" "first", .enqueue "second" (waiting "second") 21 21] = some s ∧
      s.queue.Holds "first" (waiting "first") := by
  refine ⟨_, rfl, ?_⟩
  exact finding_is_kept oneTask 0
    [.enqueue "first" (waiting "first") 1 1, .snooze "first" 60000 none none 2,
      .enqueue "first" (waiting "first") 3 3, .snooze "first" 10 none (some (waiting "first")) 4, .next 20,
      .cancelSnooze "first" "first", .enqueue "second" (waiting "second") 21 21] _ (by decide) (by decide +kernel) rfl
    "first" _ rfl

/-- A finding of another session of the task takes the place of the one that is snoozed. -/
theorem sibling_replaces_finding : ∃ s, exec (TimedQueue.step oneTask) (.initial 0)
      [.enqueue "first" (waiting "first") 1 1, .snooze "first" 60000 none none 2,
        .enqueue "second" (waiting "second") 3 3] = some s ∧
      owed "first" [.enqueue "first" (waiting "first") 1 1, .snooze "first" 60000 none none 2,
        .enqueue "second" (waiting "second") 3 3] = some (waiting "first") ∧ ¬ s.queue.Holds "first" (waiting "first") :=
  ⟨_, rfl, rfl, by decide +kernel⟩

end AttentionQueue

end Kookr.Core
