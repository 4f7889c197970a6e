import Kookr.Spec.Core.AttentionQueue

/-! The two maps of the attention queue under its operations, agent by agent and key by
key, and the rule for the restore loop. -/

namespace Kookr.Core

open Kookr.Lib OrderedMap List

/-- The same finding, perhaps seen at another time. -/
def Anomaly.SameFinding (x y : Anomaly) : Prop := { x with detectedAt := y.detectedAt } = y

instance (x y : Anomaly) : Decidable (x.SameFinding y) := inferInstanceAs (Decidable (_ = _))

theorem le_of_advance {clock clock' : ℤ} {readings : List ℤ} (h : advance clock readings = some clock') :
    clock ≤ clock' ∧ ∀ now ∈ readings, now ≤ clock' := by
  induction readings generalizing clock with
  | nil =>
    cases h
    exact ⟨le_refl _, by simp⟩
  | cons now rest ih =>
    simp only [advance] at h
    split at h
    · rename_i hle
      obtain ⟨hnow, hrest⟩ := ih h
      refine ⟨le_trans hle hnow, fun now' hmem => ?_⟩
      rcases mem_cons.1 hmem with rfl | hmem
      · exact hnow
      · exact hrest now' hmem
    · cases h

theorem TimedQueue.step_eq_some {opts : QueueOpts} {s s' : TimedQueue} {e : QueueEvent} (h : s.step opts e = some s') :
    advance s.clock e.readings = some s'.clock ∧ s'.queue = s.queue.apply opts e := by
  obtain ⟨clock, hclock, rfl⟩ := Option.map_eq_some_iff.1 h
  exact ⟨hclock, rfl⟩

namespace AttentionQueue

variable {opts : QueueOpts} {q : AttentionQueue} {now : ℤ} {s : SnoozeEntry}

/-- Entries and snoozes stand under their own keys. -/
structure Keyed (q : AttentionQueue) : Prop where
  entries : ∀ a e, q.entries.get a = some e → e.agentId = a
  snoozed : ∀ k s, q.snoozed.get k = some s → s.key = k

theorem mem_inspectActive (hkeyed : q.Keyed) {x : String × Anomaly} :
    x ∈ q.inspectActive ↔ ∃ e, q.entries.get x.1 = some e ∧ e.anomaly = x.2 := by
  unfold inspectActive getSorted
  rw [mem_map]
  constructor
  · intro ⟨e, hmem, hx⟩
    rw [mem_insertionSort, OrderedMap.mem_values_iff] at hmem
    obtain ⟨a, hget⟩ := hmem
    obtain rfl := hkeyed.entries a e hget
    exact ⟨e, by rw [← hx]; exact hget, by rw [← hx]⟩
  · intro ⟨e, hget, hx⟩
    refine ⟨e, ?_, ?_⟩
    · rw [mem_insertionSort, OrderedMap.mem_values_iff]
      exact ⟨x.1, hget⟩
    · rw [hkeyed.entries x.1 e hget, hx]

/-- What one turn of the restore loop does with an expired snooze. -/
theorem restoreOne_cases (q : AttentionQueue) (k : String) (hdue : s.expiresAt ≤ now) :
    (s.anomaly = none ∧ q.restoreOne now (k, s) = { q with snoozed := q.snoozed.delete k }) ∨
      (∃ anomaly, s.anomaly = some anomaly ∧ s.key = s.agentId ∧
        q.restoreOne now (k, s) = { q with
          entries := q.entries.set s.agentId ⟨s.agentId, anomaly, false⟩
          snoozed := q.snoozed.delete k }) ∨
      ((∃ anomaly, s.anomaly = some anomaly) ∧ s.key ≠ s.agentId ∧ q.restoreOne now (k, s) = q) := by
  unfold restoreOne
  rw [if_neg (not_lt.2 hdue)]
  cases hanomaly : s.anomaly with
  | none => exact .inl ⟨rfl, rfl⟩
  | some anomaly =>
    by_cases hkey : s.key = s.agentId
    · exact .inr (.inl ⟨anomaly, rfl, hkey, if_pos hkey⟩)
    · exact .inr (.inr ⟨⟨anomaly, rfl⟩, hkey, if_neg hkey⟩)

theorem restoreOne_snoozed_of_ne (now : ℤ) {p : String × SnoozeEntry} {k : String} (hne : p.1 ≠ k) :
    (q.restoreOne now p).snoozed.get k = q.snoozed.get k := by
  by_cases hdue : now < p.2.expiresAt
  · rw [restoreOne, if_pos hdue]
  · rcases restoreOne_cases q p.1 (not_lt.1 hdue) with ⟨-, heq⟩ | ⟨anomaly, -, -, heq⟩ | ⟨-, -, heq⟩
    · rw [heq]
      exact (q.snoozed.get_delete p.1 k).trans (if_neg hne)
    · rw [heq]
      exact (q.snoozed.get_delete p.1 k).trans (if_neg hne)
    · rw [heq]

/-- The restore loop meets every expired snooze once, as it was. -/
theorem restore_induct {P : AttentionQueue → Prop}
    (hstep : ∀ q k s, P q → q.snoozed.get k = some s → s.expiresAt ≤ now → P (q.restoreOne now (k, s)))
    (h : P q) : P (q.restoreExpiredSnoozes now) := by
  have haux : ∀ (l : List (String × SnoozeEntry)) (q : AttentionQueue), (l.map Prod.fst).Nodup →
      (∀ p ∈ l, q.snoozed.get p.1 = some p.2) → P q → P (l.foldl (restoreOne now) q) := by
    intro l
    induction l with
    | nil => exact fun q _ _ h => h
    | cons p l ih =>
      intro q hnodup hget h
      rw [map_cons, nodup_cons] at hnodup
      have hp := hget p mem_cons_self
      refine ih _ hnodup.2 ?_ ?_
      · -- only the snooze under this key may be gone
        intro p' hp'
        have hne : p.1 ≠ p'.1 := fun heq => hnodup.1 (heq ▸ mem_map.2 ⟨p', hp', rfl⟩)
        rw [restoreOne_snoozed_of_ne now hne]
        exact hget p' (mem_cons_of_mem p hp')
      · by_cases hdue : now < p.2.expiresAt
        · rw [restoreOne, if_pos hdue]
          exact h
        · exact hstep q p.1 p.2 h hp (not_lt.1 hdue)
  refine haux _ q q.snoozed.nodup ?_ h
  intro p hp
  exact (q.snoozed.get_eq_some_iff p.1 p.2).2 hp

theorem restoreOne_keyed (hkeyed : q.Keyed) {k : String} (hdue : s.expiresAt ≤ now) : (q.restoreOne now (k, s)).Keyed := by
  have hdelete : ∀ k' s', (q.snoozed.delete k).get k' = some s' → s'.key = k' := by
    intro k' s' hget
    exact hkeyed.snoozed k' s' (OrderedMap.get_delete_some hget).2
  rcases restoreOne_cases q k hdue with ⟨-, heq⟩ | ⟨anomaly, -, -, heq⟩ | ⟨-, -, heq⟩
  · rw [heq]
    exact ⟨hkeyed.entries, hdelete⟩
  · rw [heq]
    refine ⟨fun a e hget => ?_, hdelete⟩
    rcases OrderedMap.get_set_some hget with ⟨heq, rfl⟩ | ⟨-, hget⟩
    · exact heq
    · exact hkeyed.entries a e hget
  · rw [heq]
    exact hkeyed

theorem enqueueActive_entries (hkeyed : q.Keyed) (a : String) (z : Anomaly) : ∃ e : QueueEntry,
    e.agentId = a ∧ e.anomaly.SameFinding z ∧ (q.enqueueActive a z).entries = q.entries.set a e ∧
      (q.enqueueActive a z).snoozed = q.snoozed := by
  unfold enqueueActive
  split
  · rename_i existing hget
    split_ifs
    · exact ⟨{ existing with anomaly := { z with detectedAt := existing.anomaly.detectedAt } },
        hkeyed.entries a existing hget, rfl, rfl, rfl⟩
    · exact ⟨⟨a, z, false⟩, rfl, rfl, rfl, rfl⟩
  · exact ⟨⟨a, z, false⟩, rfl, rfl, rfl, rfl⟩

/-- A finding is admitted, with the snooze dropped, woken or expired in between; or it goes
into the snooze. -/
theorem enqueue_cases (hkeyed : q.Keyed) (opts : QueueOpts) (a : String) (z : Anomaly) (now now' : ℤ) :
    (∃ e : QueueEntry, e.agentId = a ∧ e.anomaly.SameFinding z ∧ (q.enqueue opts a z now now').entries = q.entries.set a e ∧
      ((q.enqueue opts a z now now').snoozed = q.snoozed.delete (opts.snoozeKey a) ∨
        (q.enqueue opts a z now now').snoozed = q.snoozed ∧
          ∀ s, q.snoozed.get (opts.snoozeKey a) = some s → now < s.expiresAt ∧ s.expiresAt ≤ now')) ∨
    ∃ s z', q.snoozed.get (opts.snoozeKey a) = some s ∧ now < s.expiresAt ∧ now' < s.expiresAt ∧
      Anomaly.SameFinding z' z ∧ (q.enqueue opts a z now now').entries = q.entries ∧
      (q.enqueue opts a z now now').snoozed = q.snoozed.set (opts.snoozeKey a) { s with anomaly := some z' } := by
  unfold enqueue dropExpiredForKey
  dsimp only
  cases hget : q.snoozed.get (opts.snoozeKey a) with
  | none =>
    left
    rw [hget]
    have hkeyed' : ({ q with lastRemoved := q.lastRemoved.delete a } : AttentionQueue).Keyed :=
      ⟨hkeyed.entries, hkeyed.snoozed⟩
    obtain ⟨e, hid, hsame, hentries, hsnoozed⟩ := enqueueActive_entries hkeyed' a z
    refine ⟨e, hid, hsame, hentries, .inr ⟨hsnoozed, ?_⟩⟩
    intro s hs
    cases hs
  | some s =>
    dsimp only
    by_cases hdue : now < s.expiresAt
    · rw [if_pos hdue]
      rw [hget]
      dsimp only
      by_cases hdue' : now' < s.expiresAt
      · unfold enqueueSnoozed
        split_ifs
        · exact .inl ⟨⟨a, z, false⟩, rfl, rfl, rfl, .inl rfl⟩
        · right
          refine ⟨s, _, rfl, hdue, hdue', ?_, rfl, rfl⟩
          cases s.anomaly with
          | none => rfl
          | some hidden =>
            dsimp only
            split_ifs <;> rfl
      · left
        rw [if_neg hdue']
        have hkeyed' : ({ q with lastRemoved := q.lastRemoved.delete a } : AttentionQueue).Keyed :=
          ⟨hkeyed.entries, hkeyed.snoozed⟩
        obtain ⟨e, hid, hsame, hentries, hsnoozed⟩ := enqueueActive_entries hkeyed' a z
        refine ⟨e, hid, hsame, hentries, .inr ⟨hsnoozed, ?_⟩⟩
        intro s' hs'
        cases hs'
        exact ⟨hdue, not_lt.1 hdue'⟩
    · left
      rw [if_neg hdue]
      rw [OrderedMap.get_delete, if_pos rfl]
      have hkeyed' : ({ q with
          lastRemoved := q.lastRemoved.delete a
          snoozed := q.snoozed.delete (opts.snoozeKey a) } : AttentionQueue).Keyed :=
        ⟨hkeyed.entries, fun k s hs => hkeyed.snoozed k s (get_delete_some hs).2⟩
      obtain ⟨e, hid, hsame, hentries, hsnoozed⟩ := enqueueActive_entries hkeyed' a z
      exact ⟨e, hid, hsame, hentries, .inl hsnoozed⟩

theorem snooze_cases (q : AttentionQueue) (opts : QueueOpts) (a : String) (d : ℤ) (reason : Option String)
    (fallback : Option Anomaly) (now : ℤ) : (q.snooze opts a d reason fallback now).2 = q ∨
      ∃ s : SnoozeEntry, s.agentId = a ∧ s.key = opts.snoozeKey a ∧
        s.anomaly = ((q.entries.get a).map QueueEntry.anomaly).or fallback ∧ (s.anomaly = none → s.key ≠ s.agentId) ∧
        (q.snooze opts a d reason fallback now).2.entries = q.entries.delete a ∧
        (q.snooze opts a d reason fallback now).2.snoozed = q.snoozed.set (opts.snoozeKey a) s := by
  unfold snooze
  dsimp only
  split
  · exact .inl rfl
  · rename_i hsome
    refine .inr ⟨_, rfl, rfl, rfl, fun hnone hkey => hsome ?_, rfl, rfl⟩
    have hnone' : ((q.entries.get a).map QueueEntry.anomaly).or fallback = none := hnone
    have hkey' : opts.snoozeKey a = a := hkey
    rw [hnone', hkey']
    simp

theorem Keyed.of_maps {q' : AttentionQueue} (h : q.Keyed)
    (hentries : ∀ a e, q'.entries.get a = some e → q.entries.get a = some e ∨ e.agentId = a)
    (hsnoozed : ∀ k s, q'.snoozed.get k = some s → q.snoozed.get k = some s ∨ s.key = k) : q'.Keyed := by
  refine ⟨fun a e hget => ?_, fun k s hget => ?_⟩
  · rcases hentries a e hget with hold | hid
    · exact h.entries a e hold
    · exact hid
  · rcases hsnoozed k s hget with hold | hkey
    · exact h.snoozed k s hold
    · exact hkey

theorem restore_keyed (h : q.Keyed) (now : ℤ) : (q.restoreExpiredSnoozes now).Keyed :=
  restore_induct (fun _ _ _ hkeyed _ hdue => restoreOne_keyed hkeyed hdue) h

theorem delete_entry_keyed (h : q.Keyed) (a : String) : ({ q with entries := q.entries.delete a } : AttentionQueue).Keyed :=
  h.of_maps (fun _ _ hget => .inl (get_delete_some hget).2) fun _ _ hget => .inl hget

theorem enqueue_keyed (h : q.Keyed) (opts : QueueOpts) (a : String) (z : Anomaly) (now now' : ℤ) :
    (q.enqueue opts a z now now').Keyed := by
  rcases enqueue_cases h opts a z now now' with ⟨e, hid, -, hentries, hsnoozed⟩ | ⟨s, z', hget, -, -, -, hentries, hsnoozed⟩
  · refine h.of_maps (fun a' e' hget => ?_) fun k s hget => ?_
    · rw [hentries] at hget
      rcases get_set_some hget with ⟨rfl, rfl⟩ | ⟨-, hold⟩
      · exact .inr hid
      · exact .inl hold
    · rcases hsnoozed with heq | ⟨heq, -⟩
      · rw [heq] at hget
        exact .inl (get_delete_some hget).2
      · rw [heq] at hget
        exact .inl hget
  · refine h.of_maps (fun a' e' hget => ?_) fun k s' hget' => ?_
    · rw [hentries] at hget
      exact .inl hget
    · rw [hsnoozed] at hget'
      rcases get_set_some hget' with ⟨rfl, rfl⟩ | ⟨-, hold⟩
      · exact .inr (h.snoozed _ s hget)
      · exact .inl hold

theorem importOne_keyed (h : q.Keyed) (imported : ImportedSnooze × ℤ) : (q.importOne imported).Keyed := by
  refine h.of_maps (fun a e hget => .inl (get_delete_some hget).2) fun k s hget => ?_
  rcases get_set_some hget with ⟨rfl, rfl⟩ | ⟨-, hold⟩
  · exact .inr rfl
  · exact .inl hold

theorem remove_entries (q : AttentionQueue) (opts : QueueOpts) (a : String) :
    (q.remove opts a).entries = q.entries.delete a ∧ (q.remove opts a).snoozed = q.snoozed := by
  unfold remove
  split
  · unfold rememberRemoved
    split_ifs <;> exact ⟨rfl, rfl⟩
  · exact ⟨rfl, rfl⟩

theorem expireDue_snoozed {k : String} (h : (q.expireDue now).2.snoozed.get k = some s) : q.snoozed.get k = some s := by
  have hfilter : (q.snoozed.filter fun _ s => now < s.expiresAt).get k = some s := h
  rw [OrderedMap.get_filter] at hfilter
  exact (Option.filter_eq_some_iff.1 hfilter).1

theorem apply_keyed (h : q.Keyed) (opts : QueueOpts) (e : QueueEvent) : (q.apply opts e).Keyed := by
  cases e with
  | enqueue a z now now' => exact enqueue_keyed h opts a z now now'
  | next now | getAll now | getDepth asked now => exact restore_keyed h _
  | skip a =>
    simp only [AttentionQueue.apply, skip]
    split
    · rename_i entry hentry
      refine h.of_maps (fun a' e' hget => ?_) fun _ _ hget => .inl hget
      rcases get_set_some hget with ⟨rfl, rfl⟩ | ⟨-, hold⟩
      · exact .inr (h.entries a entry hentry)
      · exact .inl hold
    · exact h
  | snooze a d reason fallback now =>
    rcases snooze_cases q opts a d reason fallback now with heq | ⟨s, -, hkey, -, -, hentries, hsnoozed⟩
    · rw [AttentionQueue.apply, heq]
      exact h
    · refine h.of_maps (fun a e hget => ?_) fun k s' hget => ?_
      · rw [AttentionQueue.apply, hentries] at hget
        exact .inl (get_delete_some hget).2
      · rw [AttentionQueue.apply, hsnoozed] at hget
        rcases get_set_some hget with ⟨rfl, rfl⟩ | ⟨-, hold⟩
        · exact .inr hkey
        · exact .inl hold
  | cancelSnooze a r =>
    simp only [AttentionQueue.apply, cancelSnooze]
    split
    · exact h
    · refine h.of_maps (fun a' e' hget => ?_) fun _ _ hget => .inl (get_delete_some hget).2
      split at hget
      · rcases get_set_some hget with ⟨rfl, rfl⟩ | ⟨-, hold⟩
        · exact .inr rfl
        · exact .inl hold
      · exact .inl hget
  | remove a =>
    obtain ⟨hentries, hsnoozed⟩ := remove_entries q opts a
    refine h.of_maps (fun a' e' hget => ?_) fun k s hget => ?_
    · rw [AttentionQueue.apply, hentries] at hget
      exact .inl (get_delete_some hget).2
    · rw [AttentionQueue.apply, hsnoozed] at hget
      exact .inl hget
  | purge a => exact h.of_maps (fun _ _ hget => .inl (get_delete_some hget).2) fun _ _ hget => .inl hget
  | purgeTask key => exact h.of_maps (fun _ _ hget => .inl hget) fun _ _ hget => .inl (get_delete_some hget).2
  | importSnoozed entries =>
    induction entries generalizing q with
    | nil => exact h
    | cons entry entries ih => exact ih (importOne_keyed h entry)
  | respondAndAdvance a now => exact restore_keyed (delete_entry_keyed h a) now
  | peek a now => exact h
  | expireDue asked now =>
    exact h.of_maps (fun _ _ hget => .inl hget) fun k s hget => .inl (expireDue_snoozed hget)
  | clear => exact h.of_maps (fun _ _ hget => by cases hget) fun _ _ hget => by cases hget

theorem initial_keyed : initial.Keyed := by
  refine ⟨fun a e hget => ?_, fun k s hget => ?_⟩
  · cases hget
  · cases hget

def oneTask : QueueOpts := ⟨fun _ => some "task", 512⟩

def waiting (agentId : String) : Anomaly := ⟨agentId, .needsInput, .warning, "waiting for input", 0, none, ""⟩

end AttentionQueue

end Kookr.Core
