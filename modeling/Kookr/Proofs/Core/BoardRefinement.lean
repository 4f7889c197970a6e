import Kookr.Lib.MapRelation
import Kookr.Lib.ListAt
import Kookr.Proofs.Core.SnoozeCover
import Kookr.Spec.Core.AttentionBoard

/-! The attention queue without tasks is the board: its entries stand in the order in which
their agents came onto the board, so the stable sort shows the rows in the board's order. -/

namespace Kookr.Core

open Kookr.Lib AttentionQueue QueueEntry OrderedMap Option

def Board.position (b : Board) (a : String) : ℕ := ((b.active a).map Row.position).getD 0

/-- The entries of a queue are the rows of the board, in the order of their places. -/
structure RowsOf (entries : OrderedMap String QueueEntry) (b : Board) : Prop where
  keyed : ∀ a e, entries.get a = some e → e.agentId = a
  rows : ∀ a, (entries.get a).map (fun e => (e.anomaly, e.skipped)) =
    (b.active a).map fun row => (row.anomaly, row.skipped)
  order : entries.keys.Pairwise fun a a' => b.position a < b.position a'
  entered : ∀ a row, b.active a = some row → row.position < b.entered

variable {entries : OrderedMap String QueueEntry} {b : Board} {a : String}

section

variable (h : RowsOf entries b)
include h

theorem RowsOf.row {e : QueueEntry} (hget : entries.get a = some e) :
    ∃ row, b.active a = some row ∧ row.anomaly = e.anomaly ∧ row.skipped = e.skipped := by
  have hrow := h.rows a
  rw [hget] at hrow
  obtain ⟨row, hactive, heq⟩ := map_eq_some_iff.1 hrow.symm
  exact ⟨row, hactive, congrArg Prod.fst heq, congrArg Prod.snd heq⟩

theorem RowsOf.entry {row : Row} (hactive : b.active a = some row) : entries.get a = some ⟨a, row.anomaly, row.skipped⟩ := by
  have hrow := h.rows a
  rw [hactive] at hrow
  obtain ⟨e, hget, heq⟩ := map_eq_some_iff.1 hrow
  have hid := h.keyed a e hget
  obtain ⟨id, anomaly, skipped⟩ := e
  obtain ⟨rfl, rfl⟩ := Prod.mk.inj heq
  obtain rfl : id = a := hid
  exact hget

theorem RowsOf.entry_none (hactive : b.active a = none) : entries.get a = none := by
  have hrow := h.rows a
  rw [hactive] at hrow
  exact map_eq_none_iff.1 hrow

theorem RowsOf.mem_keys {row : Row} (hactive : b.active a = some row) : a ∈ entries.keys := by
  rw [← OrderedMap.get_isSome_iff, h.entry hactive]
  rfl

theorem RowsOf.congr {b' : Board} (hactive : b'.active = b.active) (hentered : b'.entered = b.entered) : RowsOf entries b' := by
  obtain ⟨active, hidden, count⟩ := b
  subst hactive hentered
  exact ⟨h.keyed, h.rows, h.order, h.entered⟩

omit h in
theorem active_setRow (b : Board) (a : String) (row : Option Row) (a' : String) :
    (b.setRow a row).active a' = if a' = a then row else b.active a' := rfl

omit h in
theorem position_setRow_of_ne {row : Option Row} {a' : String} (h : a' ≠ a) : (b.setRow a row).position a' = b.position a' := by
  unfold Board.position
  rw [active_setRow, if_neg h]

theorem rows_set (row : Row) (a' : String) :
    ((entries.set a ⟨a, row.anomaly, row.skipped⟩).get a').map (fun e => (e.anomaly, e.skipped)) =
      ((b.setRow a (some row)).active a').map fun row => (row.anomaly, row.skipped) := by
  rw [OrderedMap.get_set, active_setRow]
  by_cases ha : a = a'
  · rw [if_pos ha, if_pos ha.symm]
    rfl
  · rw [if_neg ha, if_neg (Ne.symm ha)]
    exact h.rows a'

theorem keyed_set (anomaly : Anomaly) (skipped : Bool) (a' : String) (e : QueueEntry)
    (hget : (entries.set a ⟨a, anomaly, skipped⟩).get a' = some e) : e.agentId = a' := by
  rw [OrderedMap.get_set] at hget
  split at hget
  · rename_i ha
    rw [← some.inj hget]
    exact ha
  · exact h.keyed a' e hget

theorem RowsOf.set_present {row : Row} (row' : Row) (hactive : b.active a = some row) (hposition : row'.position = row.position) :
    RowsOf (entries.set a ⟨a, row'.anomaly, row'.skipped⟩) (b.setRow a (some row')) := by
  have hsame : ∀ a', (b.setRow a (some row')).position a' = b.position a' := by
    intro a'
    by_cases ha : a' = a
    · subst ha
      unfold Board.position
      rw [active_setRow, if_pos rfl, hactive]
      exact hposition
    · exact position_setRow_of_ne ha
  refine ⟨keyed_set h _ _, rows_set h row', ?_, ?_⟩
  · rw [OrderedMap.keys_set_of_mem _ (h.mem_keys hactive)]
    refine h.order.imp fun hlt => ?_
    rwa [hsame, hsame]
  · intro a' row'' hrow''
    rw [active_setRow] at hrow''
    split at hrow''
    · rw [← some.inj hrow'', hposition]
      exact h.entered a row hactive
    · exact h.entered a' row'' hrow''

theorem RowsOf.set_absent (hactive : b.active a = none) (anomaly : Anomaly) : RowsOf (entries.set a ⟨a, anomaly, false⟩)
      { b.setRow a (some ⟨anomaly, false, b.entered⟩) with entered := b.entered + 1 } := by
  have hmem : a ∉ entries.keys := by
    rw [← OrderedMap.get_eq_none_iff]
    exact h.entry_none hactive
  refine ⟨keyed_set h _ _, rows_set h ⟨anomaly, false, b.entered⟩, ?_, ?_⟩
  · have hold : ∀ a' ∈ entries.keys, (b.setRow a (some ⟨anomaly, false, b.entered⟩)).position a' = b.position a' :=
      fun a' ha' => position_setRow_of_ne fun heq => hmem (heq ▸ ha')
    have hnew : (b.setRow a (some ⟨anomaly, false, b.entered⟩)).position a = b.entered := by
      unfold Board.position
      rw [active_setRow, if_pos rfl]
      rfl
    rw [OrderedMap.keys_set_of_not_mem _ hmem]
    refine List.pairwise_append.2 ⟨?_, List.pairwise_singleton _ _, ?_⟩
    · refine h.order.imp_of_mem fun {a₁ a₂} h₁ h₂ hlt => ?_
      exact (hold a₁ h₁).trans_lt (hlt.trans_eq (hold a₂ h₂).symm)
    · intro a₁ h₁ a₂ h₂
      obtain rfl := List.mem_singleton.1 h₂
      have hlt : b.position a₁ < b.entered := by
        obtain ⟨e, he⟩ := isSome_iff_exists.1 ((entries.get_isSome_iff a₁).2 h₁)
        obtain ⟨row, hrow, -⟩ := h.row he
        unfold Board.position
        rw [hrow]
        exact h.entered a₁ row hrow
      exact (hold a₁ h₁).trans_lt (hlt.trans_eq hnew.symm)
  · intro a' row hrow
    rw [active_setRow] at hrow
    split at hrow
    · rw [← some.inj hrow]
      exact Nat.lt_succ_self _
    · exact Nat.lt_succ_of_lt (h.entered a' row hrow)

theorem RowsOf.enter (a : String) (anomaly : Anomaly) : RowsOf (entries.set a ⟨a, anomaly, false⟩) (b.enter a anomaly) := by
  unfold Board.enter
  cases hactive : b.active a with
  | none => exact h.set_absent hactive anomaly
  | some row => exact h.set_present ⟨anomaly, false, row.position⟩ hactive rfl

theorem RowsOf.delete (a : String) : RowsOf (entries.delete a) (b.setRow a none) := by
  refine ⟨fun a' e hget => h.keyed a' e (get_delete_some hget).2, fun a' => ?_, ?_, ?_⟩
  · rw [OrderedMap.get_delete, active_setRow]
    by_cases ha : a = a'
    · rw [if_pos ha, if_pos ha.symm]
      rfl
    · rw [if_neg ha, if_neg (Ne.symm ha)]
      exact h.rows a'
  · have hne : ∀ a' ∈ (entries.delete a).keys, a' ≠ a := by
      intro a' ha' heq
      obtain ⟨e, he⟩ := isSome_iff_exists.1 ((OrderedMap.get_isSome_iff _ a').2 ha')
      exact (get_delete_some he).1 heq.symm
    refine (h.order.sublist (entries.keys_delete_sublist a)).imp_of_mem fun {a₁ a₂} h₁ h₂ hlt => ?_
    rwa [position_setRow_of_ne (hne a₁ h₁), position_setRow_of_ne (hne a₂ h₂)]
  · intro a' row hrow
    rw [active_setRow] at hrow
    split at hrow
    · cases hrow
    · exact h.entered a' row hrow

end

/-- A queue whose agents belong to no task. -/
def noTasks (maxLastRemoved : ℕ) : QueueOpts := ⟨fun _ => none, maxLastRemoved⟩

structure HiddenIs (k : String) (s : SnoozeEntry) (hidden : Hidden) : Prop where
  agentId : s.agentId = k
  key : s.key = k
  anomaly : s.anomaly = some hidden.anomaly
  expiresAt : s.expiresAt = hidden.expiresAt
  wakeOnChange : s.wakeOnChange = hidden.wakeOnChange

structure Shows (q : AttentionQueue) (b : Board) : Prop where
  rows : RowsOf q.entries b
  hidden : OrderedMap.Corr HiddenIs q.snoozed b.hidden

variable {q : AttentionQueue} {n : ℕ} {s : SnoozeEntry} {hidden : Hidden}

theorem Shows.initial : Shows .initial .empty := by
  refine ⟨⟨fun a e h => ?_, fun _ => rfl, List.Pairwise.nil, fun a row h => ?_⟩, .nil⟩
  · cases h
  · cases h

section

variable (h : Shows q b)
include h

variable (a : String)

theorem Shows.reveal : Shows { q with snoozed := q.snoozed.delete a } (b.reveal a) :=
  ⟨h.rows.congr rfl rfl, h.hidden.delete a⟩

omit h in
theorem Board.enter_hidden (b : Board) (a : String) (anomaly : Anomaly) : (b.enter a anomaly).hidden = b.hidden := by
  unfold Board.enter
  split <;> rfl

theorem Shows.enter (anomaly : Anomaly) :
    Shows { q with entries := q.entries.set a ⟨a, anomaly, false⟩ } (b.enter a anomaly) := by
  refine ⟨h.rows.enter a anomaly, ?_⟩
  rw [Board.enter_hidden]
  exact h.hidden

theorem Shows.enqueueActive (anomaly : Anomaly) : Shows (q.enqueueActive a anomaly) (b.see a anomaly) := by
  unfold AttentionQueue.enqueueActive Board.see
  cases hactive : b.active a with
  | none =>
    rw [h.rows.entry_none hactive]
    exact h.enter a anomaly
  | some row =>
    rw [h.rows.entry hactive]
    dsimp only
    split
    · exact ⟨h.rows.set_present { row with anomaly := { anomaly with detectedAt := row.anomaly.detectedAt } }
        hactive rfl, h.hidden⟩
    · exact h.enter a anomaly

omit h in
theorem shouldWakeSnooze_iff {k : String} (h : HiddenIs k s hidden)
    (anomaly : Anomaly) : shouldWakeSnooze s anomaly ↔ hidden.Wakes anomaly := by
  unfold shouldWakeSnooze Hidden.Wakes
  rw [h.anomaly, h.wakeOnChange]
  cases hidden.wakeOnChange <;> simp [hasSameFingerprint] <;> tauto

theorem Shows.hear {a : String} (hs : HiddenIs a s hidden)
    (anomaly : Anomaly) : Shows (q.enqueueSnoozed a a anomaly s) (b.hear a anomaly hidden) := by
  unfold enqueueSnoozed Board.hear
  by_cases hwakes : hidden.Wakes anomaly
  · rw [if_pos hwakes, if_pos ((shouldWakeSnooze_iff hs anomaly).2 hwakes)]
    exact (h.enter a anomaly).reveal a
  · rw [if_neg hwakes, if_neg fun hw => hwakes ((shouldWakeSnooze_iff hs anomaly).1 hw)]
    refine ⟨h.rows.congr rfl rfl, h.hidden.set ⟨hs.agentId, hs.key, ?_, hs.expiresAt, hs.wakeOnChange⟩⟩
    rw [hs.anomaly]
    simp only [hasSameFingerprint, decide_eq_true_eq]

theorem Shows.enqueue (anomaly : Anomaly) (now now' : ℤ) :
    Shows (q.enqueue (noTasks n) a anomaly now now') (b.enqueue a anomaly now now') := by
  have hkey : (noTasks n).snoozeKey a = a := rfl
  have hremoved : Shows { q with lastRemoved := q.lastRemoved.delete a } b := ⟨h.rows, h.hidden⟩
  unfold AttentionQueue.enqueue AttentionQueue.dropExpiredForKey Board.enqueue
  rw [hkey]
  dsimp only
  rcases h.hidden.get a with ⟨hq, hb⟩ | ⟨s, hidden, hq, hb, hs⟩
  · rw [hq, hb]
    rw [hq]
    exact hremoved.enqueueActive a anomaly
  · rw [hq, hb]
    dsimp only
    by_cases hdue : hidden.expiresAt ≤ now
    · rw [if_pos hdue, if_neg (by rw [hs.expiresAt]; exact not_lt.2 hdue)]
      rw [OrderedMap.get_delete, if_pos rfl]
      exact (hremoved.reveal a).enqueueActive a anomaly
    · rw [if_pos (by rw [hs.expiresAt]; exact not_le.1 hdue)]
      rw [hq]
      dsimp only
      rw [hs.expiresAt]
      split
      · exact hremoved.hear hs anomaly
      · exact hremoved.enqueueActive a anomaly

theorem Shows.restoreOne {k : String} (hs : HiddenIs k s hidden)
    (now : ℤ) : Shows (q.restoreOne now (k, s)) (b.restoreOne now (k, hidden)) := by
  unfold AttentionQueue.restoreOne Board.restoreOne
  rw [hs.expiresAt]
  by_cases hdue : hidden.expiresAt ≤ now
  · rw [if_pos hdue, if_neg (not_lt.2 hdue), hs.anomaly]
    dsimp only
    rw [if_pos (hs.key.trans hs.agentId.symm), hs.agentId]
    exact (h.enter k hidden.anomaly).reveal k
  · rw [if_neg hdue, if_pos (not_le.1 hdue)]
    exact h

theorem Shows.restore (now : ℤ) : Shows (q.restoreExpiredSnoozes now) (b.restore now) := by
  have haux : ∀ (l : List (String × SnoozeEntry)) (l' : List (String × Hidden)),
      List.Forall₂ (fun p p' => p.1 = p'.1 ∧ HiddenIs p.1 p.2 p'.2) l l' → ∀ (q : AttentionQueue) (b : Board),
      Shows q b → Shows (l.foldl (AttentionQueue.restoreOne now) q) (l'.foldl (Board.restoreOne now) b) := by
    intro l l' hl
    induction hl with
    | nil => exact fun _ _ h => h
    | @cons p p' l l' hp _ ih =>
      intro q b h
      obtain ⟨k, s⟩ := p
      obtain ⟨rfl, hs⟩ := hp
      exact ih _ _ (h.restoreOne hs now)
  exact haux _ _ h.hidden q b h

theorem Shows.skip : Shows (q.skip a) (b.skip a) := by
  unfold AttentionQueue.skip Board.skip
  cases hactive : b.active a with
  | none =>
    rw [h.rows.entry_none hactive]
    refine ⟨h.rows.congr ?_ rfl, h.hidden⟩
    funext a'
    rw [active_setRow]
    split
    · rename_i ha
      rw [ha, hactive]
      rfl
    · rfl
  | some row =>
    rw [h.rows.entry hactive]
    exact ⟨h.rows.set_present { row with skipped := true } hactive rfl, h.hidden⟩

theorem Shows.snooze (d : ℤ) (reason : Option String) (fallback : Option Anomaly)
    (now : ℤ) : Shows (q.snooze (noTasks n) a d reason fallback now).2 (b.snooze a d fallback now) := by
  have hanomaly : (q.entries.get a).map anomaly = (b.active a).map Row.anomaly := by
    have hrow := congrArg (Option.map Prod.fst) (h.rows.rows a)
    rwa [map_map, map_map] at hrow
  have hkey : (noTasks n).snoozeKey a = a := rfl
  unfold AttentionQueue.snooze Board.snooze
  rw [hanomaly, hkey]
  cases ((b.active a).map Row.anomaly).or fallback with
  | none =>
    simp only [isNone_none, decide_true, Bool.and_self, if_true]
    exact h
  | some anomaly =>
    exact ⟨(h.rows.delete a).congr rfl rfl, h.hidden.set ⟨rfl, rfl, rfl, rfl, rfl⟩⟩

theorem Shows.cancelSnooze (a restored : String) :
    Shows (q.cancelSnooze (noTasks n) a restored).2 (b.cancelSnooze a restored) := by
  have hkey : (noTasks n).snoozeKey a = a := rfl
  unfold AttentionQueue.cancelSnooze Board.cancelSnooze
  rw [hkey]
  rcases h.hidden.get a with ⟨hq, hb⟩ | ⟨s, hidden, hq, hb, hs⟩
  · rw [hq, hb]
    exact h
  · rw [hq, hb]
    dsimp only
    rw [hs.anomaly, hs.key]
    exact (h.enter restored { hidden.anomaly with agentId := restored }).reveal a

theorem Shows.delete : Shows { q with entries := q.entries.delete a } (b.setRow a none) :=
  ⟨h.rows.delete a, h.hidden⟩

theorem Shows.apply {e : QueueEvent} (hop : e.onBoard) : Shows (q.apply (noTasks n) e) (b.apply e) := by
  cases e with
  | enqueue a z now now' => exact h.enqueue a z now now'
  | next now | getAll now | getDepth asked now => exact h.restore _
  | skip a => exact h.skip a
  | snooze a d reason fallback now => exact h.snooze a d reason fallback now
  | cancelSnooze a restored => exact h.cancelSnooze a restored
  | remove a =>
    obtain ⟨hentries, hsnoozed⟩ := AttentionQueue.remove_entries q (noTasks n) a
    have hdelete := h.delete a
    refine ⟨?_, ?_⟩
    · rw [AttentionQueue.apply, hentries]
      exact hdelete.rows
    · rw [AttentionQueue.apply, hsnoozed]
      exact hdelete.hidden
  | purge a => exact ⟨(h.delete a).rows, h.hidden⟩
  | respondAndAdvance a now => exact (h.delete a).restore now
  | peek a now => exact h
  | purgeTask _ | importSnoozed _ | expireDue _ _ | clear => cases hop

def QueueEntry.Before (e e' : QueueEntry) : Prop := e.before e' = true

instance : DecidableRel QueueEntry.Before := fun e e' => inferInstanceAs (Decidable (e.before e' = true))

omit h in
theorem before_iff (e e' : QueueEntry) : e.before e' ↔ e.skipped = false ∧ e'.skipped = true ∨
      e.skipped = e'.skipped ∧ e.anomaly.severity.order ≤ e'.anomaly.severity.order := by
  unfold before
  cases e.skipped <;> cases e'.skipped <;> simp

instance : Std.Total QueueEntry.Before := by
  refine ⟨fun e e' => ?_⟩
  unfold QueueEntry.Before
  rw [before_iff, before_iff]
  cases e.skipped <;> cases e'.skipped <;> simp [Nat.le_total]

instance : IsTrans QueueEntry QueueEntry.Before := by
  refine ⟨fun e e' e'' h h' => ?_⟩
  unfold QueueEntry.Before at *
  rw [before_iff] at *
  grind

/-- Whether one agent's row is to be looked at before another's. -/
def Board.Precedes (b : Board) (a a' : String) : Prop :=
  ∃ row row', b.active a = some row ∧ b.active a' = some row' ∧ row.Precedes row'

theorem Shows.mem_getSorted {e : QueueEntry} :
    e ∈ q.getSorted ↔ ∃ row, b.active e.agentId = some row ∧ row.anomaly = e.anomaly ∧ row.skipped = e.skipped := by
  unfold getSorted
  rw [List.mem_insertionSort, OrderedMap.mem_values_iff]
  constructor
  · intro ⟨a, hget⟩
    obtain rfl := h.rows.keyed a e hget
    exact h.rows.row hget
  · intro ⟨row, hactive, hanomaly, hskipped⟩
    refine ⟨e.agentId, ?_⟩
    rw [h.rows.entry hactive, hanomaly, hskipped]

theorem Shows.getSorted : q.getSorted.Pairwise fun e e' => b.Precedes e.agentId e'.agentId := by
  have hvalues : q.entries.values.Pairwise fun e e' => b.position e.agentId < b.position e'.agentId := by
    have hkeys := h.rows.order
    rw [← q.entries.values_map_eq_keys agentId h.rows.keyed] at hkeys
    rw [List.pairwise_map] at hkeys
    exact hkeys
  have hsorted : q.getSorted.Pairwise fun e e' => e.Before e' ∧
      (e'.Before e → b.position e.agentId < b.position e'.agentId) :=
    pairwise_insertionSort_stable (r := QueueEntry.Before) hvalues
  refine hsorted.imp_of_mem fun {e e'} he he' hbefore => ?_
  obtain ⟨row, hactive, hanomaly, hskipped⟩ := h.mem_getSorted.1 he
  obtain ⟨row', hactive', hanomaly', hskipped'⟩ := h.mem_getSorted.1 he'
  refine ⟨row, row', hactive, hactive', ?_⟩
  unfold Board.position at hbefore
  rw [hactive, hactive'] at hbefore
  unfold QueueEntry.Before at hbefore
  rw [before_iff, before_iff, ← hanomaly, ← hanomaly', ← hskipped, ← hskipped'] at hbefore
  obtain ⟨hle, htie⟩ := hbefore
  rcases hle with hfirst | ⟨hsame, hle⟩
  · exact .inl hfirst
  · refine .inr ⟨hsame, ?_⟩
    rcases Nat.lt_or_eq_of_le hle with hlt | heq
    · exact .inl hlt
    · exact .inr ⟨heq, htie (.inr ⟨hsame.symm, heq.ge⟩)⟩

omit h in
theorem length_inspectActive : q.inspectActive.length = q.entries.size := by
  unfold inspectActive getSorted
  rw [List.length_map, List.length_insertionSort]
  exact List.length_map _

theorem Shows.inspectActive : (∀ x, x ∈ q.inspectActive ↔ ∃ row, b.active x.1 = some row ∧ row.anomaly = x.2) ∧
      (q.inspectActive.map Prod.fst).Nodup ∧ q.inspectActive.Pairwise fun x y => b.Precedes x.1 y.1 := by
  unfold AttentionQueue.inspectActive
  refine ⟨fun x => ?_, ?_, ?_⟩
  · rw [List.mem_map]
    constructor
    · intro ⟨e, he, hx⟩
      obtain ⟨row, hactive, hanomaly, -⟩ := h.mem_getSorted.1 he
      rw [← hx]
      exact ⟨row, hactive, hanomaly⟩
    · intro ⟨row, hactive, hanomaly⟩
      exact ⟨⟨x.1, x.2, row.skipped⟩, h.mem_getSorted.2 ⟨row, hactive, hanomaly, rfl⟩, rfl⟩
  · have hperm : (q.getSorted.map agentId).Perm q.entries.keys := by
      rw [← q.entries.values_map_eq_keys agentId h.rows.keyed]
      exact (List.perm_insertionSort _ _).map _
    rw [List.map_map]
    exact hperm.nodup_iff.2 q.entries.nodup_keys
  · exact List.pairwise_map.2 h.getSorted

end

/-- A cancelled snooze goes back to the agent it was asked for. -/
def QueueEvent.restoresOwn : QueueEvent → Bool
  | .cancelSnooze a restored => restored = a
  | _ => true

theorem restoresUncovered_noTasks (hkeyed : q.Keyed) (now clock : ℤ) : q.RestoresUncovered (noTasks n) now clock := by
  intro p hp _ _ hagent
  have hkey := hkeyed.snoozed p.1 p.2 ((q.snoozed.get_eq_some_iff p.1 p.2).2 hp)
  exact .inl (hagent.symm.trans hkey)

theorem covers_noTasks (hkeyed : q.Keyed) {e : QueueEvent} (hop : e.onBoard) (hown : e.restoresOwn) (clock : ℤ) :
    TimedQueue.Covers (noTasks n) ⟨q, clock⟩ e := by
  cases e with
  | snooze a d reason fallback now => exact fun _ _ b _ hne => hne
  | cancelSnooze a restored =>
    obtain rfl : restored = a := of_decide_eq_true hown
    exact fun _ _ _ => .inl rfl
  | next now | getAll now | respondAndAdvance a now | getDepth asked now =>
    exact restoresUncovered_noTasks hkeyed _ _
  | enqueue _ _ _ _ | skip _ | remove _ | purge _ | peek _ _ => trivial
  | purgeTask _ | importSnoozed _ | expireDue _ _ | clear => cases hop

theorem Board.run_concat (es : List QueueEvent) (e : QueueEvent) : Board.run (es ++ [e]) = (Board.run es).apply e := by
  unfold Board.run
  rw [List.foldl_append]
  rfl

/-- A finding for an agent on the board whose own is not hidden. -/
theorem Shows.reenqueue (h : Shows q b) {row : Row} (hactive : b.active a = some row) (z : Anomaly) (now now' : ℤ)
    (hopen : q.getSnoozedUntil (noTasks n) a now' = none) :
    ∃ row', (b.enqueue a z now now').active a = some row' ∧ row'.position = row.position ∧
      (anomalyFingerprint row.anomaly = anomalyFingerprint z →
        row'.anomaly = { z with detectedAt := row.anomaly.detectedAt } ∧ row'.skipped = row.skipped) ∧
      (anomalyFingerprint row.anomaly ≠ anomalyFingerprint z → row'.anomaly = z ∧ row'.skipped = false) := by
  have hsee : ∀ b' : Board, b'.active a = some row → ∃ row', (b'.see a z).active a = some row' ∧
      row'.position = row.position ∧
      (anomalyFingerprint row.anomaly = anomalyFingerprint z →
        row'.anomaly = { z with detectedAt := row.anomaly.detectedAt } ∧ row'.skipped = row.skipped) ∧
      (anomalyFingerprint row.anomaly ≠ anomalyFingerprint z → row'.anomaly = z ∧ row'.skipped = false) := by
    intro b' hrow
    unfold Board.see
    rw [hrow]
    dsimp only
    split
    · rename_i hsame
      exact ⟨_, (active_setRow b' a _ a).trans (if_pos rfl), rfl, fun _ => ⟨rfl, rfl⟩, fun hne => absurd hsame hne⟩
    · rename_i hne
      unfold Board.enter
      rw [hrow]
      exact ⟨_, (active_setRow b' a _ a).trans (if_pos rfl), rfl, fun hsame => absurd hsame hne, fun _ => ⟨rfl, rfl⟩⟩
  unfold Board.enqueue
  rcases h.hidden.get a with ⟨-, hb⟩ | ⟨s, hidden, hq, hb, hs⟩
  · rw [hb]
    exact hsee b hactive
  · have hdue : hidden.expiresAt ≤ now' := by
      unfold getSnoozedUntil at hopen
      rw [show (noTasks n).snoozeKey a = a from rfl, hq] at hopen
      dsimp only at hopen
      split_ifs at hopen with hle
      rwa [hs.expiresAt] at hle
    rw [hb]
    dsimp only
    split_ifs with hle hlt
    · exact hsee _ hactive
    · exact absurd hlt (not_lt.2 hdue)
    · exact hsee b hactive

/-- A queue without tasks shows the rows of its board in the board's order; a finding seen
again keeps its row's place, and nothing on the board is snoozed. -/
theorem queue_refines_board (maxLastRemoved : ℕ) (clock : ℤ) (es : List QueueEvent) (s : TimedQueue)
    (hops : ∀ e ∈ es, e.onBoard) (hrun : exec (TimedQueue.step (noTasks maxLastRemoved)) (.initial clock) es = some s) : (∀ now,
      (∀ x, x ∈ (s.queue.getAll now).1 ↔ ∃ row, ((Board.run es).restore now).active x.1 = some row ∧ row.anomaly = x.2) ∧
      ((s.queue.getAll now).1.map Prod.fst).Nodup ∧
      ((s.queue.getAll now).1.Pairwise fun x y => ((Board.run es).restore now).Precedes x.1 y.1) ∧
      (s.queue.next now).1 = (s.queue.getAll now).1.head? ∧ (s.queue.getDepth now).1 = (s.queue.getAll now).1.length) ∧
    (∀ a row z now now', (Board.run es).active a = some row → s.queue.getSnoozedUntil (noTasks maxLastRemoved) a now' = none →
      ∃ row', (Board.run (es ++ [.enqueue a z now now'])).active a = some row' ∧
        (s.queue.enqueue (noTasks maxLastRemoved) a z now now').entries.get a = some ⟨a, row'.anomaly, row'.skipped⟩ ∧
        row'.position = row.position ∧ (anomalyFingerprint row.anomaly = anomalyFingerprint z →
          row'.anomaly = { z with detectedAt := row.anomaly.detectedAt } ∧ row'.skipped = row.skipped) ∧
        (anomalyFingerprint row.anomaly ≠ anomalyFingerprint z → row'.anomaly = z ∧ row'.skipped = false)) ∧
    ((∀ e ∈ es, e.restoresOwn) → ∀ a row now, (Board.run es).active a = some row → s.clock ≤ now →
      s.queue.getSnoozedUntil (noTasks maxLastRemoved) a now = none) := by
  have hshows : Shows s.queue (Board.run es) := by
    have hpreserved : ∀ past s e s', Shows s.queue (Board.run past) → e.onBoard = true →
        TimedQueue.step (noTasks maxLastRemoved) s e = some s' → Shows s'.queue (Board.run (past ++ [e])) := by
      intro past s e s' hinv hop hstep
      rw [(TimedQueue.step_eq_some hstep).2, Board.run_concat]
      exact hinv.apply hop
    have hinitial : Shows (TimedQueue.initial clock).queue (Board.run []) := Shows.initial
    exact exec_invariant_log hpreserved hinitial (StepsMeet.of_forall hops) hrun
  refine ⟨fun now => ?_, fun a row z now now' hactive hopen => ?_, fun hown a row now hactive hnow => ?_⟩
  · obtain ⟨hmem, hnodup, horder⟩ := (hshows.restore now).inspectActive
    refine ⟨hmem, hnodup, horder, ?_, ?_⟩
    · exact List.head?_map.symm
    · exact length_inspectActive.symm
  · obtain ⟨row', hrow', hrest⟩ := hshows.reenqueue hactive z now now' hopen
    refine ⟨row', ?_, (hshows.enqueue a z now now').rows.entry hrow', hrest⟩
    rw [Board.run_concat]
    exact hrow'
  · have hpreserved : ∀ s e s', (s.queue.Keyed ∧ s.queue.Apart (noTasks maxLastRemoved) s.clock) →
        (e.onBoard = true ∧ e.restoresOwn = true) → TimedQueue.step (noTasks maxLastRemoved) s e = some s' →
        s'.queue.Keyed ∧ s'.queue.Apart (noTasks maxLastRemoved) s'.clock := by
      intro s e s' hinv hop hstep
      obtain ⟨hclock, hqueue⟩ := TimedQueue.step_eq_some hstep
      rw [hqueue]
      exact ⟨apply_keyed hinv.1 _ e,
        apply_apart hinv.1 hinv.2 hclock (covers_noTasks hinv.1 hop.1 hop.2 s.clock)⟩
    have hinitial : (TimedQueue.initial clock).queue.Apart (noTasks maxLastRemoved) clock := by
      intro a e s hentry
      cases hentry
    have hok : StepsMeet (TimedQueue.step (noTasks maxLastRemoved))
        (fun _ e => e.onBoard = true ∧ e.restoresOwn = true) (.initial clock) es :=
      StepsMeet.of_forall fun e he => ⟨hops e he, hown e he⟩
    obtain ⟨-, hapart⟩ := exec_invariant hpreserved ⟨initial_keyed, hinitial⟩ hok hrun
    unfold getSnoozedUntil
    cases hget : s.queue.snoozed.get ((noTasks maxLastRemoved).snoozeKey a) with
    | none => rfl
    | some hidden => exact if_pos (le_trans (hapart a _ hidden (hshows.rows.entry hactive) hget) hnow)

/-- A critical finding comes back from its snooze before what is less severe, and what was
skipped comes last. -/
theorem board_after_snooze : ∃ s, exec (TimedQueue.step (noTasks 512)) (.initial 0)
      [.enqueue "a" { waiting "a" with severity := .info } 1 1, .enqueue "b" { waiting "b" with severity := .critical } 2 2,
        .enqueue "c" { waiting "c" with severity := .critical } 3 3, .skip "c", .snooze "b" 10 none none 4] = some s ∧
      (s.queue.getAll 20).1.map Prod.fst = ["b", "a", "c"] ∧
      ((s.queue.getAll 20).1.map Prod.fst).Nodup ∧ (s.queue.next 20).1 = (s.queue.getAll 20).1.head? := by
  refine ⟨_, rfl, by decide +kernel, ?_⟩
  obtain ⟨hall, -, -⟩ := queue_refines_board 512 0
    [.enqueue "a" { waiting "a" with severity := .info } 1 1,
      .enqueue "b" { waiting "b" with severity := .critical } 2 2,
      .enqueue "c" { waiting "c" with severity := .critical } 3 3, .skip "c",
      .snooze "b" 10 none none 4] _ (by decide) rfl
  obtain ⟨-, hnodup, -, hnext, -⟩ := hall 20
  exact ⟨hnodup, hnext⟩

end Kookr.Core
