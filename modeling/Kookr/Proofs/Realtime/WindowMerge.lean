import Kookr.Lib.Exec
import Kookr.Lib.JsonNumber
import Kookr.Sanity.Realtime.ActivityHistory

/-! What a client keeps of the windows of an event log that it is sent. A merge is right where the window holds all that the client
has, or begins within it, or right after it, and reaches as far. -/

namespace Kookr.Realtime

open Kookr.Lib List

def Before (a b : Json) : Prop := ∃ n ∈ (eventSeq a).bind NumLit.toInt, ∃ m ∈ (eventSeq b).bind NumLit.toInt, n < m

structure EventLog where
  events : List Json
  numbered : ∀ e ∈ events, ((eventSeq e).bind NumLit.toInt).isSome
  increasing : events.Pairwise Before

/-- What a client holds is in the order of the numbers, and all that it has received. -/
structure KeepsWindows (received : List AgentState) (held : List Json) : Prop where
  increasing : held.Pairwise Before
  nodup : held.Nodup
  complete : ∀ row ∈ received, row.events ⊆ held

def receiveRow (previous : Option AgentState) (incoming : AgentState) : Option (Option AgentState) :=
  some (some (mergeActivityAgent previous incoming))

/-- What the client holds is part of the window, or the window goes on from within it. -/
def Joins (log : EventLog) (previous : Option AgentState) (incoming : AgentState) : Prop :=
  ∀ row ∈ previous, row.events <:+: incoming.events ∨
    ∃ before overlap after, row.events = before ++ overlap ∧ incoming.events = overlap ++ after ∧ before ++ overlap ++ after <:+: log.events

/-- Together with what the client holds the window is part of the log. -/
def Touches (log : EventLog) (previous : Option AgentState) (incoming : AgentState) : Prop :=
  ∀ row ∈ previous, ∃ whole, whole <:+: log.events ∧ row.events <:+: whole ∧ incoming.events <:+: whole ∧ whole ⊆ row.events ++ incoming.events

variable {log : EventLog} {a b : Json} {held window before overlap after : List Json}

theorem Before.irrefl (a : Json) : ¬Before a a := by
  rintro ⟨n, hn, m, hm, hlt⟩
  cases hn.symm.trans hm
  exact absurd hlt (lt_irrefl n)

theorem Before.seq_ne (h : Before a b) : eventSeq a ≠ eventSeq b := by
  intro heq
  obtain ⟨n, hn, m, hm, hlt⟩ := h
  rw [heq] at hn
  cases hn.symm.trans hm
  exact absurd hlt (lt_irrefl n)

theorem EventLog.nodup (log : EventLog) : log.events.Nodup :=
  log.increasing.imp fun {a b} hbefore => by
    rintro rfl
    exact Before.irrefl _ hbefore

theorem overlapUpTo_max (existing incoming : List (List Char)) {n k : ℕ} (hle : k ≤ n)
    (h : existing.drop (existing.length - k) = incoming.take k) : k ≤ overlapUpTo existing incoming n := by
  induction n with
  | zero => exact hle
  | succ n ih =>
    unfold overlapUpTo
    split
    · exact hle
    · next hne =>
      refine ih (Nat.le_of_lt_succ (lt_of_le_of_ne hle ?_))
      rintro rfl
      exact hne h

theorem mergeEvents_of_joins (hheld : held = before ++ overlap) (hwindow : window = overlap ++ after)
    (hwithin : before ++ overlap ++ after <:+: log.events) : mergeEvents held window = before ++ overlap ++ after := by
  rcases eq_or_ne before [] with rfl | hne
  · rw [hheld, hwindow]
    rcases eq_or_ne overlap [] with rfl | hsome
    · cases after <;> rfl
    · exact mergeEvents_of_within (prefix_append overlap after).isInfix hsome
  have hincreasing := log.increasing.sublist hwithin.sublist
  rw [append_assoc, ← hwindow, pairwise_append] at hincreasing
  obtain ⟨-, -, hacross⟩ := hincreasing
  have hsub : held ⊆ log.events ∧ window ⊆ log.events := by
    rw [hheld, hwindow]
    exact ⟨Subset.trans (prefix_append _ after).subset hwithin.subset,
      Subset.trans (append_assoc before overlap after ▸ suffix_append before (overlap ++ after)).subset hwithin.subset⟩
  have hnumbered : ∀ e ∈ log.events, (eventSeq e).isSome := fun e he => by
    obtain ⟨n, hn⟩ := Option.isSome_iff_exists.1 (log.numbered e he)
    obtain ⟨seq, hseq, -⟩ := Option.bind_eq_some_iff.1 hn
    exact Option.isSome_iff_exists.2 ⟨seq, hseq⟩
  -- the first event that is held is not in the window, so the window does not hold all of them
  obtain ⟨first, hfirst⟩ := exists_mem_of_ne_nil before hne
  have hsearch : containsExistingEventSeqSubsequence held window = false := by
    unfold containsExistingEventSeqSubsequence
    rw [if_neg (by simp [hheld, hne])]
    split
    · rfl
    · rw [Bool.eq_false_iff, Ne, hasWindow_iff]
      intro hwithin
      obtain ⟨e, he, heq⟩ := mem_map.1 (hwithin.subset (mem_map_of_mem (hheld ▸ mem_append_left _ hfirst)))
      exact (hacross first hfirst e he).seq_ne heq.symm
  have hmerge : mergeEvents held window = held ++ window.drop (findOverlap held window) := by
    have hall : (held.all fun e => (eventSeq e).isSome) = true ∧ (window.all fun e => (eventSeq e).isSome) = true :=
      ⟨all_eq_true.2 fun e he => hnumbered e (hsub.1 he), all_eq_true.2 fun e he => hnumbered e (hsub.2 he)⟩
    simp [mergeEvents, hsearch, hall]
  have hoverlap : findOverlap held window = overlap.length := by
    refine le_antisymm ?_ (overlapUpTo_max _ _ (by simp [hheld, hwindow]) (by simp [hheld, hwindow]))
    by_contra hlonger
    have hspec := findOverlap_spec held window
    have hle := (findOverlap_le held window).1
    generalize findOverlap held window = n at hspec hle hlonger
    rw [hheld, length_append] at hspec hle
    rw [drop_append_of_le_length (by omega)] at hspec
    -- a longer overlap would begin with an event from before the window
    obtain ⟨e, tail, htail⟩ : ∃ e tail, before.drop (before.length + overlap.length - n) = e :: tail :=
      exists_cons_of_ne_nil fun hnil => by
        have hlength := congrArg length hnil
        rw [length_drop, length_nil] at hlength
        omega
    have hmem : e ∈ window.take n := by
      rw [← hspec, htail]
      exact mem_cons_self
    exact Before.irrefl e (hacross e (mem_of_mem_drop (htail ▸ mem_cons_self)) e (mem_of_mem_take hmem))
  rw [hmerge, hoverlap, hheld, hwindow, drop_left]

theorem merge_keeps {row incoming : AgentState} {received : List AgentState} (hkeeps : KeepsWindows received row.events)
    (hincoming : incoming.events <:+: log.events) (hjoins : Joins log (some row) incoming) :
    (mergeActivityAgent (some row) incoming).events <:+: log.events ∧ KeepsWindows (received ++ [incoming]) (mergeActivityAgent (some row) incoming).events := by
  have hmerged : mergeEvents row.events incoming.events <:+: log.events ∧ row.events ⊆ mergeEvents row.events incoming.events ∧
      incoming.events ⊆ mergeEvents row.events incoming.events := by
    rcases hjoins row rfl with hwithin | ⟨before, overlap, after, hheld, hwindow, hwithin⟩
    · have hmerge : mergeEvents row.events incoming.events = incoming.events := by
        rcases eq_or_ne row.events [] with hnil | hne
        · rw [hnil]
          cases incoming.events <;> rfl
        · exact mergeEvents_of_within hwithin hne
      rw [hmerge]
      exact ⟨hincoming, hwithin.subset, Subset.refl _⟩
    · rw [mergeEvents_of_joins hheld hwindow hwithin, hheld, hwindow]
      refine ⟨hwithin, subset_append_left _ _, ?_⟩
      rw [append_assoc]
      exact subset_append_right _ _
  obtain ⟨hwithin, hheld, hwindow⟩ := hmerged
  refine ⟨hwithin, log.increasing.sublist hwithin.sublist, log.nodup.sublist hwithin.sublist, fun other hother => ?_⟩
  rcases mem_append.1 hother with hold | hnew
  · exact fun e he => hheld (hkeeps.complete other hold he)
  · rw [mem_singleton.1 hnew]
    exact hwindow

def Holding (log : EventLog) (received : List AgentState) (previous : Option AgentState) : Prop :=
  (∀ row ∈ previous, row.events <:+: log.events ∧ KeepsWindows received row.events) ∧ (previous = none → received = [])

/-- Where each window that a client receives holds all that it has, or goes on from within it, the client has each event that it
was sent once, in the order of their numbers. -/
theorem windows_merge {windows : List AgentState} {row : AgentState} (hwindows : ∀ incoming ∈ windows, incoming.events <:+: log.events)
    (hjoins : StepsMeet receiveRow (Joins log) none windows) (hrun : exec receiveRow none windows = some (some row)) :
    KeepsWindows windows row.events := by
  have hstep : ∀ (past : List AgentState) (previous : Option AgentState) (incoming : AgentState) (next : Option AgentState), Holding log past previous →
      Joins log previous incoming ∧ incoming.events <:+: log.events → receiveRow previous incoming = some next → Holding log (past ++ [incoming]) next := by
    rintro past previous incoming next ⟨hheld, hnone⟩ ⟨hjoins, hincoming⟩ hstep
    cases hstep
    refine ⟨?_, nofun⟩
    rintro _ ⟨⟩
    cases previous with
    | none =>
      rw [hnone rfl, mergeActivityAgent_none]
      exact ⟨hincoming, log.increasing.sublist hincoming.sublist, log.nodup.sublist hincoming.sublist, by simp⟩
    | some row => exact merge_keeps (hheld row rfl).2 hincoming hjoins
  have hstart : Holding log [] none := ⟨fun _ hrow => (nomatch hrow), fun _ => rfl⟩
  exact ((exec_invariant_log hstep hstart (hjoins.and_forall hwindows) hrun).1 row rfl).2

def numberedEvent (n : ℤ) : Json := .obj [("eventSeq", .num (NumLit.ofInt n))]

def eventRow (events : List ℤ) : AgentState := ⟨"a", events.map numberedEvent, none, none, none, [], fun _ h => (not_mem_nil h).elim⟩

theorem seq_numberedEvent (n : ℤ) : (eventSeq (numberedEvent n)).bind NumLit.toInt = some n := NumLit.toInt_ofInt n

def threeEvents : EventLog where
  events := (eventRow [1, 2, 3]).events
  numbered := by simp [eventRow, seq_numberedEvent]
  increasing := by simp [eventRow, Before, seq_numberedEvent]

theorem windows_merge_threeEvents : ∃ row, exec receiveRow none [eventRow [2], eventRow [2, 3], eventRow [1, 2, 3]] = some (some row) ∧
    KeepsWindows [eventRow [2], eventRow [2, 3], eventRow [1, 2, 3]] row.events := by
  have hwindows : ∀ incoming ∈ [eventRow [2], eventRow [2, 3], eventRow [1, 2, 3]], incoming.events <:+: threeEvents.events := by
    simp only [mem_cons, not_mem_nil, or_false, forall_eq_or_imp, forall_eq]
    exact ⟨⟨[numberedEvent 1], [numberedEvent 3], rfl⟩, ⟨[numberedEvent 1], [], rfl⟩, infix_refl _⟩
  have hjoins : StepsMeet receiveRow (Joins threeEvents) none [eventRow [2], eventRow [2, 3], eventRow [1, 2, 3]] := by
    refine ⟨nofun, ?_⟩
    rintro _ ⟨⟩
    refine ⟨?_, ?_⟩
    · rintro _ ⟨⟩
      exact .inr ⟨[], [numberedEvent 2], [numberedEvent 3], rfl, rfl, [numberedEvent 1], [], rfl⟩
    · rintro _ ⟨⟩
      refine ⟨?_, fun _ _ => trivial⟩
      rintro _ ⟨⟩
      exact .inl ⟨[numberedEvent 1], [], rfl⟩
  exact ⟨_, rfl, windows_merge hwindows hjoins rfl⟩

/-- A window that begins earlier and ends within what is held is appended as it is. -/
theorem late_window_repeats : ¬∀ (log : EventLog) (windows : List AgentState) (row : AgentState), (∀ incoming ∈ windows, incoming.events <:+: log.events) →
    StepsMeet receiveRow (Touches log) none windows → exec receiveRow none windows = some (some row) → KeepsWindows windows row.events := by
  intro h
  have hkeeps := h threeEvents [eventRow [2, 3], eventRow [1, 2]] _ (by
    simp only [mem_cons, not_mem_nil, or_false, forall_eq_or_imp, forall_eq]
    exact ⟨⟨[numberedEvent 1], [], rfl⟩, [], [numberedEvent 3], rfl⟩) ⟨nofun, by
      rintro _ ⟨⟩
      refine ⟨?_, fun _ _ => trivial⟩
      rintro _ ⟨⟩
      refine ⟨threeEvents.events, infix_refl _, ⟨[numberedEvent 1], [], rfl⟩, ⟨[], [numberedEvent 3], rfl⟩, ?_⟩
      simp [threeEvents, eventRow, mergeActivityAgent, mergeActivityEvents]⟩ rfl
  have hrepeats : mergeEvents (eventRow [2, 3]).events (eventRow [1, 2]).events = (eventRow [2, 3, 1, 2]).events := rfl
  have hnodup := hkeeps.nodup
  change (mergeEvents (eventRow [2, 3]).events (eventRow [1, 2]).events).Nodup at hnodup
  rw [hrepeats] at hnodup
  simp [eventRow] at hnodup

end Kookr.Realtime
