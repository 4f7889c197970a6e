import Kookr.Spec.Realtime.ClientStore
import Kookr.Lib.JsonRoundtrip
import Mathlib.Data.List.Infix

/-! The JSON of a row or of a list of relations tells it apart from every other. -/

namespace Kookr.Realtime

open Kookr.Lib List

/-- An optional member can be read back where nothing after it has its name. -/
theorem opt_append_inj {k : String} {v v' : Option Json} {l l' : List (String × Json)}
    (hl : ∀ m ∈ l, m.1 ≠ k) (hl' : ∀ m ∈ l', m.1 ≠ k) (h : opt k v ++ l = opt k v' ++ l') : v = v' ∧ l = l' := by
  cases v with
  | none =>
    cases v' with
    | none => exact ⟨rfl, h⟩
    | some j =>
      have hmem : (k, j) ∈ l := by
        have hl : l = (k, j) :: l' := h
        rw [hl]
        exact mem_cons_self
      exact absurd rfl (hl _ hmem)
  | some j =>
    cases v' with
    | none =>
      have hmem : (k, j) ∈ l' := by
        have hl : (k, j) :: l = l' := h
        rw [← hl]
        exact mem_cons_self
      exact absurd rfl (hl' _ hmem)
    | some j' =>
      have hcons : (k, j) :: l = (k, j') :: l' := h
      simp only [cons.injEq, Prod.mk.injEq, true_and] at hcons
      exact ⟨congrArg some hcons.1, hcons.2⟩

theorem mem_opt {k : String} {v : Option Json} {m : String × Json} (h : m ∈ opt k v) : m.1 = k := by
  obtain ⟨j, -, rfl⟩ := mem_map.1 h
  rfl

theorem map_str_injective : Function.Injective (Option.map Json.str) :=
  Option.map_injective fun _ _ h => Json.str.inj h

namespace AgentState

theorem rest_ne (a : AgentState) {k : String} (hk : k ∈ named) : ∀ m ∈ a.rest, m.1 ≠ k := by
  rintro m hm rfl
  exact a.rest_named m hm hk

theorem toJson_injective : Function.Injective toJson := by
  intro a b h
  have hmembers := Json.obj.inj h
  simp only [cons_append, nil_append, cons.injEq, Prod.mk.injEq, true_and, Json.str.injEq,
    Json.arr.injEq] at hmembers
  obtain ⟨hid, hevents, htail⟩ := hmembers
  have hmeta : ∀ (a : AgentState) {k : String}, k ∈ named → k ≠ "activityMeta" →
      ∀ m ∈ opt "activityMeta" a.activityMeta ++ a.rest, m.1 ≠ k := by
    intro a k hk hne m hm
    rcases mem_append.1 hm with hm | hm
    · rw [mem_opt hm]
      exact Ne.symm hne
    · exact a.rest_ne hk m hm
  have hproject : ∀ a : AgentState, ∀ m ∈ opt "projectId" (a.projectId.map .str) ++
      (opt "activityMeta" a.activityMeta ++ a.rest), m.1 ≠ "taskId" := by
    intro a m hm
    rcases mem_append.1 hm with hm | hm
    · rw [mem_opt hm]
      decide
    · exact hmeta a (by decide) (by decide) m hm
  obtain ⟨htask, htail⟩ := opt_append_inj (hproject a) (hproject b) htail
  obtain ⟨hpid, htail⟩ := opt_append_inj (hmeta a (by decide) (by decide)) (hmeta b (by decide) (by decide)) htail
  obtain ⟨hact, hrest⟩ := opt_append_inj (a.rest_ne (by decide)) (b.rest_ne (by decide)) htail
  exact AgentState.ext hid hevents (map_str_injective htask) (map_str_injective hpid) hact hrest

theorem json_inj {a b : AgentState} : a.json = b.json ↔ a = b :=
  ⟨fun h => toJson_injective (Json.stringify_injective h), fun h => h ▸ rfl⟩

end AgentState

theorem TaskRelation.toJson_injective : Function.Injective TaskRelation.toJson := by
  intro a b h
  have hmembers := Json.obj.inj h
  cases a
  simp_all

theorem relationsJson_inj {a b : List TaskRelation} : relationsJson a = relationsJson b ↔ a = b := by
  refine ⟨?_, fun h => h ▸ rfl⟩
  intro h
  have hitems := Json.arr.inj (Json.stringify_injective h)
  exact map_injective_iff.2 TaskRelation.toJson_injective hitems

theorem relationsEqual_iff {a b : Option (List TaskRelation)} : relationsEqual a b = true ↔ a = b := by
  unfold relationsEqual
  split
  · simp
  · rw [Option.some.injEq]
    split
    · rename_i hlen
      simp only [Bool.false_eq_true, false_iff]
      rintro rfl
      exact hlen rfl
    · rw [decide_eq_true_eq, relationsJson_inj]
  · rename_i hnone hsome
    simp only [Bool.false_eq_true, false_iff]
    rintro rfl
    cases a with
    | none => exact hnone rfl rfl
    | some l => exact hsome l l rfl rfl

end Kookr.Realtime

/-! Merging a row into the row it came from changes nothing: a client that receives an
unchanged row again, and one that is not sent it, hold the same row. -/

namespace Kookr.Realtime

open Kookr.Lib

section Windows

variable {β : Type} [BEq β] [LawfulBEq β]

theorem hasWindow_iff {existing incoming : List β} : hasWindow existing incoming = true ↔ existing <:+: incoming := by
  unfold hasWindow
  rw [List.any_eq_true]
  constructor
  · rintro ⟨tail, htail, hp⟩
    exact (List.isPrefixOf_iff_prefix.1 hp).isInfix.trans ((List.mem_tails _ _).1 htail).isInfix
  · rintro ⟨before, after, rfl⟩
    refine ⟨existing ++ after, ?_, ?_⟩
    · rw [List.mem_tails, List.append_assoc]
      exact List.suffix_append _ _
    · exact List.isPrefixOf_iff_prefix.2 (List.prefix_append _ _)

end Windows

theorem eventKey_injective : Function.Injective eventKey := Json.stringify_injective

theorem overlapUpTo_le (existing incoming : List (List Char)) (n : ℕ) : overlapUpTo existing incoming n ≤ n := by
  induction n with
  | zero => exact le_rfl
  | succ n ih =>
    unfold overlapUpTo
    split
    · exact le_rfl
    · exact le_trans ih (Nat.le_succ n)

theorem overlapUpTo_spec (existing incoming : List (List Char)) (n : ℕ) :
    existing.drop (existing.length - overlapUpTo existing incoming n) = incoming.take (overlapUpTo existing incoming n) := by
  induction n with
  | zero => simp [overlapUpTo]
  | succ n ih =>
    unfold overlapUpTo
    split
    · assumption
    · exact ih

theorem overlapUpTo_eq {existing incoming : List (List Char)} {n : ℕ}
    (h : existing.drop (existing.length - n) = incoming.take n) : overlapUpTo existing incoming n = n := by
  cases n with
  | zero => rfl
  | succ n =>
    unfold overlapUpTo
    rw [if_pos h]

theorem findOverlap_le (existing incoming : List Json) :
    findOverlap existing incoming ≤ existing.length ∧ findOverlap existing incoming ≤ incoming.length := by
  have h := overlapUpTo_le (existing.map eventKey) (incoming.map eventKey)
    (min existing.length incoming.length)
  exact ⟨le_trans h (min_le_left _ _), le_trans h (min_le_right _ _)⟩

/-- The overlap is a suffix of the one and a beginning of the other. -/
theorem findOverlap_spec (existing incoming : List Json) : existing.drop (existing.length - findOverlap existing incoming) =
      incoming.take (findOverlap existing incoming) := by
  have h := overlapUpTo_spec (existing.map eventKey) (incoming.map eventKey)
    (min existing.length incoming.length)
  rw [List.length_map, ← List.map_drop, ← List.map_take] at h
  exact List.map_injective_iff.2 eventKey_injective h

variable {existing incoming : List Json}

theorem findOverlap_eq (hlen : incoming.length ≤ existing.length)
    (h : existing.drop (existing.length - incoming.length) = incoming) : findOverlap existing incoming = incoming.length := by
  unfold findOverlap
  rw [min_eq_right hlen]
  apply overlapUpTo_eq
  have htake : (incoming.map eventKey).take incoming.length = incoming.map eventKey := by
    rw [← List.map_take, List.take_length]
  rw [List.length_map, ← List.map_drop, h, htake]

theorem containsSeq_of_within (h : existing <:+: incoming)
    (hne : existing ≠ []) (hseq : ∀ e ∈ incoming, (eventSeq e).isSome = true) :
    containsExistingEventSeqSubsequence existing incoming = true := by
  have hany : ∀ l : List Json, (∀ e ∈ l, (eventSeq e).isSome = true) →
      l.any (fun e => (eventSeq e).isNone) = false := by
    intro l hl
    rw [List.any_eq_false]
    intro e he
    simpa using Option.isSome_iff_ne_none.1 (hl e he)
  unfold containsExistingEventSeqSubsequence
  rw [if_neg (by simpa using hne), hany existing fun e he => hseq e (h.subset he), hany incoming hseq]
  exact hasWindow_iff.2 (h.map eventSeq)

theorem containsJson_of_within (h : existing <:+: incoming)
    (hne : existing ≠ []) : containsExistingJsonSubsequence existing incoming = true := by
  unfold containsExistingJsonSubsequence
  rw [if_neg (by simpa using hne)]
  exact hasWindow_iff.2 (h.map eventKey)

theorem mergeEvents_of_within (h : existing <:+: incoming) (hne : existing ≠ []) : mergeEvents existing incoming = incoming := by
  unfold mergeEvents
  split
  · rfl
  · rename_i hseq
    rw [containsJson_of_within h hne]
    have hincomplete : (existing.all (fun e => (eventSeq e).isSome) &&
        incoming.all fun e => (eventSeq e).isSome) = false := by
      by_contra hall
      rw [Bool.not_eq_false, Bool.and_eq_true, List.all_eq_true, List.all_eq_true] at hall
      exact hseq (containsSeq_of_within h hne hall.2)
    rw [hincomplete]
    rfl

theorem mergeEvents_of_longer (h : incoming.length < existing.length) :
    mergeEvents existing incoming = existing ++ incoming.drop (findOverlap existing incoming) := by
  have hne : existing.isEmpty = false := by
    cases existing with
    | nil => cases h
    | cons e l => rfl
  have hno : ∀ {β : Type} [BEq β] [LawfulBEq β] (f : Json → β),
      hasWindow (existing.map f) (incoming.map f) = false := by
    intro β _ _ f
    by_contra hwin
    have hle := (hasWindow_iff.1 (by simpa using hwin)).length_le
    rw [List.length_map, List.length_map] at hle
    omega
  unfold mergeEvents containsExistingEventSeqSubsequence containsExistingJsonSubsequence
  simp [hne, hno]

theorem mergeEvents_cases (existing incoming : List Json) : mergeEvents existing incoming = incoming ∨
      (findOverlap existing incoming < existing.length ∧ mergeEvents existing incoming =
          existing ++ incoming.drop (findOverlap existing incoming)) := by
  by_cases hne : existing = []
  · subst hne
    refine .inl ?_
    cases incoming with
    | nil | cons e l => rfl
  by_cases hpre : findOverlap existing incoming = existing.length
  · -- all of the old events are a beginning of the new ones
    refine .inl (mergeEvents_of_within ?_ hne)
    have hspec := findOverlap_spec existing incoming
    rw [hpre, Nat.sub_self, List.drop_zero] at hspec
    rw [hspec]
    exact (List.take_prefix _ _).isInfix
  · have hlt := lt_of_le_of_ne (findOverlap_le existing incoming).1 hpre
    unfold mergeEvents
    split
    · exact .inl rfl
    · dsimp only
      split
      · exact .inl rfl
      · exact .inr ⟨hlt, rfl⟩

theorem mergeEvents_self (events : List Json) : mergeEvents events events = events := by
  by_cases h : events = []
  · subst h; rfl
  · exact mergeEvents_of_within (List.infix_refl _) h

theorem mergeEvents_idem (existing incoming : List Json) :
    mergeEvents (mergeEvents existing incoming) incoming = mergeEvents existing incoming := by
  rcases mergeEvents_cases existing incoming with h | ⟨hlt, h⟩
  · rw [h, mergeEvents_self]
  · rw [h]
    set n := findOverlap existing incoming
    have hle : n ≤ incoming.length := (findOverlap_le existing incoming).2
    have hlen : (existing ++ incoming.drop n).length = existing.length + (incoming.length - n) := by simp
    rw [mergeEvents_of_longer (by omega)]
    have htail : (existing ++ incoming.drop n).drop ((existing ++ incoming.drop n).length - incoming.length) =
        incoming := by
      have hsub : (existing ++ incoming.drop n).length - incoming.length = existing.length - n := by omega
      rw [hsub, List.drop_append_of_le_length (by omega), findOverlap_spec existing incoming,
        List.take_append_drop]
    rw [findOverlap_eq (by omega) htail, List.drop_length, List.append_nil]

theorem mergeActivityAgent_none (a : AgentState) : mergeActivityAgent none a = a := by
  unfold mergeActivityAgent
  apply AgentState.ext <;> try rfl
  cases a.activityMeta <;> rfl

theorem mergeActivityAgent_idem (previous : Option AgentState) (a : AgentState) :
    mergeActivityAgent (some (mergeActivityAgent previous a)) a = mergeActivityAgent previous a := by
  have hevents : mergeEvents (mergeActivityEvents previous a) a.events = mergeActivityEvents previous a := by
    cases previous with
    | none => exact mergeEvents_self a.events
    | some p => exact mergeEvents_idem p.events a.events
  apply AgentState.ext <;> try rfl
  · exact hevents
  · unfold mergeActivityAgent
    cases a.activityMeta <;> rfl

end Kookr.Realtime
