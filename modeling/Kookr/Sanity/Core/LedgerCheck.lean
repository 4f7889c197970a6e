import Kookr.Spec.Core.PhaseLedger

/-! What the check of a ledger gives back: the ledger with every head in lower case, and distinct
ids. A ledger that has been checked passes again unchanged. -/

namespace Kookr.Core

open Kookr.Lib Kookr.Remote List

variable {caseMap : CaseMap}

theorem toLower_other {c : Char} (h : ¬(65 ≤ c.toNat ∧ c.toNat ≤ 90)) : c.toLower = c := by
  have hother : ¬(c.val ≥ 'A'.val ∧ c.val ≤ 'Z'.val) := fun hupper =>
    h ⟨UInt32.le_iff_toNat_le.1 hupper.1, UInt32.le_iff_toNat_le.1 hupper.2⟩
  exact dif_neg hother

theorem toNat_toLower {c : Char} (h : 65 ≤ c.toNat ∧ c.toNat ≤ 90) : c.toLower.toNat = c.toNat + 32 := by
  have hupper : c.val ≥ 'A'.val ∧ c.val ≤ 'Z'.val := ⟨UInt32.le_iff_toNat_le.2 h.1, UInt32.le_iff_toNat_le.2 h.2⟩
  have hle : c.val.toNat ≤ 90 := h.2
  have hlower : c.toLower.toNat = (c.val + 32).toNat := congrArg Char.toNat (dif_pos hupper)
  rw [hlower]
  show (c.val + 32).toNat = c.val.toNat + 32
  rw [UInt32.toNat_add]
  simp only [UInt32.reduceToNat]
  omega

theorem toLower_toLower (c : Char) : c.toLower.toLower = c.toLower := by
  by_cases h : 65 ≤ c.toNat ∧ c.toNat ≤ 90
  · refine toLower_other fun hlower => ?_
    rw [toNat_toLower h] at hlower
    omega
  · rw [toLower_other h, toLower_other h]

theorem isTrimmed_letter {c : Char} (h : 65 ≤ c.toNat ∧ c.toNat ≤ 122) : isTrimmed c = false := by
  unfold isTrimmed
  rw [Bool.eq_false_iff]
  simp only [ne_eq, Bool.or_eq_true, decide_eq_true_eq, Bool.and_eq_true, mem_cons, not_mem_nil]
  rintro ((h9 | h9 | h9 | h9 | h9 | h9 | h9 | h9 | h9 | h9 | h9 | h9 | h9 | h9 | h9) | h9) <;> omega

theorem isTrimmed_toLower (c : Char) : isTrimmed c.toLower = isTrimmed c := by
  by_cases h : 65 ≤ c.toNat ∧ c.toNat ≤ 90
  · rw [isTrimmed_letter (c := c) (by omega), isTrimmed_letter (by rw [toNat_toLower h]; omega)]
  · rw [toLower_other h]

/-- The letters of ASCII. -/
def CaseMap.ascii : CaseMap where
  lower text := String.ofList (text.toList.map Char.toLower)
  lower_lower text := by
    rw [String.toList_ofList, List.map_map]
    exact congrArg _ (List.map_congr_left fun c _ => toLower_toLower c)
  isBlank_lower text := by simp [isBlank, isTrimmed_toLower, List.all_map, Function.comp_def]

namespace PhaseLedger

variable {phase parsed : PhaseLedgerPhase} {phases parsedPhases before : List PhaseLedgerPhase} {index : ℕ}
  {ledger ledger' : PhaseLedger} {α β : Type} {ok : Bool} {message : String}

/-- The phase as a check leaves it. -/
def normal (caseMap : CaseMap) (phase : PhaseLedgerPhase) : PhaseLedgerPhase :=
  { phase with reviewHeadSha := phase.reviewHeadSha.map caseMap.lower }

theorem normal_normal (caseMap : CaseMap) (phase : PhaseLedgerPhase) :
    normal caseMap (normal caseMap phase) = normal caseMap phase := by
  simp only [normal, Option.map_map, Function.comp_def, caseMap.lower_lower]

theorem bind_eq_ok {x : Except String α} {f : α → Except String β} {b : β} :
    (x >>= f) = .ok b ↔ ∃ a, x = .ok a ∧ f a = .ok b := by
  cases x with
  | error e => exact ⟨nofun, nofun⟩
  | ok a =>
    refine ⟨fun h => ⟨a, rfl, h⟩, ?_⟩
    rintro ⟨a', ha, hf⟩
    obtain rfl := Except.ok.inj ha
    exact hf

theorem check_eq_ok {u : Unit} : check ok message = .ok u ↔ ok = true := by
  cases ok
  · exact ⟨nofun, nofun⟩
  · exact ⟨fun _ => rfl, fun _ => rfl⟩

theorem parsePhase_normal (caseMap : CaseMap) (phase : PhaseLedgerPhase) (index : ℕ) :
    parsePhase caseMap (normal caseMap phase) index = parsePhase caseMap phase index := by
  have hsha : isFilled (phase.reviewHeadSha.map caseMap.lower) = isFilled phase.reviewHeadSha := by
    cases phase.reviewHeadSha with
    | none => rfl
    | some sha => simp [isFilled, caseMap.isBlank_lower]
  unfold parsePhase normal
  simp only [hsha, Option.map_map, Function.comp_def, caseMap.lower_lower]

theorem parsePhase_eq_ok (h : parsePhase caseMap phase index = .ok parsed) : parsed = normal caseMap phase := by
  unfold parsePhase at h
  simp only [bind_eq_ok] at h
  obtain ⟨_, -, _, -, _, -, _, -, _, -, _, -, _, -, _, -, _, -, _, -, _, -, _, -, h⟩ := h
  exact (Except.ok.inj h).symm

theorem parsePhases_normal (caseMap : CaseMap) (phases : List PhaseLedgerPhase) (index : ℕ) :
    parsePhases caseMap (phases.map (normal caseMap)) index = parsePhases caseMap phases index := by
  induction phases generalizing index with
  | nil => rfl
  | cons phase phases ih => simp only [map_cons, parsePhases, parsePhase_normal, ih]

theorem parsePhases_eq_ok (h : parsePhases caseMap phases index = .ok parsedPhases) :
    parsedPhases = phases.map (normal caseMap) := by
  induction phases generalizing index parsedPhases with
  | nil => exact (Except.ok.inj h).symm
  | cons phase phases ih =>
    simp only [parsePhases, bind_eq_ok] at h
    obtain ⟨parsed, hparsed, rest, hrest, heq⟩ := h
    rw [← Except.ok.inj heq, parsePhase_eq_ok hparsed, ih hrest, map_cons]

theorem checkOrder_nodup {u : Unit} (h : checkOrder before phases = .ok u) (hbefore : (before.map (·.id)).Nodup) :
    ((before ++ phases).map (·.id)).Nodup := by
  induction phases generalizing before with
  | nil => simpa using hbefore
  | cons phase phases ih =>
    simp only [checkOrder, bind_eq_ok, check_eq_ok] at h
    obtain ⟨_, hid, _, -, _, -, hrest⟩ := h
    have hone : ((before ++ [phase]).map (·.id)).Nodup := by
      rw [map_append, nodup_append]
      refine ⟨hbefore, nodup_singleton _, fun id hmem id' hmem' => ?_⟩
      obtain ⟨other, hother, rfl⟩ := mem_map.1 hmem
      obtain rfl := mem_singleton.1 hmem'
      simpa using all_eq_true.1 hid other hother
    have := ih hrest hone
    rwa [append_assoc] at this

theorem validate_eq_ok (h : validate caseMap ledger = .ok ledger') :
    ledger' = { ledger with phases := ledger.phases.map (normal caseMap) } ∧ (ledger.phases.map (·.id)).Nodup := by
  unfold validate at h
  simp only [bind_eq_ok] at h
  obtain ⟨_, -, _, -, _, -, _, -, phases, hphases, _, horder, _, -, _, -, heq⟩ := h
  have hnormal := parsePhases_eq_ok hphases
  refine ⟨by rw [← Except.ok.inj heq, hnormal], ?_⟩
  have hnodup := checkOrder_nodup horder nodup_nil
  rwa [nil_append, hnormal, map_map] at hnodup

/-- What the gate of a chain needs of a phase that was checked. -/
structure Checked (phase : PhaseLedgerPhase) : Prop where
  reviewedAt : ∀ text, phase.reviewedAt = some text → isValidIsoTimestamp text = .ok true

theorem checkTimestamp_eq_ok {value : Option String} {u : Unit} (h : checkTimestamp value message = .ok u) :
    ∀ text, value = some text → isValidIsoTimestamp text = .ok true := by
  rintro text rfl
  simp only [checkTimestamp, bind_eq_ok, check_eq_ok] at h
  obtain ⟨ok, hok, rfl⟩ := h
  exact hok

theorem parsePhase_checked (h : parsePhase caseMap phase index = .ok parsed) : Checked parsed := by
  rw [parsePhase_eq_ok h]
  unfold parsePhase at h
  simp only [bind_eq_ok] at h
  obtain ⟨_, -, _, -, _, -, _, -, _, -, _, hreviewed, -⟩ := h
  exact ⟨checkTimestamp_eq_ok hreviewed⟩

theorem parsePhases_checked (h : parsePhases caseMap phases index = .ok parsedPhases) : ∀ phase ∈ parsedPhases, Checked phase := by
  induction phases generalizing index parsedPhases with
  | nil =>
    obtain rfl := Except.ok.inj h
    simp
  | cons phase phases ih =>
    simp only [parsePhases, bind_eq_ok] at h
    obtain ⟨parsed, hparsed, rest, hrest, heq⟩ := h
    obtain rfl := Except.ok.inj heq
    rintro other (_ | ⟨_, hother⟩)
    · exact parsePhase_checked hparsed
    · exact ih hrest other hother

theorem checkOrder_prNumbers {u : Unit} (h : checkOrder before phases = .ok u)
    (hbefore : before.Pairwise fun a b => ∀ n, a.prNumber = some n → b.prNumber ≠ some n) :
    (before ++ phases).Pairwise fun a b => ∀ n, a.prNumber = some n → b.prNumber ≠ some n := by
  induction phases generalizing before with
  | nil => simpa using hbefore
  | cons phase phases ih =>
    simp only [checkOrder, bind_eq_ok, check_eq_ok] at h
    obtain ⟨_, -, _, hpr, _, -, hrest⟩ := h
    have hone : (before ++ [phase]).Pairwise fun a b => ∀ n, a.prNumber = some n → b.prNumber ≠ some n := by
      refine pairwise_append.2 ⟨hbefore, pairwise_singleton _ _, fun a ha b hb n hn hn' => ?_⟩
      obtain rfl := mem_singleton.1 hb
      have := all_eq_true.1 ((Option.all_eq_true _ _).1 hpr n hn') a ha
      simp [hn] at this
    have := ih hrest hone
    rwa [append_assoc] at this

theorem validate_checked (h : validate caseMap ledger = .ok ledger') : (∀ phase ∈ ledger'.phases, Checked phase) ∧
    ledger'.phases.Pairwise (fun a b => ∀ n, a.prNumber = some n → b.prNumber ≠ some n) ∧ (ledger'.phases.map (·.id)).Nodup := by
  obtain ⟨heq, hnodup⟩ := validate_eq_ok h
  have hids : (ledger'.phases.map (·.id)).Nodup := by
    rw [heq]
    simpa [map_map, Function.comp_def, normal] using hnodup
  unfold validate at h
  simp only [bind_eq_ok] at h
  obtain ⟨_, -, _, -, _, -, _, -, phases, hphases, _, horder, _, -, _, -, hledger⟩ := h
  obtain rfl := Except.ok.inj hledger
  exact ⟨parsePhases_checked hphases, by simpa using checkOrder_prNumbers horder List.Pairwise.nil, hids⟩

theorem validate_normal (caseMap : CaseMap) (ledger : PhaseLedger) (phases : List PhaseLedgerPhase) :
    validate caseMap { ledger with phases := phases.map (normal caseMap) } = validate caseMap { ledger with phases } := by
  unfold validate
  simp only [parsePhases_normal, ne_eq, map_eq_nil_iff]

end PhaseLedger

end Kookr.Core
