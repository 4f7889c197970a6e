import Kookr.Spec.Core.IdempotencyLedger

/-! What the operations of the ledger do to its entries. Expiry and eviction take finalized entries
away and touch nothing else. -/

namespace Kookr.Core.IdempotencyLedger

open Kookr.Lib OrderedMap

variable {runtime : LedgerRuntime} {ledger ledger' ledger'' : IdempotencyLedger} {key : String} {now : Timestamp}
  {entry : FinalizedState}

theorem mem_finalized : (key, entry) ∈ ledger.finalized ↔ ledger.state.get key = some (.finalized entry) := by
  rw [get_eq_some_iff]
  unfold finalized
  rw [List.mem_filterMap]
  constructor
  · rintro ⟨⟨key', state⟩, hmem, hsome⟩
    cases state with
    | pending createdAtMs promise => cases hsome
    | finalized entry' => cases hsome; exact hmem
  · exact fun hmem => ⟨_, hmem, rfl⟩

theorem nodup_finalized (ledger : IdempotencyLedger) : (ledger.finalized.map Prod.fst).Nodup :=
  ledger.state.nodup.sublist (keys_filterMap_sublist _ _)

/-- Some finalized entries are gone. -/
def Shrinks (ledger ledger' : IdempotencyLedger) : Prop :=
  ∀ key, ledger'.state.get key = ledger.state.get key ∨
    ∃ entry, ledger.state.get key = some (.finalized entry) ∧ ledger'.state.get key = none

theorem Shrinks.refl (ledger : IdempotencyLedger) : Shrinks ledger ledger := fun _ => .inl rfl

theorem Shrinks.trans (h : Shrinks ledger ledger') (h' : Shrinks ledger' ledger'') : Shrinks ledger ledger'' := by
  intro key
  rcases h' key with heq | ⟨entry, hget, hnone⟩
  · rw [heq]
    exact h key
  · rcases h key with heq | ⟨_, _, hnone'⟩
    · exact .inr ⟨entry, heq.symm.trans hget, hnone⟩
    · rw [hnone'] at hget
      cases hget

theorem Shrinks.pending {createdAtMs : Timestamp} {promise : ℕ} (h : Shrinks ledger ledger') :
    ledger'.state.get key = some (.pending createdAtMs promise) ↔ ledger.state.get key = some (.pending createdAtMs promise) := by
  rcases h key with heq | ⟨entry, hget, hnone⟩
  · rw [heq]
  · rw [hget, hnone]
    simp

theorem Shrinks.finalized (h : Shrinks ledger ledger') (hget : ledger'.state.get key = some (.finalized entry)) :
    ledger.state.get key = some (.finalized entry) := by
  rcases h key with heq | ⟨_, _, hnone⟩
  · rwa [← heq]
  · rw [hnone] at hget
    cases hget

theorem get_compactExpired_finalized (hget : ledger.state.get key = some (.finalized entry)) :
    (ledger.compactExpired now).2.state.get key =
      if isExpired ledger.ttlMs now entry then none else some (.finalized entry) := by
  simp only [compactExpired]
  rw [get_filter, hget]
  cases hexpired : isExpired ledger.ttlMs now entry <;> simp [isStale, hexpired]

theorem shrinks_compactExpired : Shrinks ledger (ledger.compactExpired now).2 := by
  intro key
  cases hget : ledger.state.get key with
  | none =>
    left
    simp only [compactExpired]
    rw [get_filter, hget]
    rfl
  | some state =>
    cases state with
    | pending createdAtMs promise =>
      left
      simp only [compactExpired]
      rw [get_filter, hget]
      rfl
    | finalized entry =>
      rw [get_compactExpired_finalized hget]
      cases isExpired ledger.ttlMs now entry with
      | true => exact .inr ⟨entry, rfl, rfl⟩
      | false => exact .inl rfl

theorem shrinks_compactBySize : Shrinks ledger (ledger.compactBySize runtime).2 := by
  intro key
  unfold compactBySize
  split
  · exact .inl rfl
  · rw [get_filter]
    by_cases hmem : key ∈ (ledger.evicted runtime).map Prod.fst
    · obtain ⟨⟨key', entry⟩, he, rfl⟩ := List.mem_map.1 hmem
      have hfinal := mem_finalized.1 ((List.mem_insertionSort _).1 (List.mem_of_mem_take he))
      refine .inr ⟨entry, hfinal, ?_⟩
      rw [hfinal, Option.filter_some]
      simpa using hmem
    · left
      cases ledger.state.get key with
      | none => rfl
      | some state =>
        simpa using hmem

theorem shrinks_delete (hget : ledger.state.get key = some (.finalized entry)) : Shrinks ledger (ledger.delete key) := by
  intro k
  unfold delete
  rw [get_delete]
  split
  · rename_i hk
    exact .inr ⟨entry, hk ▸ hget, rfl⟩
  · exact .inl rfl

theorem shrinks_configure {ttlMs maxEntries : ℕ} : Shrinks ledger (ledger.configure runtime now ttlMs maxEntries).2 := by
  have hexpired : Shrinks ledger (compactExpired { ledger with ttlMs, maxEntries } now).2 := shrinks_compactExpired
  exact hexpired.trans shrinks_compactBySize

/-- Keys are compared by their characters, and only the format of `toISOString` is read. -/
def isoRuntime : LedgerRuntime where
  localeCompare a b := if a < b then -1 else if b < a then 1 else 0
  dateParse text := IsoDate.dateParse text.toList
  dateParse_toISOString t := by rw [String.toList_ofList, IsoDate.dateParse_toISOString]

end Kookr.Core.IdempotencyLedger

/-! What is read back of a ledger's file, and how many entries a ledger has. The file has every
finalized entry but one under `__proto__`, and of those the reader drops the ones without a task. -/

namespace Kookr.Core.IdempotencyLedger

open Kookr.Lib

variable {runtime : LedgerRuntime} {ledger ledger' : IdempotencyLedger} {key : String} {now : Timestamp}
  {entry : FinalizedState}

theorem perm_ownEntries (properties : OrderedMap String Json) : (ownEntries properties).Perm properties.entries := by
  have hnone : (fun e : String × Json => (arrayIndex e.1).isNone) = fun e => !(arrayIndex e.1).isSome := by
    funext e
    cases arrayIndex e.1 <;> rfl
  unfold ownEntries
  rw [hnone]
  exact ((List.perm_insertionSort _ _).append_right _).trans (List.filter_append_perm _ _)

theorem mem_ownEntries {properties : OrderedMap String Json} {value : Json} :
    (key, value) ∈ ownEntries properties ↔ properties.get key = some value :=
  (perm_ownEntries properties).mem_iff.trans (OrderedMap.get_eq_some_iff properties key value).symm

theorem nodup_ownEntries (properties : OrderedMap String Json) : ((ownEntries properties).map Prod.fst).Nodup :=
  ((perm_ownEntries properties).map Prod.fst).nodup_iff.2 properties.nodup

theorem toString_injective {m n : ℕ} (h : toString m = toString n) : m = n := by
  have hdigits : Nat.toDigits 10 m = Nat.toDigits 10 n := String.ofList_injective h
  rw [← Nat.ofDigitChars_ten_toDigits (n := m), hdigits, Nat.ofDigitChars_ten_toDigits]

theorem nodup_objectEntries (value : Json) : ((objectEntries value).map Prod.fst).Nodup := by
  unfold objectEntries
  split
  · exact nodup_ownEntries _
  · rename_i items
    have hkeys : (items.zipIdx.map fun x => ((toString x.2, x.1) : String × Json)).map Prod.fst =
        (List.range' 0 items.length).map toString := by
      rw [List.map_map, ← List.zipIdx_map_snd, List.map_map]
      rfl
    rw [hkeys]
    exact (List.nodup_range').map fun _ _ h => toString_injective h
  · exact List.nodup_nil

theorem mem_objectEntries {properties : OrderedMap String Json} {value : Json} :
    (key, value) ∈ objectEntries (.obj (ownEntries properties)) ↔ properties.get key = some value := by
  unfold objectEntries
  rw [mem_ownEntries]
  constructor
  · intro hget
    rcases OrderedMap.get_foldl_set_cases Prod.fst Prod.snd hget with ⟨e, he, rfl, rfl⟩ | hempty
    · exact mem_ownEntries.1 he
    · cases hempty
  · intro hget
    exact OrderedMap.get_foldl_set_of_mem Prod.fst Prod.snd (nodup_ownEntries properties) (mem_ownEntries.2 hget) _

theorem readEntry_entryJson (runtime : LedgerRuntime) (entry : FinalizedState) :
    readEntry runtime (entryJson entry) = if entry.taskId ≠ "" then some entry else none := by
  obtain ⟨createdAtMs, taskId, duplicate⟩ := entry
  have hlength : taskId.length > 0 ↔ taskId ≠ "" := by
    rw [gt_iff_lt, Nat.pos_iff_ne_zero, ne_eq, String.length_eq_zero_iff]
  cases duplicate <;>
    simp [readEntry, entryJson, Json.textAt, Json.date, opt, runtime.dateParse_toISOString, hlength]

variable {entries : List (String × FinalizedState)}

theorem get_properties {value : Json} (hn : (entries.map Prod.fst).Nodup) :
    (entries.foldl (fun properties e => assign properties e.1 (entryJson e.2)) .empty).get key = some value ↔
      key ≠ "__proto__" ∧ ∃ entry, (key, entry) ∈ entries ∧ entryJson entry = value := by
  have hfill : entries.foldl (fun properties e => assign properties e.1 (entryJson e.2)) .empty =
      (entries.filter fun e => e.1 ≠ "__proto__").foldl
        (fun properties e => properties.set e.1 (entryJson e.2)) .empty := by
    rw [List.foldl_filter]
    congr 1
    funext properties e
    by_cases hproto : e.1 = "__proto__" <;> simp [assign, hproto]
  rw [hfill]
  constructor
  · intro hget
    rcases OrderedMap.get_foldl_set_cases Prod.fst (fun e => entryJson e.2) hget with ⟨e, he, rfl, rfl⟩ | hempty
    · obtain ⟨hmem, hproto⟩ := List.mem_filter.1 he
      exact ⟨by simpa using hproto, e.2, hmem, rfl⟩
    · cases hempty
  · rintro ⟨hproto, entry, hmem, rfl⟩
    have hkept : (key, entry) ∈ entries.filter fun e => e.1 ≠ "__proto__" := List.mem_filter.2 ⟨hmem, by simpa using hproto⟩
    exact OrderedMap.get_foldl_set_of_mem Prod.fst (fun e => entryJson e.2)
      (hn.sublist (List.filter_sublist.map Prod.fst)) hkept _

theorem mem_readFile_fileText (hn : (entries.map Prod.fst).Nodup) : (key, entry) ∈ readFile runtime (some (fileText entries)) ↔
      (key, entry) ∈ entries ∧ key ≠ "__proto__" ∧ entry.taskId ≠ "" := by
  have hversion : ∀ members : List (String × Json), (((Json.obj [("schemaVersion", .num (.ofInt SCHEMA_VERSION)),
      ("entries", .obj members)]).get "schemaVersion").bind Json.asNum).bind NumLit.toInt = some SCHEMA_VERSION := by
    simp [NumLit.toInt_ofInt]
  have hentries : ∀ members : List (String × Json), (Json.obj [("schemaVersion", .num (.ofInt SCHEMA_VERSION)),
      ("entries", .obj members)]).get "entries" = some (.obj members) := by
    simp
  unfold readFile fileText
  rw [Option.bind_some, Json.parse_stringify]
  dsimp only
  rw [if_pos (hversion _), List.mem_filterMap]
  constructor
  · rintro ⟨⟨key', value⟩, hmem, hread⟩
    obtain ⟨hproto, entry', hentry', rfl⟩ := (get_properties hn).1 (mem_objectEntries.1 hmem)
    rw [readEntry_entryJson] at hread
    split at hread
    · rename_i htask
      cases hread
      exact ⟨hentry', hproto, htask⟩
    · cases hread
  · rintro ⟨hmem, hproto, htask⟩
    refine ⟨(key, entryJson entry), mem_objectEntries.2 ((get_properties hn).2 ⟨hproto, entry, hmem, rfl⟩), ?_⟩
    rw [readEntry_entryJson, if_pos htask]
    rfl

theorem nodup_readFile (runtime : LedgerRuntime) (file : Option (List Char)) : ((readFile runtime file).map Prod.fst).Nodup := by
  unfold readFile
  split
  · exact List.nodup_nil
  · rename_i loaded _
    split
    · refine List.Nodup.sublist (OrderedMap.keys_filterMap_sublist _ _) ?_
      cases loaded.get "entries" with
      | none => exact List.nodup_nil
      | some value => exact nodup_objectEntries value
    · exact List.nodup_nil

theorem length_finalized_le (h : ∀ key entry, ledger.state.get key = some (.finalized entry) → (key, entry) ∈ entries) :
    ledger.finalized.length ≤ entries.length :=
  (List.subperm_of_subset (nodup_finalized ledger).of_map fun e he => h e.1 e.2 (mem_finalized.1 he)).length_le

theorem length_le_finalized (hn : (entries.map Prod.fst).Nodup)
    (h : ∀ key entry, (key, entry) ∈ entries → ledger.state.get key = some (.finalized entry)) :
    entries.length ≤ ledger.finalized.length :=
  (List.subperm_of_subset hn.of_map fun e he => mem_finalized.2 (h e.1 e.2 he)).length_le

theorem compactBySize_of_fits (h : ledger.finalized.length ≤ ledger.maxEntries) :
    ledger.compactBySize runtime = (0, ledger) := if_pos h

theorem fits_of_compactBySize (h : (ledger.compactBySize runtime).1 = 0) : ledger.finalized.length ≤ ledger.maxEntries := by
  unfold compactBySize at h
  split at h
  · assumption
  · omega

theorem maxEntries_compactBySize : (ledger.compactBySize runtime).2.maxEntries = ledger.maxEntries := by
  unfold compactBySize
  split <;> rfl

theorem length_compactBySize : (ledger.compactBySize runtime).2.finalized.length ≤ ledger.maxEntries := by
  unfold compactBySize
  split
  · assumption
  · have hlength : ((ledger.finalized.insertionSort (evictsBefore runtime)).drop
        (ledger.finalized.length - ledger.maxEntries)).length = ledger.maxEntries := by
      rw [List.length_drop, List.length_insertionSort]
      omega
    refine le_of_le_of_eq (length_finalized_le fun key entry hget => ?_) hlength
    rw [OrderedMap.get_filter, Option.filter_eq_some_iff] at hget
    obtain ⟨hget, hkept⟩ := hget
    have hmem := (List.mem_insertionSort (evictsBefore runtime)).2 (mem_finalized.2 hget)
    rw [← List.take_append_drop (ledger.finalized.length - ledger.maxEntries)
      (ledger.finalized.insertionSort (evictsBefore runtime)), List.mem_append] at hmem
    rcases hmem with hevicted | hdrop
    · have hkey : key ∈ (ledger.evicted runtime).map Prod.fst := List.mem_map.2 ⟨(key, entry), hevicted, rfl⟩
      simp [hkey] at hkept
    · exact hdrop

variable {file : Option (List Char)} {ttlMs maxEntries : ℕ} {state : LedgerState}

theorem get_freshState : (freshState ttlMs now (readFile runtime file)).get key = some state ↔
      ∃ entry, state = .finalized entry ∧ (key, entry) ∈ readFile runtime file ∧ isExpired ttlMs now entry = false := by
  constructor
  · intro hget
    rcases OrderedMap.get_foldl_set_cases Prod.fst (fun e => LedgerState.finalized e.2) hget with ⟨e, he, rfl, rfl⟩ | hempty
    · obtain ⟨hmem, hfresh⟩ := List.mem_filter.1 he
      exact ⟨e.2, rfl, hmem, by simpa using hfresh⟩
    · cases hempty
  · rintro ⟨entry, rfl, hmem, hfresh⟩
    have hkept : (key, entry) ∈ (readFile runtime file).filter fun e => !isExpired ttlMs now e.2 :=
      List.mem_filter.2 ⟨hmem, by simp [hfresh]⟩
    exact OrderedMap.get_foldl_set_of_mem Prod.fst (fun e => LedgerState.finalized e.2)
      ((nodup_readFile runtime file).sublist (List.filter_sublist.map Prod.fst)) hkept _

theorem get_load_of_none (h : (load runtime file ttlMs maxEntries now).1 = 0) :
    (load runtime file ttlMs maxEntries now).2.state.get key = some (.finalized entry) ↔
      (key, entry) ∈ readFile runtime file := by
  have hfresh := List.countP_eq_zero.1 (Nat.eq_zero_of_add_eq_zero_right h)
  have hsize : (compactBySize runtime ⟨ttlMs, maxEntries, freshState ttlMs now (readFile runtime file)⟩).1 = 0 :=
    Nat.eq_zero_of_add_eq_zero_left h
  unfold load
  dsimp only
  rw [compactBySize_of_fits (fits_of_compactBySize hsize), get_freshState]
  constructor
  · rintro ⟨entry', heq, hmem, -⟩
    cases heq
    exact hmem
  · exact fun hmem => ⟨entry, rfl, hmem, by simpa using hfresh _ hmem⟩

theorem get_load (hfits : ((readFile runtime file).filter fun e => !isExpired ttlMs now e.2).length ≤ maxEntries) :
    (load runtime file ttlMs maxEntries now).2.state.get key = some state ↔
      ∃ entry, state = .finalized entry ∧ (key, entry) ∈ readFile runtime file ∧ isExpired ttlMs now entry = false := by
  unfold load
  dsimp only
  rw [compactBySize_of_fits]
  · exact get_freshState
  · refine (length_finalized_le fun key entry hget => ?_).trans hfits
    obtain ⟨entry', heq, hmem, hfresh⟩ := get_freshState.1 hget
    cases heq
    exact List.mem_filter.2 ⟨hmem, by simp [hfresh]⟩

theorem reserveOrWait_replay {promise : ℕ} (hget : ledger.state.get key = some (.finalized entry))
    (hfresh : isExpired ledger.ttlMs now entry = false) :
    (ledger.reserveOrWait now promise key).1 = .replay entry.taskId entry.duplicate := by
  unfold reserveOrWait
  dsimp only
  rw [get_compactExpired_finalized hget, hfresh]
  rfl

theorem reserveOrWait_own {promise : ℕ} (hpending : ∀ t r, ledger.state.get key ≠ some (.pending t r))
    (hstale : ∀ entry, ledger.state.get key = some (.finalized entry) → isExpired ledger.ttlMs now entry = true) :
    (ledger.reserveOrWait now promise key).1 = .own := by
  have hshrinks : Shrinks ledger (ledger.compactExpired now).2 := shrinks_compactExpired
  have hnone : (ledger.compactExpired now).2.state.get key = none := by
    cases hget : (ledger.compactExpired now).2.state.get key with
    | none => rfl
    | some state =>
      cases state with
      | pending t r => exact absurd (hshrinks.pending.1 hget) (hpending t r)
      | finalized entry =>
        have hold := hshrinks.finalized hget
        rw [get_compactExpired_finalized hold, hstale entry hold] at hget
        cases hget
  unfold reserveOrWait
  dsimp only
  rw [hnone]

end Kookr.Core.IdempotencyLedger
