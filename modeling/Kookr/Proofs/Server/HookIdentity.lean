import Kookr.Lib.ListAt
import Mathlib.Data.List.Induction
import Kookr.Sanity.Server.IngestSteps

/-! The identity of a hook record across a restart. The run before the restart leaves one row for each
record; the hydration takes up the rows of recognised records, and the replay meets their entries
one after the other. -/

namespace Kookr.Server.HookIngestion

open Kookr.Lib List

variable {deps : HookIngestionDeps} {kookrSessionId : String} {s : HookIngestion} {records : List HookRecord} {record : HookRecord}
  {key : String × String} {n : ℕ}

def contents (records : List HookRecord) : List String := records.map fun record => trimText record.raw

def CollisionFree (deps : HookIngestionDeps) (texts : List String) : Prop :=
  ∀ a ∈ texts, ∀ b ∈ texts, deps.sha256 a = deps.sha256 b → a = b

def recordKey (deps : HookIngestionDeps) (kookrSessionId : String) (record : HookRecord) : String × String :=
  (kookrSessionId, contentHash deps record.raw)

/-- The rows of records that follow `n` others. -/
def rowsFrom (deps : HookIngestionDeps) (kookrSessionId : String) : ℕ → List HookRecord → List ActivityLedgerRow
  | _, [] => []
  | n, record :: records => firstRow deps (record.firstInput kookrSessionId) (n + 1) :: rowsFrom deps kookrSessionId (n + 1) records

/-- The records are of pairwise distinct contents, none of them empty. -/
structure Distinct (deps : HookIngestionDeps) (kookrSessionId : String) (records : List HookRecord) : Prop where
  nonempty : ∀ record ∈ records, trimText record.raw ≠ ""
  nodup : (records.map (recordKey deps kookrSessionId)).Nodup

theorem Distinct.of_contents (hnonempty : ∀ record ∈ records, trimText record.raw ≠ "")
    (hdistinct : (contents records).Nodup) (hcollision : CollisionFree deps (contents records)) :
    Distinct deps kookrSessionId records := by
  refine ⟨hnonempty, ?_⟩
  have hmap : records.map (recordKey deps kookrSessionId) = (contents records).map fun text => (kookrSessionId, deps.sha256 text) := by
    simp [contents, recordKey, contentHash]
  rw [hmap]
  refine (nodup_map_iff_inj_on hdistinct).2 fun a ha b hb hab => ?_
  exact hcollision a ha b hb (Prod.mk.inj hab).2

theorem Distinct.init (h : Distinct deps kookrSessionId (records ++ [record])) : Distinct deps kookrSessionId records := by
  refine ⟨fun other hother => h.nonempty other (mem_append_left _ hother), ?_⟩
  have hnodup := h.nodup
  rw [map_append] at hnodup
  exact hnodup.of_append_left

theorem Distinct.not_mem (h : Distinct deps kookrSessionId (record :: records)) :
    ∀ other ∈ records, recordKey deps kookrSessionId record ≠ recordKey deps kookrSessionId other := by
  intro other hother heq
  exact (nodup_cons.1 h.nodup).1 (heq ▸ mem_map_of_mem hother)

theorem Distinct.tail (h : Distinct deps kookrSessionId (record :: records)) : Distinct deps kookrSessionId records :=
  ⟨fun other hother => h.nonempty other (mem_cons_of_mem _ hother), (nodup_cons.1 h.nodup).2⟩

theorem rowsFrom_concat (n : ℕ) (records : List HookRecord) (record : HookRecord) :
    rowsFrom deps kookrSessionId n (records ++ [record]) =
      rowsFrom deps kookrSessionId n records ++ [firstRow deps (record.firstInput kookrSessionId) (n + records.length + 1)] := by
  induction records generalizing n with
  | nil => rfl
  | cons head records ih =>
    have hlength : n + 1 + records.length + 1 = n + (head :: records).length + 1 := by
      rw [length_cons]
      omega
    simp only [cons_append, rowsFrom, ih, hlength]

theorem ingestAll_concat (inputs : List IngestInput) (input : IngestInput) :
    s.ingestAll deps (inputs ++ [input]) = ((s.ingestAll deps inputs).ingest deps input).2 := foldl_concat _ _ _ _

theorem ingestAll_get_none {inputs : List IngestInput} (hnone : s.cache.get key = none)
    (hne : ∀ input ∈ inputs, cacheKey deps input ≠ key) : (s.ingestAll deps inputs).cache.get key = none := by
  induction inputs generalizing s with
  | nil => exact hnone
  | cons input inputs ih =>
    refine ih ?_ fun other hother => hne other (mem_cons_of_mem _ hother)
    rw [ingest_get_of_ne (by intro entry hentry; rw [hnone] at hentry; cases hentry) (hne input mem_cons_self), hnone]

theorem firstRun_get_none (h : Distinct deps kookrSessionId (records ++ [record])) :
    (firstRun deps kookrSessionId records).cache.get (recordKey deps kookrSessionId record) = none := by
  refine ingestAll_get_none rfl fun input hinput => ?_
  obtain ⟨other, hother, rfl⟩ := mem_map.1 hinput
  intro heq
  have hnodup := h.nodup
  rw [map_append, nodup_append] at hnodup
  exact hnodup.2.2 _ (mem_map_of_mem hother) _ (mem_map_of_mem mem_cons_self) heq

theorem firstRun_concat (records : List HookRecord) (record : HookRecord) : firstRun deps kookrSessionId (records ++ [record]) =
      ((firstRun deps kookrSessionId records).ingest deps (record.firstInput kookrSessionId)).2 := by
  unfold firstRun
  rw [map_append]
  exact ingestAll_concat _ _

theorem firstRun_spec (h : Distinct deps kookrSessionId records) :
    (firstRun deps kookrSessionId records).counter kookrSessionId = records.length ∧
      (firstRun deps kookrSessionId records).ledger = rowsFrom deps kookrSessionId 0 records := by
  induction records using reverseRecOn with
  | nil => exact ⟨rfl, rfl⟩
  | append_singleton records record ih =>
    obtain ⟨hcounter, hledger⟩ := ih h.init
    have hraw := h.nonempty record (mem_append_right _ mem_cons_self)
    have hget : (firstRun deps kookrSessionId records).cache.get (cacheKey deps (record.firstInput kookrSessionId)) = none :=
      firstRun_get_none h
    obtain ⟨hnext, hrow⟩ := ingest_new (record.firstInput kookrSessionId) hraw hget
    rw [firstRun_concat, rowsFrom_concat, length_append, zero_add, ← hcounter, ← hledger]
    exact ⟨hnext, hrow⟩

/-- The hydrated entries of records that are not replayed yet. -/
def Awaits (deps : HookIngestionDeps) (kookrSessionId : String) (s : HookIngestion) : ℕ → List HookRecord → Prop
  | _, [] => True
  | n, record :: records =>
    let row := firstRow deps (record.firstInput kookrSessionId) (n + 1)
    s.cache.get (recordKey deps kookrSessionId record) = (if isPrimary row then some (hydratedEntry row) else none) ∧
      Awaits deps kookrSessionId s (n + 1) records

theorem Awaits.congr {s' : HookIngestion} (h : Awaits deps kookrSessionId s n records)
    (hget : ∀ record ∈ records, Pinned s (recordKey deps kookrSessionId record) →
      s'.cache.get (recordKey deps kookrSessionId record) = s.cache.get (recordKey deps kookrSessionId record)) :
    Awaits deps kookrSessionId s' n records := by
  induction records generalizing n with
  | nil => trivial
  | cons record records ih =>
    obtain ⟨hentry, hrest⟩ := h
    refine ⟨(hget record mem_cons_self ?_).trans hentry, ih hrest fun other hother => hget other (mem_cons_of_mem _ hother)⟩
    intro entry hsome
    rw [hentry] at hsome
    split at hsome
    · cases hsome
      rfl
    · cases hsome

theorem hydrateRow_get_of_ne {row : ActivityLedgerRow} (hne : (kookrSessionId, row.envelope.contentHash) ≠ key) :
    (hydrateRow kookrSessionId s row).cache.get key = s.cache.get key := by
  unfold hydrateRow
  dsimp only
  split
  · exact OrderedMap.get_set_of_ne _ _ hne
  · rfl

theorem hydrateRows_get_of_ne (hne : ∀ record ∈ records, recordKey deps kookrSessionId record ≠ key) :
    ((rowsFrom deps kookrSessionId n records).foldl (hydrateRow kookrSessionId) s).cache.get key = s.cache.get key := by
  induction records generalizing n s with
  | nil => rfl
  | cons record records ih =>
    rw [rowsFrom, foldl_cons, ih fun other hother => hne other (mem_cons_of_mem _ hother)]
    refine hydrateRow_get_of_ne ?_
    rw [firstRow_hash]
    exact hne record mem_cons_self

theorem hydrateRows_awaits (h : Distinct deps kookrSessionId records)
    (hnone : ∀ record ∈ records, s.cache.get (recordKey deps kookrSessionId record) = none) :
    Awaits deps kookrSessionId ((rowsFrom deps kookrSessionId n records).foldl (hydrateRow kookrSessionId) s) n records := by
  induction records generalizing n s with
  | nil => trivial
  | cons record records ih =>
    have hne := h.not_mem
    have hkey : (kookrSessionId, (firstRow deps (record.firstInput kookrSessionId) (n + 1)).envelope.contentHash) =
        recordKey deps kookrSessionId record := by
      rw [firstRow_hash]
      rfl
    have hempty := hnone record mem_cons_self
    rw [rowsFrom, foldl_cons]
    refine ⟨?_, ih h.tail fun other hother => ?_⟩
    · rw [hydrateRows_get_of_ne fun other hother => (hne other hother).symm]
      unfold hydrateRow
      rw [hkey]
      cases isPrimary (firstRow deps (record.firstInput kookrSessionId) (n + 1)) with
      | false => simpa using hempty
      | true => simp [OrderedMap.has, hempty]
    · rw [hydrateRow_get_of_ne (hkey ▸ hne other hother)]
      exact hnone other (mem_cons_of_mem _ hother)

theorem maxSequence_from (n : ℕ) (records : List HookRecord) :
    (rowsFrom deps kookrSessionId n records).foldl (fun highest row => max highest row.envelope.sequence) n = n + records.length := by
  induction records generalizing n with
  | nil => rfl
  | cons record records ih =>
    rw [rowsFrom, foldl_cons, firstRow_sequence, max_eq_right (Nat.le_succ n), ih, length_cons]
    omega

theorem rowsFrom_session {row : ActivityLedgerRow} (h : row ∈ rowsFrom deps kookrSessionId n records) :
    row.envelope.kookrSessionId = kookrSessionId ∧ row.envelope.sequence ≤ n + records.length := by
  induction records generalizing n with
  | nil => cases h
  | cons record records ih =>
    rw [length_cons]
    rcases mem_cons.1 h with rfl | h
    · rw [firstRow_session, firstRow_sequence]
      exact ⟨rfl, by omega⟩
    · obtain ⟨hsession, hsequence⟩ := ih h
      exact ⟨hsession, by omega⟩

theorem foldl_hydrateRow_counters (kookrSessionId : String) (s : HookIngestion) (rows : List ActivityLedgerRow) :
    (rows.foldl (hydrateRow kookrSessionId) s).sequenceCounters = s.sequenceCounters ∧
      (rows.foldl (hydrateRow kookrSessionId) s).ledger = s.ledger := by
  induction rows generalizing s with
  | nil => exact ⟨rfl, rfl⟩
  | cons row rows ih =>
    obtain ⟨hcounters, hledger⟩ := ih (hydrateRow kookrSessionId s row)
    have hrow : (hydrateRow kookrSessionId s row).sequenceCounters = s.sequenceCounters ∧ (hydrateRow kookrSessionId s row).ledger = s.ledger := by
      unfold hydrateRow
      dsimp only
      split <;> exact ⟨rfl, rfl⟩
    exact ⟨hcounters.trans hrow.1, hledger.trans hrow.2⟩

/-- Before the replay of the records that follow `n` others. -/
structure Replaying (deps : HookIngestionDeps) (kookrSessionId : String) (s : HookIngestion) (n : ℕ) (records : List HookRecord) : Prop where
  awaits : Awaits deps kookrSessionId s n records
  bounded : ∀ row ∈ s.ledger, row.envelope.sequence ≤ s.counter kookrSessionId
  total : n + records.length ≤ s.counter kookrSessionId

@[simp] theorem raiseCounter_cache (highest : ℕ) : (s.raiseCounter kookrSessionId highest).cache = s.cache := by
  unfold raiseCounter
  split <;> rfl

@[simp] theorem raiseCounter_ledger (highest : ℕ) : (s.raiseCounter kookrSessionId highest).ledger = s.ledger := by
  unfold raiseCounter
  split <;> rfl

theorem raiseCounter_counter {highest : ℕ} (hle : s.counter kookrSessionId ≤ highest) :
    (s.raiseCounter kookrSessionId highest).counter kookrSessionId = highest := by
  unfold raiseCounter
  split
  · exact counter_set _ _
  · next hnot =>
    simp only [Bool.and_eq_true, decide_eq_true_eq] at hnot
    omega

/-- The hydration reads the rows of the run, and the counter goes on after the last of them. -/
theorem restarted_eq (h : Distinct deps kookrSessionId records) (now : ℕ) : restarted deps kookrSessionId records now =
      ((rowsFrom deps kookrSessionId 0 records).foldl (hydrateRow kookrSessionId)
        (firstRun deps kookrSessionId records).restart).raiseCounter kookrSessionId records.length := by
  have hrows : (firstRun deps kookrSessionId records).restart.readAll kookrSessionId = rowsFrom deps kookrSessionId 0 records := by
    refine (congrArg (filter _) (firstRun_spec h).2).trans (filter_eq_self.2 fun row hrow => ?_)
    exact decide_eq_true (rowsFrom_session hrow).1
  have hmax : maxSequence (rowsFrom deps kookrSessionId 0 records) = records.length :=
    (maxSequence_from 0 records).trans (zero_add _)
  unfold restarted
  rw [hydrateFromLedger_of_not_live, hrows, hmax]

theorem restarted_replaying (h : Distinct deps kookrSessionId records) (now : ℕ) :
    Replaying deps kookrSessionId (restarted deps kookrSessionId records now) 0 records := by
  obtain ⟨-, hledger⟩ := firstRun_spec h
  have hhydrated := restarted_eq h now
  obtain ⟨hcounters, hkept⟩ := foldl_hydrateRow_counters kookrSessionId (firstRun deps kookrSessionId records).restart
    (rowsFrom deps kookrSessionId 0 records)
  have hcounter : (restarted deps kookrSessionId records now).counter kookrSessionId = records.length := by
    rw [hhydrated]
    refine raiseCounter_counter ?_
    unfold counter
    rw [hcounters]
    exact Nat.zero_le _
  refine ⟨?_, fun row hrow => ?_, ?_⟩
  · rw [hhydrated]
    exact (hydrateRows_awaits h fun record _ => rfl).congr fun record _ _ => by rw [raiseCounter_cache]
  · rw [hhydrated, raiseCounter_ledger, hkept] at hrow
    have hmem : row ∈ rowsFrom deps kookrSessionId 0 records := hledger ▸ hrow
    have hle := (rowsFrom_session hmem).2
    omega
  · rw [hcounter, zero_add]

section

variable (h : Replaying deps kookrSessionId s n (record :: records))
include h

theorem Replaying.recognised (hraw : trimText record.raw ≠ "") (hrecognised : Recognised deps record.raw) :
    (s.ingest deps (record.replayInput kookrSessionId)).2.counter kookrSessionId = s.counter kookrSessionId ∧
      (∃ row, (s.ingest deps (record.replayInput kookrSessionId)).2.ledger = s.ledger ++ [row] ∧ row.envelope.sequence = n + 1) ∧
      ∃ result, (s.ingest deps (record.replayInput kookrSessionId)).1 = .ok result ∧
        result.eventId = mintEventId deps kookrSessionId (n + 1) ∧ result.injectResult.sequence = some (n + 1) := by
  have hprimary : isPrimary (firstRow deps (record.firstInput kookrSessionId) (n + 1)) = true :=
    (isPrimary_firstRow (n + 1)).2 hrecognised
  obtain ⟨hentry, -⟩ := h.awaits
  rw [if_pos hprimary] at hentry
  have hget : s.cache.get (cacheKey deps (record.replayInput kookrSessionId)) =
      some (hydratedEntry (firstRow deps (record.firstInput kookrSessionId) (n + 1))) := hentry
  exact ingest_hydrated (record.replayInput kookrSessionId) hraw hget ⟨rfl, rfl⟩ hrecognised
    (congrArg some (firstRow_sequence (n + 1)))

theorem Replaying.unrecognised (hraw : trimText record.raw ≠ "") (hnot : ¬ Recognised deps record.raw) :
    (s.ingest deps (record.replayInput kookrSessionId)).2.counter kookrSessionId = s.counter kookrSessionId + 1 ∧
      (s.ingest deps (record.replayInput kookrSessionId)).2.ledger =
        s.ledger ++ [firstRow deps (record.replayInput kookrSessionId) (s.counter kookrSessionId + 1)] := by
  have hprimary : ¬ isPrimary (firstRow deps (record.firstInput kookrSessionId) (n + 1)) = true := by
    rw [isPrimary_firstRow]
    exact hnot
  obtain ⟨hentry, -⟩ := h.awaits
  rw [if_neg hprimary] at hentry
  have hget : s.cache.get (cacheKey deps (record.replayInput kookrSessionId)) = none := hentry
  exact ingest_new (record.replayInput kookrSessionId) hraw hget

theorem Replaying.step (hdistinct : Distinct deps kookrSessionId (record :: records)) :
    Replaying deps kookrSessionId (s.ingest deps (record.replayInput kookrSessionId)).2 (n + 1) records := by
  have hraw := hdistinct.nonempty record mem_cons_self
  have htotal := h.total
  rw [length_cons] at htotal
  have hawaits : Awaits deps kookrSessionId (s.ingest deps (record.replayInput kookrSessionId)).2 (n + 1) records :=
    h.awaits.2.congr fun other hother hpinned => ingest_get_of_ne hpinned (hdistinct.not_mem other hother)
  by_cases hrecognised : Recognised deps record.raw
  · obtain ⟨hcounter, ⟨row, hledger, hsequence⟩, -⟩ := h.recognised hraw hrecognised
    refine ⟨hawaits, fun row' hrow' => ?_, by omega⟩
    rw [hledger] at hrow'
    rw [hcounter]
    rcases mem_concat_cases hrow' with hold | rfl
    · exact h.bounded row' hold
    · omega
  · obtain ⟨hcounter, hledger⟩ := h.unrecognised hraw hrecognised
    refine ⟨hawaits, fun row' hrow' => ?_, by omega⟩
    rw [hledger] at hrow'
    rw [hcounter]
    rcases mem_concat_cases hrow' with hold | rfl
    · exact (h.bounded row' hold).trans (Nat.le_succ _)
    · rw [firstRow_sequence]

end

theorem Replaying.run {again records : List HookRecord} (h : Replaying deps kookrSessionId s n (again ++ records))
    (hdistinct : Distinct deps kookrSessionId (again ++ records)) :
    Replaying deps kookrSessionId (s.ingestAll deps (again.map (HookRecord.replayInput kookrSessionId))) (n + again.length) records := by
  induction again generalizing n s with
  | nil => exact h
  | cons record again ih =>
    have hrun := ih (h.step hdistinct) hdistinct.tail
    have hlength : n + 1 + again.length = n + (record :: again).length := by
      rw [length_cons]
      omega
    exact hlength ▸ hrun

/-- What the restart promises to the records, and to one that comes later. -/
structure SurvivesRestart (deps : HookIngestionDeps) (kookrSessionId : String) (records : List HookRecord) (now : ℕ)
    (later : IngestInput) : Prop where
  /-- A record that parsed is the same event again, and no sequence is allocated for it. -/
  kept : ∀ done record rest result, records = done ++ record :: rest → deps.classify (trimText record.raw) = .ok result →
    result.parseStatus = .ok →
      ∃ was is sequence, ((firstRun deps kookrSessionId done).ingest deps (record.firstInput kookrSessionId)).1 = .ok was ∧
        ((replayed deps kookrSessionId records now done).ingest deps (record.replayInput kookrSessionId)).1 = .ok is ∧
        is.eventId = was.eventId ∧ was.injectResult.sequence = some sequence ∧ is.injectResult.sequence = some sequence ∧
        ((replayed deps kookrSessionId records now done).ingest deps (record.replayInput kookrSessionId)).2.counter kookrSessionId =
          (replayed deps kookrSessionId records now done).counter kookrSessionId
  /-- The row of the later record has a sequence above all the others. -/
  larger : ∃ row, ((replayed deps kookrSessionId records now records).ingest deps later).2.ledger =
      (replayed deps kookrSessionId records now records).ledger ++ [row] ∧
    (∀ other ∈ (replayed deps kookrSessionId records now records).ledger, other.envelope.sequence < row.envelope.sequence) ∧
    ∀ result, ((replayed deps kookrSessionId records now records).ingest deps later).1 = .ok result →
      result.eventId = mintEventId deps kookrSessionId row.envelope.sequence

theorem replayed_replaying {done rest : List HookRecord} (h : Distinct deps kookrSessionId (done ++ rest)) (now : ℕ) :
    Replaying deps kookrSessionId (replayed deps kookrSessionId (done ++ rest) now done) done.length rest := by
  have hrun := (restarted_replaying h now).run h
  rwa [zero_add] at hrun

theorem replayed_get_none
    (h : Distinct deps kookrSessionId records) (hne : ∀ record ∈ records, recordKey deps kookrSessionId record ≠ key) (now : ℕ) :
    (replayed deps kookrSessionId records now records).cache.get key = none := by
  refine ingestAll_get_none ?_ fun input hinput => ?_
  · rw [restarted_eq h, raiseCounter_cache, hydrateRows_get_of_ne hne]
    rfl
  · obtain ⟨record, hrecord, rfl⟩ := mem_map.1 hinput
    exact hne record hrecord

theorem larger_sequence (h : Distinct deps kookrSessionId records) (now : ℕ) {later : IngestInput}
    (hsession : later.kookrSessionId = kookrSessionId) (hraw : trimText later.raw ≠ "")
    (hnew : ∀ record ∈ records, recordKey deps kookrSessionId record ≠ cacheKey deps later) :
    ∃ row, ((replayed deps kookrSessionId records now records).ingest deps later).2.ledger =
        (replayed deps kookrSessionId records now records).ledger ++ [row] ∧
      (∀ other ∈ (replayed deps kookrSessionId records now records).ledger, other.envelope.sequence < row.envelope.sequence) ∧
      ∀ result, ((replayed deps kookrSessionId records now records).ingest deps later).1 = .ok result →
        result.eventId = mintEventId deps kookrSessionId row.envelope.sequence := by
  subst hsession
  have hall : Distinct deps later.kookrSessionId (records ++ []) := by rwa [append_nil]
  have hreplaying := replayed_replaying hall now
  rw [append_nil] at hreplaying
  have hget := replayed_get_none h hnew now
  refine ⟨_, (ingest_new later hraw hget).2, fun other hother => ?_, fun result hresult => ?_⟩
  · rw [firstRow_sequence]
    exact Nat.lt_succ_of_le (hreplaying.bounded other hother)
  · rw [firstRow_sequence]
    exact (ingest_new_ok later hraw hget hresult).1

/-- A restart keeps the identity of every record that parsed exactly when the adapter took every one of them
for an event of the session or of a child of it: the hydration passes over the rows of the others. -/
theorem hook_identity_survives {records : List HookRecord} {now : ℕ} {later : IngestInput}
    (hnonempty : ∀ record ∈ records, trimText record.raw ≠ "") (hdistinct : (contents records).Nodup)
    (hsession : later.kookrSessionId = kookrSessionId) (hlater : trimText later.raw ≠ "" ∧ trimText later.raw ∉ contents records)
    (hcollision : CollisionFree deps (trimText later.raw :: contents records)) :
    SurvivesRestart deps kookrSessionId records now later ↔
      ∀ record ∈ records, ∀ result, deps.classify (trimText record.raw) = .ok result → result.parseStatus = .ok →
        result.parentage = some .parent ∨ result.parentage = some .child := by
  have hrecords : Distinct deps kookrSessionId records :=
    .of_contents hnonempty hdistinct fun a ha b hb => hcollision a (mem_cons_of_mem _ ha) b (mem_cons_of_mem _ hb)
  constructor
  · intro hsurvives record hrecord result hclassify hok
    by_contra hparentage
    obtain ⟨done, rest, rfl⟩ := append_of_mem hrecord
    obtain ⟨-, -, -, -, -, -, -, -, hcounter⟩ := hsurvives.kept done record rest result rfl hclassify hok
    have hnot : ¬ Recognised deps record.raw := by
      rintro ⟨classified, hclassify', -, hof⟩
      obtain rfl : classified = result := Except.ok.inj (hclassify'.symm.trans hclassify)
      exact hparentage hof
    have hnext := ((replayed_replaying hrecords now).unrecognised (hnonempty record hrecord) hnot).1
    omega
  · intro hparentage
    refine ⟨?_, larger_sequence hrecords now hsession hlater.1 fun record hrecord heq => ?_⟩
    · rintro done record rest result rfl hclassify hok
      have hmem : record ∈ done ++ record :: rest := mem_append_right _ mem_cons_self
      have hraw := hnonempty record hmem
      have hrecognised : Recognised deps record.raw := ⟨result, hclassify, hok, hparentage record hmem result hclassify hok⟩
      obtain ⟨hkept, -, is, his, heventId, hsequence⟩ := (replayed_replaying hrecords now).recognised hraw hrecognised
      have hfirst : Distinct deps kookrSessionId (done ++ [record]) := by
        refine ⟨fun other hother => hnonempty other ?_, ?_⟩
        · rcases mem_concat_cases hother with hdone | hrecord
          · exact mem_append_left _ hdone
          · exact hrecord ▸ hmem
        · have hnodup := hrecords.nodup
          rw [show done ++ record :: rest = (done ++ [record]) ++ rest by simp, map_append] at hnodup
          exact hnodup.of_append_left
      have hcounter := (firstRun_spec hfirst.init).1
      have hget : (firstRun deps kookrSessionId done).cache.get (cacheKey deps (record.firstInput kookrSessionId)) = none :=
        firstRun_get_none hfirst
      obtain ⟨was, hwas, hstatus⟩ := ingest_new_classified (record.firstInput kookrSessionId) hraw hget hclassify
      obtain ⟨hwasId, hwasSequence⟩ := ingest_new_ok (record.firstInput kookrSessionId) hraw hget hwas
      refine ⟨was, is, done.length + 1, hwas, his, ?_, ?_, hsequence, hkept⟩
      · rw [heventId, hwasId]
        exact congrArg (fun n => mintEventId deps kookrSessionId (n + 1)) hcounter.symm
      · rw [hwasSequence (hstatus.trans hok)]
        exact congrArg (fun n => some (n + 1)) hcounter
    · have hsame : deps.sha256 (trimText record.raw) = deps.sha256 (trimText later.raw) := (Prod.mk.inj heq).2
      have hmem : trimText record.raw ∈ contents records := mem_map_of_mem hrecord
      have htext := hcollision _ (mem_cons_of_mem _ hmem) _ mem_cons_self hsame
      exact hlater.2 (htext ▸ hmem)

def promptRecord : String := "\x7b\"hook_event_name\":\"UserPromptSubmit\",\"session_id\":\"a1\",\"prompt\":\"go\"\x7d"

def sessionStartRecord : String := "\x7b\"hook_event_name\":\"SessionStart\",\"session_id\":\"a1\"\x7d"

def stopRecord : String := "\x7b\"hook_event_name\":\"Stop\",\"session_id\":\"a1\"\x7d"

/-- A prompt whose POST comes before that of the session's start is of unknown parentage. -/
def racedDeps : HookIngestionDeps where
  classify record :=
    if record = promptRecord then
      .ok { parseStatus := .ok, agentType := "claude-code", rawSessionId := some "a1", rawHookEventName := some "UserPromptSubmit", parentage := some .unknown }
    else if record = sessionStartRecord then
      .ok { parseStatus := .ok, agentType := "claude-code", rawSessionId := some "a1", rawHookEventName := some "SessionStart", parentage := some .parent }
    else if record = stopRecord then
      .ok { parseStatus := .ok, agentType := "claude-code", rawSessionId := some "a1", rawHookEventName := some "Stop", parentage := some .parent }
    else .ok { parseStatus := .malformed, agentType := "claude-code", error := some "invalid JSON" }
  sha256 text :=
    if text = promptRecord then "7b2e9f5d40f40b8bca21120352f8453aba7f4ed440fb2d5f7b117d4242d8a86d"
    else if text = sessionStartRecord then "a4bd0eb0c05f1d802106a5cc718dbe91955ac8d5d2b91bbb20daf30d3708ef96"
    else if text = stopRecord then "f08ee96d468456a3b9e6ab41e9b34c6c59372335bd0e0e0ba373a9dfbedaeaea"
    else "636a5a1f12026b0a2a964336ddc919faead15c3f5731dbd240bfb44e84174306"
  findTaskIdBySession _ := none
  dedupTtlMs := 5000

def promptArrival : HookRecord := ⟨promptRecord, .http, 100, 9000, true⟩

def sessionStartArrival : HookRecord := ⟨sessionStartRecord, .http, 120, 9001, true⟩

def stopArrival : IngestInput := ⟨"kookr-1", stopRecord, .http, false, 9500⟩

theorem hook_identity_survives_sessionStart : SurvivesRestart racedDeps "kookr-1" [sessionStartArrival] 8900 stopArrival := by
  have hnonempty : ∀ record ∈ [sessionStartArrival], trimText record.raw ≠ "" := by decide +kernel
  have hlater : trimText stopArrival.raw ≠ "" ∧ trimText stopArrival.raw ∉ contents [sessionStartArrival] := by decide +kernel
  have hcollision : CollisionFree racedDeps (trimText stopArrival.raw :: contents [sessionStartArrival]) := by
    unfold CollisionFree
    decide +kernel
  refine (hook_identity_survives hnonempty (by decide +kernel) rfl hlater hcollision).2 ?_
  intro record hrecord result hclassify _
  obtain rfl := mem_singleton.1 hrecord
  have hsome : racedDeps.classify (trimText sessionStartArrival.raw) =
      .ok { parseStatus := .ok, agentType := "claude-code", rawSessionId := some "a1", rawHookEventName := some "SessionStart", parentage := some .parent } := by
    decide +kernel
  obtain rfl := Except.ok.inj (hsome.symm.trans hclassify)
  exact .inl rfl

/-- The prompt parsed and was dispatched as the first event; its replay is the third one. -/
theorem raced_prompt_renumbered : (contents [promptArrival, sessionStartArrival]).Nodup ∧
    CollisionFree racedDeps (trimText stopArrival.raw :: contents [promptArrival, sessionStartArrival]) ∧
    ¬ SurvivesRestart racedDeps "kookr-1" [promptArrival, sessionStartArrival] 8900 stopArrival := by
  have hcollision : CollisionFree racedDeps (trimText stopArrival.raw :: contents [promptArrival, sessionStartArrival]) := by
    unfold CollisionFree
    decide +kernel
  refine ⟨by decide +kernel, hcollision, fun hsurvives => ?_⟩
  have hclassify : racedDeps.classify (trimText promptArrival.raw) =
      .ok { parseStatus := .ok, agentType := "claude-code", rawSessionId := some "a1", rawHookEventName := some "UserPromptSubmit", parentage := some .unknown } := by
    decide +kernel
  obtain ⟨-, -, -, -, -, -, -, -, hcounter⟩ := hsurvives.kept [] promptArrival [sessionStartArrival] _ rfl hclassify rfl
  exact absurd hcounter (by decide +kernel)

end Kookr.Server.HookIngestion
