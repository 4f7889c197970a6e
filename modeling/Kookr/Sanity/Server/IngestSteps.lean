import Kookr.Spec.Server.HookIngestion

/-! What the ingestion of one record does: the row that it writes, the sequence that it takes, and the
only cache entry that it touches. -/

namespace Kookr.Server.HookIngestion

open Kookr.Lib

variable {deps : HookIngestionDeps} {s : HookIngestion} {input : IngestInput} {key : String × String} {entry : CacheEntry} (sequence : ℕ)

/-- An entry that the sweep of old entries passes over. -/
def Pinned (s : HookIngestion) (key : String × String) : Prop := ∀ entry, s.cache.get key = some entry → entry.ts = none

theorem gcExpired_get (hpinned : Pinned s key) (now : ℕ) : (s.gcExpired deps now).cache.get key = s.cache.get key := by
  show (s.cache.filter _).get key = s.cache.get key
  rw [OrderedMap.get_filter]
  cases hget : s.cache.get key with
  | none => rfl
  | some entry => simp [Option.filter, hpinned entry hget]

theorem ingest_get_of_ne (hpinned : Pinned s key) (hne : cacheKey deps input ≠ key) :
    (s.ingest deps input).2.cache.get key = s.cache.get key := by
  have hgc : (s.gcExpired deps input.now).cache.get key = s.cache.get key := gcExpired_get hpinned input.now
  unfold ingest
  split
  · rfl
  dsimp only
  split
  · split
    · unfold replayHydrated
      split
      · exact hgc
      · exact (OrderedMap.get_set_of_ne _ _ hne).trans hgc
    · exact hgc
  · unfold dispatchFirst
    dsimp only
    split
    · exact hgc
    · split
      · exact (OrderedMap.get_set_of_ne _ _ hne).trans hgc
      · exact hgc

theorem counter_set (kookrSessionId : String) (next : ℕ) :
    counter { s with sequenceCounters := s.sequenceCounters.set kookrSessionId next } kookrSessionId = next := by
  simp [counter]

/-- The row of a record that is seen for the first time. -/
def firstRow (deps : HookIngestionDeps) (input : IngestInput) (sequence : ℕ) : ActivityLedgerRow :=
  match injectHookEvent deps (trimText input.raw) sequence with
  | .error error => ledgerRow deps input sequence (malformedResult input error) .diagnosticOnly
  | .ok result =>
    ledgerRow deps input sequence { result with origin := some (originOf input) } (ledgerProjection result)

theorem firstRow_sequence : (firstRow deps input sequence).envelope.sequence = sequence := by
  unfold firstRow
  split <;> rfl

theorem firstRow_session : (firstRow deps input sequence).envelope.kookrSessionId = input.kookrSessionId := by
  unfold firstRow
  split <;> rfl

theorem firstRow_hash : (firstRow deps input sequence).envelope.contentHash = contentHash deps input.raw := by
  unfold firstRow
  split <;> rfl

/-- The adapter takes the record for an event of the session or of one of its children. -/
def Recognised (deps : HookIngestionDeps) (raw : String) : Prop :=
  ∃ result, deps.classify (trimText raw) = .ok result ∧ result.parseStatus = .ok ∧
    (result.parentage = some .parent ∨ result.parentage = some .child)

theorem injectHookEvent_eq_ok {record : String} {sequence : ℕ} {result : InjectHookEventResult}
    (h : injectHookEvent deps record sequence = .ok result) :
    ∃ classified, deps.classify record = .ok classified ∧ result.parseStatus = classified.parseStatus ∧
      result.parentage = classified.parentage ∧ (result.parseStatus = .ok → result.sequence = some sequence) := by
  unfold injectHookEvent at h
  cases hclassify : deps.classify record with
  | error error => rw [hclassify] at h; cases h
  | ok classified =>
    rw [hclassify] at h
    obtain rfl := Except.ok.inj h
    exact ⟨classified, rfl, rfl, rfl, fun hok => if_pos hok⟩

/-- The hydration takes up the row of a recognised record and of no other. -/
theorem isPrimary_firstRow : isPrimary (firstRow deps input sequence) = true ↔ Recognised deps input.raw := by
  unfold firstRow
  split
  · next error herror =>
    refine iff_of_false (by simp [isPrimary, ledgerRow, malformedResult]) ?_
    rintro ⟨result, hclassify, -⟩
    rw [injectHookEvent, hclassify] at herror
    cases herror
  · next result hresult =>
    obtain ⟨classified, hclassify, hstatus, hparentage, -⟩ := injectHookEvent_eq_ok hresult
    have hrow : isPrimary (ledgerRow deps input sequence { result with origin := some (originOf input) } (ledgerProjection result)) = true ↔
        result.parseStatus = .ok ∧ ledgerProjection result ≠ .diagnosticOnly := by
      simp [isPrimary, ledgerRow]
    rw [hrow]
    constructor
    · rintro ⟨hok, hprojection⟩
      refine ⟨classified, hclassify, hstatus ▸ hok, ?_⟩
      unfold ledgerProjection at hprojection
      rw [if_neg (by simp [hok])] at hprojection
      split at hprojection <;> simp_all
    · rintro ⟨classified', hclassify', hok, hof⟩
      obtain rfl : classified = classified' := Except.ok.inj (hclassify.symm.trans hclassify')
      rw [← hstatus] at hok
      rw [← hparentage] at hof
      refine ⟨hok, ?_⟩
      unfold ledgerProjection
      rw [if_neg (by simp [hok])]
      rcases hof with hof | hof <;> simp [hof]

theorem dispatchFirst_spec : (s.dispatchFirst deps input).2.counter input.kookrSessionId = s.counter input.kookrSessionId + 1 ∧
    (s.dispatchFirst deps input).2.ledger = s.ledger ++ [firstRow deps input (s.counter input.kookrSessionId + 1)] := by
  unfold dispatchFirst nextSequence firstRow
  dsimp only
  cases injectHookEvent deps (trimText input.raw) (s.counter input.kookrSessionId + 1) with
  | error error => exact ⟨counter_set _ _, rfl⟩
  | ok result =>
    dsimp only [writeLedger, bumpMeta]
    split
    · exact ⟨counter_set _ _, rfl⟩
    · exact ⟨counter_set _ _, rfl⟩

theorem dispatchFirst_ok {result : IngestResult} (h : (s.dispatchFirst deps input).1 = .ok result) :
    result.eventId = mintEventId deps input.kookrSessionId (s.counter input.kookrSessionId + 1) ∧
      (result.injectResult.parseStatus = .ok → result.injectResult.sequence = some (s.counter input.kookrSessionId + 1)) := by
  unfold dispatchFirst nextSequence at h
  dsimp only at h
  cases hinject : injectHookEvent deps (trimText input.raw) (s.counter input.kookrSessionId + 1) with
  | error error => rw [hinject] at h; cases h
  | ok injected =>
    rw [hinject] at h
    obtain rfl := Except.ok.inj h
    obtain ⟨-, -, -, -, hsequence⟩ := injectHookEvent_eq_ok hinject
    exact ⟨rfl, hsequence⟩

/-- A record that the cache does not know is observed for the first time. -/
theorem ingest_eq_dispatchFirst (hraw : trimText input.raw ≠ "") (hget : s.cache.get (cacheKey deps input) = none) :
    s.ingest deps input = (s.gcExpired deps input.now).dispatchFirst deps input := by
  have hpinned : Pinned s (cacheKey deps input) := by
    intro entry hentry
    rw [hget] at hentry
    cases hentry
  have hgc : (s.gcExpired deps input.now).cache.get (cacheKey deps input) = _ := (gcExpired_get hpinned input.now).trans hget
  unfold ingest
  rw [if_neg hraw]
  dsimp only
  rw [hgc]

/-- A new record takes the next sequence, and its row is written. -/
theorem ingest_new (input : IngestInput) (hraw : trimText input.raw ≠ "") (hget : s.cache.get (cacheKey deps input) = none) :
    (s.ingest deps input).2.counter input.kookrSessionId = s.counter input.kookrSessionId + 1 ∧
      (s.ingest deps input).2.ledger = s.ledger ++ [firstRow deps input (s.counter input.kookrSessionId + 1)] := by
  rw [ingest_eq_dispatchFirst hraw hget]
  exact dispatchFirst_spec (s := s.gcExpired deps input.now)

theorem ingest_new_ok (input : IngestInput) {result : IngestResult} (hraw : trimText input.raw ≠ "")
    (hget : s.cache.get (cacheKey deps input) = none) (h : (s.ingest deps input).1 = .ok result) :
    result.eventId = mintEventId deps input.kookrSessionId (s.counter input.kookrSessionId + 1) ∧
      (result.injectResult.parseStatus = .ok → result.injectResult.sequence = some (s.counter input.kookrSessionId + 1)) := by
  rw [ingest_eq_dispatchFirst hraw hget] at h
  exact dispatchFirst_ok (s := s.gcExpired deps input.now) h

theorem ingest_new_classified (input : IngestInput) {classified : InjectHookEventResult} (hraw : trimText input.raw ≠ "")
    (hget : s.cache.get (cacheKey deps input) = none) (hclassify : deps.classify (trimText input.raw) = .ok classified) :
    ∃ result, (s.ingest deps input).1 = .ok result ∧ result.injectResult.parseStatus = classified.parseStatus := by
  rw [ingest_eq_dispatchFirst hraw hget]
  unfold dispatchFirst injectHookEvent
  rw [hclassify]
  exact ⟨_, rfl, rfl⟩

theorem ingest_eq_replayHydrated (hraw : trimText input.raw ≠ "")
    (hget : s.cache.get (cacheKey deps input) = some entry) (hts : entry.ts = none) (hhydrated : entry.hydrated = true) :
    s.ingest deps input = (s.gcExpired deps input.now).replayHydrated deps input entry := by
  have hpinned : Pinned s (cacheKey deps input) := by
    intro entry' hentry
    rw [hget] at hentry
    cases hentry
    exact hts
  have hgc : (s.gcExpired deps input.now).cache.get (cacheKey deps input) = _ := (gcExpired_get hpinned input.now).trans hget
  unfold ingest
  rw [if_neg hraw]
  dsimp only
  rw [hgc]
  exact if_pos hhydrated

/-- A hydrated record keeps its sequence, and the counter stays where it is. -/
theorem replayHydrated_spec {sequence : ℕ} (hrecognised : Recognised deps input.raw)
    (hsequence : entry.result.sequence = some sequence) :
    (s.replayHydrated deps input entry).2.counter input.kookrSessionId = s.counter input.kookrSessionId ∧
      (∃ row, (s.replayHydrated deps input entry).2.ledger = s.ledger ++ [row] ∧ row.envelope.sequence = sequence) ∧
      ∃ result, (s.replayHydrated deps input entry).1 = .ok result ∧
        result.eventId = mintEventId deps input.kookrSessionId sequence ∧ result.injectResult.sequence = some sequence := by
  obtain ⟨classified, hclassify, hok, -⟩ := hrecognised
  have hinject : injectHookEvent deps (trimText input.raw) (entry.result.sequence.getD 0) =
      .ok { classified with sequence := some sequence } := by
    simp [injectHookEvent, hclassify, hok, hsequence, Except.map]
  unfold replayHydrated
  rw [hinject]
  exact ⟨rfl, ⟨_, rfl, rfl⟩, _, rfl, rfl, rfl⟩

theorem ingest_hydrated (input : IngestInput) {sequence : ℕ} (hraw : trimText input.raw ≠ "")
    (hget : s.cache.get (cacheKey deps input) = some entry) (hentry : entry.ts = none ∧ entry.hydrated = true)
    (hrecognised : Recognised deps input.raw) (hsequence : entry.result.sequence = some sequence) :
    (s.ingest deps input).2.counter input.kookrSessionId = s.counter input.kookrSessionId ∧
      (∃ row, (s.ingest deps input).2.ledger = s.ledger ++ [row] ∧ row.envelope.sequence = sequence) ∧
      ∃ result, (s.ingest deps input).1 = .ok result ∧
        result.eventId = mintEventId deps input.kookrSessionId sequence ∧ result.injectResult.sequence = some sequence := by
  rw [ingest_eq_replayHydrated hraw hget hentry.1 hentry.2]
  exact replayHydrated_spec (s := s.gcExpired deps input.now) hrecognised hsequence

theorem hydrateFromLedger_of_not_live (kookrSessionId : String) (now : ℕ) :
    (s.hydrateFromLedger deps kookrSessionId false now).2 =
      ((s.readAll kookrSessionId).foldl (hydrateRow kookrSessionId) s).raiseCounter kookrSessionId
        (maxSequence (s.readAll kookrSessionId)) := rfl

end Kookr.Server.HookIngestion
