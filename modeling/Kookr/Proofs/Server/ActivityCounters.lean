import Kookr.Proofs.Server.HookIdentity

/-! The counters of the activity that memory and the ledger keep. They tell the same until a record is dispatched that is
neither of the session nor of a child: its row is written as a diagnosis, and the ledger takes it for a duplicate. -/

namespace Kookr.Server.HookIngestion

open Kookr.Lib List

variable {deps : HookIngestionDeps} {s : HookIngestion} {input : IngestInput} {row : ActivityLedgerRow} {id : String}
  {stats : ActivityLedgerStats} {activityMeta : AgentActivityMeta} {result : InjectHookEventResult}

/-- A record that parsed, and is not known as one of the session or of a child. -/
def Aside (result : InjectHookEventResult) : Prop :=
  result.parseStatus = .ok ∧ ¬(result.parentage = some .parent ∨ result.parentage = some .child)

instance : DecidablePred Aside := fun _ => inferInstanceAs (Decidable (_ ∧ _))

def asides (activityMeta : AgentActivityMeta) : ℕ := activityMeta.foreignEventCount + activityMeta.unknownParentageCount

/-- The seven counters that memory and the ledger have in common. -/
structure Agrees (stats : ActivityLedgerStats) (activityMeta : AgentActivityMeta) : Prop where
  malformed : stats.malformedRecordCount = activityMeta.malformedRecordCount
  dropped : stats.droppedRecordCount = activityMeta.droppedRecordCount
  duplicate : stats.duplicateRecordCount = activityMeta.duplicateRecordCount
  parent : stats.parentEventCount = activityMeta.parentEventCount
  child : stats.childEventCount = activityMeta.childEventCount
  foreign : stats.foreignEventCount = activityMeta.foreignEventCount
  unknown : stats.unknownParentageCount = activityMeta.unknownParentageCount

/-- The ledger reports what memory has counted, with the records aside as duplicates. -/
def Accounts (stats : ActivityLedgerStats) (activityMeta : AgentActivityMeta) : Prop :=
  Agrees stats { activityMeta with
    duplicateRecordCount := activityMeta.duplicateRecordCount + asides activityMeta
    foreignEventCount := 0
    unknownParentageCount := 0 }

/-- The row is about a duplicate, or about the result. -/
def Reports (row : ActivityLedgerRow) : Option InjectHookEventResult → Prop
  | none => row.envelope.parseStatus = .ok ∧ row.projection = some .diagnosticOnly
  | some result => row.envelope.parseStatus = result.parseStatus ∧ row.envelope.parentage = result.parentage.getD .unknown ∧
      row.projection = some (ledgerProjection result)

theorem Accounts.count (h : Accounts stats activityMeta) {result? : Option InjectHookEventResult} (hrow : Reports row result?) :
    Accounts (stats.count row) (activityMeta.bump result?) := by
  obtain ⟨hmalformed, hdropped, hduplicate, hparent, hchild, hforeign, hunknown⟩ := h
  dsimp only [asides] at hduplicate
  cases result? with
  | none =>
    obtain ⟨hok, hprojection⟩ := hrow
    unfold ActivityLedgerStats.count
    rw [hok]
    simp only [hprojection, if_true]
    exact ⟨hmalformed, hdropped, by simp only [AgentActivityMeta.bump, asides]; omega, hparent, hchild, hforeign, hunknown⟩
  | some result =>
    obtain ⟨hstatus, hparentage, hprojection⟩ := hrow
    unfold ActivityLedgerStats.count
    rw [hstatus, hprojection, hparentage]
    obtain ⟨status, _, _, _, _, parentage, _, _, _⟩ := result
    cases status with
    | malformed => exact ⟨congrArg Nat.succ hmalformed, hdropped, hduplicate, hparent, hchild, hforeign, hunknown⟩
    | dropped => exact ⟨hmalformed, congrArg Nat.succ hdropped, hduplicate, hparent, hchild, hforeign, hunknown⟩
    | ok =>
      rcases parentage with _ | _ | _ | _ | _
      · exact ⟨hmalformed, hdropped, congrArg Nat.succ hduplicate, hparent, hchild, hforeign, hunknown⟩
      · exact ⟨hmalformed, hdropped, hduplicate, congrArg Nat.succ hparent, hchild, hforeign, hunknown⟩
      · exact ⟨hmalformed, hdropped, hduplicate, hparent, congrArg Nat.succ hchild, hforeign, hunknown⟩
      · refine ⟨hmalformed, hdropped, (congrArg Nat.succ hduplicate).trans ?_, hparent, hchild, hforeign, hunknown⟩
        simp only [AgentActivityMeta.bump, asides]
        omega
      · exact ⟨hmalformed, hdropped, congrArg Nat.succ hduplicate, hparent, hchild, hforeign, hunknown⟩

theorem asides_bump (activityMeta : AgentActivityMeta) (result? : Option InjectHookEventResult) :
    asides (activityMeta.bump result?) = asides activityMeta + if result?.any (Aside ·) then 1 else 0 := by
  cases result? with
  | none => rfl
  | some result =>
    obtain ⟨status, _, _, _, _, parentage, _, _, _⟩ := result
    cases status with
    | malformed => rfl
    | dropped => rfl
    | ok =>
      rcases parentage with _ | _ | _ | _ | _
      · exact (Nat.add_assoc _ _ 1).symm
      · rfl
      · rfl
      · exact Nat.add_right_comm _ 1 _
      · exact (Nat.add_assoc _ _ 1).symm

/-- No entry is left from an earlier process, and what is cached parsed. -/
def Unhydrated (s : HookIngestion) : Prop :=
  ∀ key entry, s.cache.get key = some entry → entry.result.parseStatus = .ok ∧ entry.hydrated = false

theorem Unhydrated.gcExpired (h : Unhydrated s) (now : ℕ) : Unhydrated (s.gcExpired deps now) := by
  intro key entry hentry
  unfold HookIngestion.gcExpired at hentry
  rw [OrderedMap.get_filter, Option.filter_eq_some_iff] at hentry
  exact h key entry hentry.1

/-- The record is dispatched, and is neither of the session nor of a child. -/
def DispatchesAside (deps : HookIngestionDeps) (s : HookIngestion) (input : IngestInput) : Prop :=
  trimText input.raw ≠ "" ∧ (s.gcExpired deps input.now).cache.get (cacheKey deps input) = none ∧
    ∃ result, deps.classify (trimText input.raw) = .ok result ∧ Aside result

/-- What a record adds to the counters of memory and to the ledger. -/
structure Written (deps : HookIngestionDeps) (s : HookIngestion) (input : IngestInput) (s' : HookIngestion) (row : ActivityLedgerRow)
    (result? : Option InjectHookEventResult) : Prop where
  ledger : s'.ledger = s.ledger ++ [row]
  session : row.envelope.kookrSessionId = input.kookrSessionId
  counted : s'.metaByKookrSession = s.metaByKookrSession.set input.kookrSessionId
    (((s.metaByKookrSession.get input.kookrSessionId).getD {}).bump result?)
  reports : Reports row result?
  aside : result?.any (Aside ·) = true ↔ DispatchesAside deps s input
  unhydrated : Unhydrated s'

theorem dispatchFirst_written (h : Unhydrated s) (hraw : trimText input.raw ≠ "")
    (hget : (s.gcExpired deps input.now).cache.get (cacheKey deps input) = none) :
    ∃ row result?, Written deps s input ((s.gcExpired deps input.now).dispatchFirst deps input).2 row result? := by
  have hgc : Unhydrated (s.gcExpired deps input.now) := h.gcExpired input.now
  unfold dispatchFirst nextSequence
  dsimp only
  cases hinject : injectHookEvent deps (trimText input.raw) ((s.gcExpired deps input.now).counter input.kookrSessionId + 1) with
  | error error =>
    refine ⟨_, some (malformedResult input error), rfl, rfl, rfl, ⟨rfl, rfl, rfl⟩, iff_of_false (by simp [Aside, malformedResult]) ?_, hgc⟩
    rintro ⟨-, -, result, hclassify, -⟩
    rw [injectHookEvent, hclassify] at hinject
    cases hinject
  | ok result =>
    obtain ⟨classified, hclassify, hstatus, hparentage, -⟩ := injectHookEvent_eq_ok hinject
    have haside : Aside result ↔ DispatchesAside deps s input := by
      unfold Aside DispatchesAside
      rw [hstatus, hparentage]
      refine ⟨fun haside => ⟨hraw, hget, classified, hclassify, haside⟩, ?_⟩
      rintro ⟨-, -, classified', hclassify', haside⟩
      obtain rfl := Except.ok.inj (hclassify.symm.trans hclassify')
      exact haside
    dsimp only
    split
    · next hok =>
      refine ⟨_, some _, rfl, rfl, rfl, ⟨rfl, rfl, rfl⟩, (decide_eq_true_iff).trans haside, fun key entry hentry => ?_⟩
      rcases OrderedMap.get_set_some hentry with ⟨-, rfl⟩ | ⟨-, hold⟩
      · exact ⟨hok, rfl⟩
      · exact hgc key entry hold
    · exact ⟨_, some _, rfl, rfl, rfl, ⟨rfl, rfl, rfl⟩, (decide_eq_true_iff).trans haside, hgc⟩

theorem ingest_written (deps : HookIngestionDeps) (h : Unhydrated s) (hraw : trimText input.raw ≠ "") :
    ∃ row result?, Written deps s input (s.ingest deps input).2 row result? := by
  have hgc : Unhydrated (s.gcExpired deps input.now) := h.gcExpired input.now
  unfold ingest
  rw [if_neg hraw]
  dsimp only
  cases hget : (s.gcExpired deps input.now).cache.get (cacheKey deps input) with
  | none => exact dispatchFirst_written h hraw hget
  | some existing =>
    obtain ⟨hok, hfresh⟩ := hgc _ _ hget
    simp only [hfresh, Bool.false_eq_true, if_false]
    refine ⟨_, none, rfl, rfl, rfl, ⟨hok, rfl⟩, iff_of_false nofun ?_, hgc⟩
    rintro ⟨-, hnone, -⟩
    rw [hget] at hnone
    cases hnone

def metaOf (s : HookIngestion) (id : String) : AgentActivityMeta := (s.getActivityMeta id).getD {}

/-- The counters after the loop of `stats`. -/
def tally (s : HookIngestion) (id : String) : ActivityLedgerStats := (s.readAll id).foldl ActivityLedgerStats.count { kookrSessionId := id }

structure Counted (s : HookIngestion) (id : String) : Prop where
  accounts : Accounts (s.tally id) (s.metaOf id)
  unhydrated : Unhydrated s

theorem Written.step {result? : Option InjectHookEventResult} {s' : HookIngestion} (h : Written deps s input s' row result?)
    (hs : Counted s id) : Counted s' id ∧
      (asides (s'.metaOf id) = 0 ↔ asides (s.metaOf id) = 0 ∧ (input.kookrSessionId = id → ¬DispatchesAside deps s input)) := by
  by_cases hid : input.kookrSessionId = id
  · have hmeta : s'.metaOf id = (s.metaOf id).bump result? := by
      unfold metaOf getActivityMeta
      rw [h.counted, hid, OrderedMap.get_set_self]
      rfl
    have htally : s'.tally id = (s.tally id).count row := by
      unfold tally readAll
      rw [h.ledger, filter_append, filter_singleton, h.session, decide_eq_true hid, cond_true, foldl_concat]
    refine ⟨⟨?_, h.unhydrated⟩, ?_⟩
    · rw [hmeta, htally]
      exact hs.accounts.count h.reports
    · rw [hmeta, asides_bump, ← h.aside]
      split_ifs with haside <;> simp [haside, hid]
  · have hmeta : s'.metaOf id = s.metaOf id := by
      unfold metaOf getActivityMeta
      rw [h.counted, OrderedMap.get_set_of_ne _ _ hid]
    have htally : s'.tally id = s.tally id := by
      unfold tally readAll
      rw [h.ledger, filter_append, filter_singleton, h.session, decide_eq_false hid, cond_false, append_nil]
    rw [hmeta]
    exact ⟨⟨by rw [hmeta, htally]; exact hs.accounts, h.unhydrated⟩, (and_iff_left fun heq => absurd heq hid).symm⟩

theorem ingestAll_counted (deps : HookIngestionDeps) (inputs : List IngestInput) (id : String) : Counted (start.ingestAll deps inputs) id ∧
    (asides ((start.ingestAll deps inputs).metaOf id) = 0 ↔ ∀ before input after, inputs = before ++ input :: after →
      input.kookrSessionId = id → ¬DispatchesAside deps (start.ingestAll deps before) input) := by
  induction inputs using List.reverseRecOn with
  | nil =>
    have hstart : Counted start id := ⟨⟨rfl, rfl, rfl, rfl, rfl, rfl, rfl⟩, fun _ _ hentry => by
      unfold start at hentry
      rw [OrderedMap.get_empty] at hentry
      cases hentry⟩
    exact ⟨hstart, iff_of_true rfl fun before input after heq => absurd heq.symm (append_ne_nil_of_right_ne_nil _ (cons_ne_nil _ _))⟩
  | append_singleton inputs input ih =>
    obtain ⟨hs, hiff⟩ := ih
    have hstep : Counted (start.ingestAll deps (inputs ++ [input])) id ∧
        (asides ((start.ingestAll deps (inputs ++ [input])).metaOf id) = 0 ↔ asides ((start.ingestAll deps inputs).metaOf id) = 0 ∧
          (input.kookrSessionId = id → ¬DispatchesAside deps (start.ingestAll deps inputs) input)) := by
      rw [ingestAll_concat]
      by_cases hraw : trimText input.raw = ""
      · unfold ingest
        rw [if_pos hraw]
        exact ⟨hs, (and_iff_left fun _ haside => haside.1 hraw).symm⟩
      · obtain ⟨row, result?, hwritten⟩ := ingest_written deps hs.unhydrated hraw
        exact hwritten.step hs
    refine ⟨hstep.1, hstep.2.trans ⟨fun h before other after heq => ?_, fun h => ⟨hiff.2 fun before other after heq => ?_, h inputs input [] rfl⟩⟩⟩
    · rcases List.eq_nil_or_concat after with rfl | ⟨rest, last, rfl⟩
      · obtain ⟨rfl, hlast⟩ := List.append_inj' heq rfl
        exact (List.cons.inj hlast).1 ▸ h.2
      · rw [concat_eq_append, ← cons_append, ← append_assoc] at heq
        exact hiff.1 h.1 before other rest (List.append_inj' heq rfl).1
    · exact h before other (after ++ [input]) (by rw [heq, append_assoc, cons_append])

/-- A prompt of unknown parentage is the one duplicate that the ledger reports. -/
theorem prompt_counted_twice : ¬∀ (deps : HookIngestionDeps) (inputs : List IngestInput) (id : String),
    Agrees ((start.ingestAll deps inputs).stats id) (((start.ingestAll deps inputs).getActivityMeta id).getD {}) := by
  intro h
  have hduplicate := (h racedDeps [promptArrival.firstInput "kookr-1"] "kookr-1").duplicate
  exact absurd hduplicate (by decide +kernel)

end Kookr.Server.HookIngestion
