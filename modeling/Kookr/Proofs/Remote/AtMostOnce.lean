import Kookr.Sanity.Remote.DeliveryStages
import Kookr.Proofs.Remote.OutcomeTruth

/-! At most one execution for each idempotency tuple. `begin` and the first part of
`appendIntent` run in one synchronous block, so the first delivery that passes its checks
leaves an entry under the key of its tuple and every later one finds it, as long as `prune`
lets the entry stand. -/

namespace Kookr.Remote

open Kookr.Lib PipelineRun List Option

def PipelinePc.isReturned : PipelinePc → Bool
  | .returned _ => true
  | _ => false

/-- A delivery comes out of `validate`, to `begin`. -/
def PipelineEvent.passesChecks : PipelineEvent → Bool
  | .validated _ .ok _ => true
  | _ => false

namespace PipelineRun

/-- `prune`, which `begin` runs, lets the entry of the key stand. -/
def KeepsEntry (cfg : JournalConfig) (key : String) (s : PipelineRun) : PipelineEvent → Prop
  | .validated _ .ok now => s.world.mem.idempotency.has key = true →
      (s.world.mem.prune cfg now).idempotency.has key = true
  | _ => True

instance (cfg : JournalConfig) (key : String) (s : PipelineRun) (e : PipelineEvent) :
    Decidable (s.KeepsEntry cfg key e) := by
  unfold KeepsEntry
  split <;> infer_instance

def keyAt (s : PipelineRun) (i : ℕ) : Option String :=
  s.requests[i]?.map fun request => tupleKey request.toIdempotencyTuple

/-- Delivery `i`, of this key, recorded its intent. -/
def Intended (s : PipelineRun) (key : String) (i : ℕ) : Prop :=
  .intended i ∈ s.trace ∧ s.keyAt i = some key

/-- A result that an execution under the key recorded, or that the journal had for the key
when it was opened. -/
def RecordedFor (s : PipelineRun) (opened : Option (Option CommandResult)) (key : String) (r : CommandResult) : Prop :=
  (∃ i, s.Intended key i ∧ .recorded i r ∈ s.trace) ∨ opened = some (some r)

/-- What a delivery that is not to execute returns. -/
def Answered (s : PipelineRun) (opened : Option (Option CommandResult)) (key : String) (dlv : Delivery) : Prop :=
  dlv.pc = .returned (replayOf dlv.request none) ∨
    ∃ r, s.RecordedFor opened key r ∧ dlv.pc = .returned (replayOf dlv.request (some r))

structure OnceInv (opened : Option (Option CommandResult)) (key : String) (s : PipelineRun) : Prop
    extends LifeInv s where
  unique : ∀ i j, s.Intended key i → s.Intended key j → i = j
  held : ∀ i, s.Intended key i → s.world.mem.slot key ≠ none ∧ opened = none
  kept : opened ≠ none → s.world.mem.slot key ≠ none
  result : ∀ r, s.world.mem.slot key = some (some r) → s.RecordedFor opened key r
  answered : ∀ q dlv, .passed q ∈ s.trace → s.deliveries[q]? = some dlv →
    tupleKey dlv.request.toIdempotencyTuple = key → .intended q ∈ s.trace ∨ s.Answered opened key dlv

variable {cfg : JournalConfig} {s s' : PipelineRun} {e : PipelineEvent} {key : String}
  {opened : Option (Option CommandResult)} {r : CommandResult}

theorem OnceInv.init (cfg : JournalConfig) (d : Disk) (key : String) :
    OnceInv ((openJournal cfg d).mem.slot key) key (.init cfg d) := by
  refine ⟨LifeInv.init cfg d, ?_, ?_, fun h => h, fun r hr => .inr hr, ?_⟩
  · rintro i j ⟨hi, -⟩
    cases hi
  · rintro i ⟨hi, -⟩
    cases hi
  · intro q dlv hq
    cases hq

theorem keyAt_of_delivery {i : ℕ} {dlv : Delivery} (hi : s.deliveries[i]? = some dlv) :
    s.keyAt i = some (tupleKey dlv.request.toIdempotencyTuple) := by
  unfold keyAt
  rw [getElem?_requests hi]
  rfl

section

variable (h : s.step cfg e = some s')
include h

theorem keyAt_of_step {i : ℕ} {k : String} (hi : s.keyAt i = some k) : s'.keyAt i = some k := by
  obtain ⟨request, hreq, rfl⟩ := map_eq_some_iff.1 hi
  unfold keyAt
  rw [getElem?_requests_of_step h hreq]
  rfl

omit h in
theorem keyAt_eq_of_step (hb : s.TraceBounded) (h : s.step cfg e = some s') {x : PipelineEffect}
    (hx : x ∈ s'.trace) {i : ℕ} (hi : x.delivery = some i) : s'.keyAt i = s.keyAt i := by
  unfold keyAt
  rw [hb.request_eq h hx hi]

theorem returned_of_step {q : ℕ} {request : CommandEnvelope} (hq : s.deliveries[q]? = some ⟨request, .returned r⟩) :
    s'.deliveries[q]? = some ⟨request, .returned r⟩ := by
  have hset : ∀ {i : ℕ} {dlv dlv' : Delivery}, s.deliveries[i]? = some dlv →
      dlv.pc.isReturned = false → (s.deliveries.set i dlv')[q]? = some ⟨request, .returned r⟩ := by
    intro i dlv dlv' hi hpc
    have hne : i ≠ q := by
      rintro rfl
      rw [hq] at hi
      cases hi
      cases hpc
    rw [getElem?_set_ne hne]
    exact hq
  have hadd : ∀ dlv : Delivery, (s.deliveries ++ [dlv])[q]? = some ⟨request, .returned r⟩ := by
    intro dlv
    rw [List.getElem?_append_left (List.getElem?_eq_some_iff.1 hq).1]
    exact hq
  cases move_of_step h with
  | accept | turnAway => exact hadd _
  | authorized hi => exact hset hi rfl
  | refused hi hcause | checkThrew hi hcause => exact hset hi (by rcases hcause with ⟨rfl, -⟩ | ⟨rfl, -⟩ <;> rfl)
  | validated hi =>
    unfold validated
    split
    · exact hset hi rfl
    · exact hset hi rfl
  | start hi | succeed hi => exact hset hi rfl
  | fail hi hcause => exact hset hi (by rcases hcause with ⟨rfl, -⟩ | ⟨rfl, -⟩ <;> rfl)
  | @io i request pc append now ok hi hp =>
    apply hset hi
    cases pc <;> cases hp <;> rfl
  | revoke | revokeIo => exact hq

theorem Intended.of_step {i : ℕ} (hi : s.Intended key i) : s'.Intended key i :=
  ⟨mem_trace_of_step h hi.1, keyAt_of_step h hi.2⟩

theorem RecordedFor.of_step (hr : s.RecordedFor opened key r) : s'.RecordedFor opened key r := by
  rcases hr with ⟨i, hi, hrec⟩ | hopen
  · exact .inl ⟨i, hi.of_step h, mem_trace_of_step h hrec⟩
  · exact .inr hopen

omit h in
theorem OnceInv.answered_of_step (hinv : OnceInv opened key s) (h : s.step cfg e = some s') {q : ℕ}
    {dlv : Delivery} (hq : .passed q ∈ s.trace) (hd : s'.deliveries[q]? = some dlv)
    (hkey : tupleKey dlv.request.toIdempotencyTuple = key) : .intended q ∈ s'.trace ∨ s'.Answered opened key dlv := by
  obtain ⟨dlv₀, hd₀⟩ : ∃ dlv₀, s.deliveries[q]? = some dlv₀ := by
    have hlt := hinv.bounded _ hq q rfl
    rw [requests, length_map] at hlt
    exact ⟨_, getElem?_eq_getElem hlt⟩
  have hreq : dlv₀.request = dlv.request := by
    have hstay := getElem?_requests_of_step h (getElem?_requests hd₀)
    exact some.inj (hstay.symm.trans (getElem?_requests hd))
  rcases hinv.answered q dlv₀ hq hd₀ (hreq ▸ hkey) with hintended | hans
  · exact .inl (mem_trace_of_step h hintended)
  · refine .inr ?_
    obtain ⟨request₀, pc₀⟩ := dlv₀
    have hsame : ∀ r, pc₀ = .returned r → dlv.pc = .returned r := by
      rintro r rfl
      rw [returned_of_step h hd₀] at hd
      rw [← some.inj hd]
    obtain rfl : request₀ = dlv.request := hreq
    rcases hans with hnone | ⟨r, hr, hsome⟩
    · exact .inl (hsame _ hnone)
    · exact .inr ⟨r, hr.of_step h, hsame _ hsome⟩

omit h in
theorem OnceInv.keep (hinv : OnceInv opened key s) (h : s.step cfg e = some s')
    (hpassed : ∀ i, s.keyAt i = some key → .passed i ∈ s'.trace → .passed i ∈ s.trace)
    (hintended : ∀ i, s.keyAt i = some key → .intended i ∈ s'.trace → .intended i ∈ s.trace)
    (hnone : s'.world.mem.slot key = none → s.world.mem.slot key = none)
    (hres : ∀ r, s'.world.mem.slot key = some (some r) → s.world.mem.slot key = some (some r) ∨
      ∃ i, s.Intended key i ∧ .recorded i r ∈ s'.trace) : OnceInv opened key s' := by
  have hlife := hinv.toLifeInv.step h
  have hold : ∀ i, s'.Intended key i → s.Intended key i := by
    rintro i ⟨hi, hk⟩
    rw [keyAt_eq_of_step hinv.bounded h hi rfl] at hk
    exact ⟨hintended i hk hi, hk⟩
  refine ⟨hlife, ?_, ?_, ?_, ?_, ?_⟩
  · intro i j hi hj
    exact hinv.unique i j (hold i hi) (hold j hj)
  · intro i hi
    obtain ⟨hslot, hopen⟩ := hinv.held i (hold i hi)
    exact ⟨fun hn => hslot (hnone hn), hopen⟩
  · intro hopen hn
    exact hinv.kept hopen (hnone hn)
  · intro r hr
    rcases hres r hr with hr | ⟨i, hi, hrec⟩
    · exact (hinv.result r hr).of_step h
    · exact .inl ⟨i, hi.of_step h, hrec⟩
  · intro q dlv hq hd hk
    have hkeyq : s.keyAt q = some key := by
      rw [← keyAt_eq_of_step hinv.bounded h hq rfl, keyAt_of_delivery hd, hk]
    exact hinv.answered_of_step h (hpassed q hkeyq hq) hd hk

theorem mem_of_step (he : e.passesChecks = false) (i : ℕ) :
    (.passed i ∈ s'.trace → .passed i ∈ s.trace) ∧ (.intended i ∈ s'.trace → .intended i ∈ s.trace) := by
  obtain ⟨effects, htrace, -, hocc⟩ := trace_of_step h
  rw [htrace]
  refine ⟨fun hi => ?_, fun hi => ?_⟩
  · rcases mem_append.1 hi with hi | hi
    · exact hi
    · obtain ⟨_, now, _, rfl⟩ := hocc _ hi
      cases he
  · rcases mem_append.1 hi with hi | hi
    · exact hi
    · obtain ⟨_, now, _, rfl⟩ := hocc _ hi
      cases he

end

theorem OnceInv.same_slot (hinv : OnceInv opened key s) (h : s.step cfg e = some s') (he : e.passesChecks = false)
    (hslot : s'.world.mem.idempotency = s.world.mem.idempotency) : OnceInv opened key s' := by
  have hsame : s'.world.mem.slot key = s.world.mem.slot key := by
    unfold JournalState.slot
    rw [hslot]
  refine hinv.keep h (fun i _ => (mem_of_step h he i).1) (fun i _ => (mem_of_step h he i).2) ?_ ?_
  · rw [hsame]
    exact id
  · rw [hsame]
    exact fun r hr => .inl hr

theorem OnceInv.record (hinv : OnceInv opened key s) (h : s.step cfg e = some s')
    (he : e.passesChecks = false) {i : ℕ} {request : CommandEnvelope}
    {now : Timestamp} (hi : s.keyAt i = some (tupleKey request.toIdempotencyTuple))
    (hintended : .intended i ∈ s.trace) (hrec : .recorded i r ∈ s'.trace)
    (hmem : s'.world.mem = (s.world.mem.appendResult request r now).1) : OnceInv opened key s' := by
  refine hinv.keep h (fun i _ => (mem_of_step h he i).1) (fun i _ => (mem_of_step h he i).2) ?_ ?_
  · rw [hmem, JournalState.appendResult_slot]
    split
    · rw [map_eq_none_iff]
      exact id
    · exact id
  · intro r' hr'
    rw [hmem, JournalState.appendResult_slot] at hr'
    split at hr'
    · rename_i hk
      obtain ⟨x, -, hx⟩ := map_eq_some_iff.1 hr'
      cases hx
      exact .inr ⟨i, ⟨hintended, hk ▸ hi⟩, hrec⟩
    · exact .inl hr'

section Validated

variable {i : ℕ} {request : CommandEnvelope} {now : Timestamp}

theorem validated_replay {replay : CommandResult} (hb : (s.world.mem.begin cfg request now).2 = some replay) :
    s.validated cfg i request now = ((s.withMem (s.world.mem.begin cfg request now).1).goto i request (.returned replay)).note
        [.passed i] := by
  unfold validated
  split
  · rename_i mem r heq
    rw [heq] at hb ⊢
    cases hb
    rfl
  · rename_i mem heq
    rw [heq] at hb
    cases hb

theorem validated_fresh (hb : (s.world.mem.begin cfg request now).2 = none) : s.validated cfg i request now =
      ((s.withMem ((s.world.mem.begin cfg request now).1.appendIntent request now).1).goto i request (.appendIntent (.mkdirAudit
          ((s.world.mem.begin cfg request now).1.appendIntent request now).2))).note [.passed i, .intended i] := by
  unfold validated
  split
  · rename_i mem r heq
    rw [heq] at hb
    cases hb
  · rename_i mem heq
    rw [heq]

/-- The trace of a delivery that passed grows by its own effects. -/
theorem mem_validated {x : PipelineEffect} (hx : x ∈ (s.validated cfg i request now).trace) :
    x ∈ s.trace ∨ x.delivery = some i := by
  unfold validated at hx
  split at hx
  · rcases mem_append.1 hx with hx | hx
    · exact .inl hx
    · obtain rfl := mem_singleton.1 hx
      exact .inr rfl
  · rcases mem_append.1 hx with hx | hx
    · exact .inl hx
    · rcases mem_pair.1 hx with rfl | rfl
      · exact .inr rfl
      · exact .inr rfl

theorem slot_validated_of_ne
    (hkeep : s.world.mem.idempotency.has key = true → (s.world.mem.prune cfg now).idempotency.has key = true)
    (hne : tupleKey request.toIdempotencyTuple ≠ key) :
    (s.validated cfg i request now).world.mem.slot key = s.world.mem.slot key := by
  have hslot := (JournalState.begin_slot request hkeep).1
  cases hb : (s.world.mem.begin cfg request now).2 with
  | some replay =>
    rw [validated_replay hb]
    exact hslot
  | none =>
    rw [validated_fresh hb]
    refine Eq.trans ?_ hslot
    exact JournalState.appendIntent_slot.trans (if_neg hne)

theorem OnceInv.validated_other (hinv : OnceInv opened key s) (hi : s.deliveries[i]? = some ⟨request, .validate⟩)
    (h : s.step cfg e = some (s.validated cfg i request now))
    (hkeep : s.world.mem.idempotency.has key = true → (s.world.mem.prune cfg now).idempotency.has key = true)
    (hne : tupleKey request.toIdempotencyTuple ≠ key) : OnceInv opened key (s.validated cfg i request now) := by
  have hslot := slot_validated_of_ne (i := i) hkeep hne
  have hold : ∀ x : PipelineEffect, ∀ j, x.delivery = some j → s.keyAt j = some key →
      x ∈ (s.validated cfg i request now).trace → x ∈ s.trace := by
    intro x j hxj hj hx
    rcases mem_validated hx with hx | hxi
    · exact hx
    · obtain rfl : j = i := some.inj (hxj.symm.trans hxi)
      rw [keyAt_of_delivery hi] at hj
      exact absurd (some.inj hj) hne
  refine hinv.keep h (fun j hj => hold _ j rfl hj) (fun j hj => hold _ j rfl hj) ?_ ?_
  · rw [hslot]
    exact id
  · rw [hslot]
    exact fun r hr => .inl hr

theorem OnceInv.validated_fresh (hinv : OnceInv opened key s) (h : s.step cfg e = some (s.validated cfg i request now))
    (hkeep : s.world.mem.idempotency.has key = true → (s.world.mem.prune cfg now).idempotency.has key = true)
    (hkey : tupleKey request.toIdempotencyTuple = key) (hslot : s.world.mem.slot key = none) :
    OnceInv opened key (s.validated cfg i request now) := by
  obtain ⟨-, hans⟩ := JournalState.begin_slot request hkeep
  have hb : (s.world.mem.begin cfg request now).2 = none := by rw [hans hkey, hslot]; rfl
  have heq := PipelineRun.validated_fresh (i := i) hb
  have hslot' : (s.validated cfg i request now).world.mem.slot key = some none := by
    rw [heq]
    exact JournalState.appendIntent_slot.trans (if_pos hkey)
  have htrace : (s.validated cfg i request now).trace = s.trace ++ [.passed i, .intended i] := by
    rw [heq]
    rfl
  -- an earlier intent would have left an entry
  have hfirst : ∀ j, (s.validated cfg i request now).Intended key j → j = i := by
    rintro j ⟨hj, hk⟩
    rcases mem_validated hj with hold | hij
    · rw [keyAt_eq_of_step hinv.bounded h hj rfl] at hk
      exact absurd hslot (hinv.held j ⟨hold, hk⟩).1
    · exact some.inj hij
  refine ⟨hinv.toLifeInv.step h, ?_, ?_, ?_, ?_, ?_⟩
  · intro j k hj hk
    rw [hfirst j hj, hfirst k hk]
  · intro j _
    refine ⟨by simp [hslot'], ?_⟩
    by_contra hopen
    exact hinv.kept hopen hslot
  · simp [hslot']
  · simp [hslot']
  · intro q dlv hq hd hk
    rcases mem_validated hq with hold | hqi
    · exact hinv.answered_of_step h hold hd hk
    · obtain rfl : q = i := some.inj hqi
      exact .inl (by simp [htrace])

theorem OnceInv.validated_replay (hinv : OnceInv opened key s) (hi : s.deliveries[i]? = some ⟨request, .validate⟩)
    (h : s.step cfg e = some (s.validated cfg i request now))
    (hkeep : s.world.mem.idempotency.has key = true → (s.world.mem.prune cfg now).idempotency.has key = true)
    (hkey : tupleKey request.toIdempotencyTuple = key) {x : Option CommandResult}
    (hslot : s.world.mem.slot key = some x) : OnceInv opened key (s.validated cfg i request now) := by
  obtain ⟨hsame, hans⟩ := JournalState.begin_slot request hkeep
  have hb : (s.world.mem.begin cfg request now).2 = some (replayOf request x) := by
    rw [hans hkey, hslot]
    rfl
  have heq := PipelineRun.validated_replay (i := i) hb
  have hslot' : (s.validated cfg i request now).world.mem.slot key = some x := by
    rw [heq, ← hslot]
    exact hsame
  have htrace : (s.validated cfg i request now).trace = s.trace ++ [.passed i] := by
    rw [heq]
    rfl
  have hold : ∀ j, (s.validated cfg i request now).Intended key j → s.Intended key j := by
    rintro j ⟨hj, hk⟩
    rw [keyAt_eq_of_step hinv.bounded h hj rfl] at hk
    rw [htrace] at hj
    exact ⟨by simpa using hj, hk⟩
  have hres : ∀ r, x = some r → (s.validated cfg i request now).RecordedFor opened key r := by
    rintro r rfl
    exact (hinv.result r hslot).of_step h
  refine ⟨hinv.toLifeInv.step h, ?_, ?_, ?_, ?_, ?_⟩
  · intro j k hj hk
    exact hinv.unique j k (hold j hj) (hold k hk)
  · intro j hj
    exact ⟨by simp [hslot'], (hinv.held j (hold j hj)).2⟩
  · simp [hslot']
  · intro r hr
    rw [hslot'] at hr
    exact hres r (some.inj hr)
  · intro q dlv hq hd hk
    rcases mem_validated hq with hpast | hqi
    · exact hinv.answered_of_step h hpast hd hk
    · obtain rfl : q = i := some.inj hqi
      have hget : (s.validated cfg q request now).deliveries[q]? =
          some ⟨request, .returned (replayOf request x)⟩ := by
        rw [heq]
        exact getElem?_goto_self hi
      rw [hget] at hd
      cases hd
      refine .inr ?_
      cases x with
      | none => exact .inl rfl
      | some r => exact .inr ⟨r, hres r rfl, rfl⟩

end Validated

theorem OnceInv.step (hinv : OnceInv opened key s) (hok : s.KeepsEntry cfg key e)
    (h : s.step cfg e = some s') : OnceInv opened key s' := by
  cases move_of_step h with
  | accept | turnAway | authorized hi => exact hinv.same_slot h rfl rfl
  | refused hi hcause | checkThrew hi hcause =>
    rcases hcause with ⟨-, rfl⟩ | ⟨-, rfl⟩
    · exact hinv.same_slot h rfl rfl
    · exact hinv.same_slot h rfl rfl
  | @validated i request now hi =>
    by_cases hkey : tupleKey request.toIdempotencyTuple = key
    · cases hslot : s.world.mem.slot key with
      | none => exact hinv.validated_fresh h hok hkey hslot
      | some x => exact hinv.validated_replay hi h hok hkey hslot
    · exact hinv.validated_other hi h hok hkey
  | start hi => exact hinv.same_slot h rfl rfl
  | @succeed i request result now hi =>
    have hstage := hinv.stage i _ hi
    have hrec : .recorded i (acceptedResult request result) ∈ ((s.note [.succeeded i]).record i request
        (acceptedResult request result) .appendAccepted now).trace := mem_append_right _ (by simp)
    exact hinv.record h rfl (keyAt_of_delivery hi) hstage.1 hrec rfl
  | @fail i request pc error now e hi hcause =>
    have hstage := hinv.stage i _ hi
    have hrec : .recorded i (rejectedResult request error) ∈ (s.record i request
        (rejectedResult request error) .appendRejected now).trace := mem_append_right _ (by simp)
    rcases hcause with ⟨rfl, rfl⟩ | ⟨rfl, rfl⟩
    · exact hinv.record h rfl (keyAt_of_delivery hi) hstage.1 hrec rfl
    · exact hinv.record h rfl (keyAt_of_delivery hi) hstage.1 hrec rfl
  | io hi hp => exact hinv.same_slot h rfl (appendStep_mem ..).1
  | revoke => exact hinv.same_slot h rfl rfl
  | revokeIo => exact hinv.same_slot h rfl (appendStep_mem ..).1

/-- The deliveries of a tuple whose `execute` was started. -/
def startsOf (s : PipelineRun) (t : IdempotencyTuple) : List ℕ :=
  s.starts.filter fun i => s.requests[i]?.any fun request => request.toIdempotencyTuple = t

theorem mem_startsOf {t : IdempotencyTuple} {i : ℕ} : i ∈ s.startsOf t ↔ .started i ∈ s.trace ∧
    ∃ request, s.requests[i]? = some request ∧ request.toIdempotencyTuple = t := by
  unfold startsOf starts
  rw [mem_filter, mem_starts, Option.any_eq_true]
  simp only [decide_eq_true_eq]

theorem OnceInv.intended_of_start {t : IdempotencyTuple} (hinv : OnceInv opened (tupleKey t) s) {i : ℕ}
    (hi : i ∈ s.startsOf t) : s.Intended (tupleKey t) i := by
  obtain ⟨hstart, request, hreq, rfl⟩ := mem_startsOf.1 hi
  refine ⟨hinv.started i hstart, ?_⟩
  unfold keyAt
  rw [hreq]
  rfl

end PipelineRun

/-- As long as the entry of a tuple is not pruned, `execute` is started at most once for
the tuple; any other delivery of it that passes its checks returns a result of that
execution, or that the intent has no result yet. Before an execution, the answers come
from the one delivery that recorded the intent, or from the journal as it was opened. -/
theorem executed_at_most_once (cfg : JournalConfig) (d : Disk) (t : IdempotencyTuple) {es : List PipelineEvent} {s : PipelineRun}
    (hmeet : StepsMeet (step cfg) (PipelineRun.KeepsEntry cfg (tupleKey t)) (.init cfg d) es)
    (hrun : exec (step cfg) (.init cfg d) es = some s) : (s.startsOf t).length ≤ 1 ∧
    (∀ p ∈ s.startsOf t, ∀ q dlv, q ≠ p → .passed q ∈ s.trace → s.deliveries[q]? = some dlv →
      dlv.request.toIdempotencyTuple = t → dlv.pc = .returned (replayOf dlv.request none) ∨
        ∃ r, .recorded p r ∈ s.trace ∧ dlv.pc = .returned (replayOf dlv.request (some r))) ∧
    ∀ q dlv, .passed q ∈ s.trace → s.deliveries[q]? = some dlv → dlv.request.toIdempotencyTuple = t →
      (.intended q ∈ s.trace ∧ ∀ q', s.Intended (tupleKey t) q' → q' = q) ∨
        s.Answered ((openJournal cfg d).mem.slot (tupleKey t)) (tupleKey t) dlv := by
  have hinv : PipelineRun.OnceInv ((openJournal cfg d).mem.slot (tupleKey t)) (tupleKey t) s :=
    exec_invariant (fun _ _ _ hi hok h => hi.step hok h) (PipelineRun.OnceInv.init cfg d (tupleKey t))
      hmeet hrun
  have hkey : ∀ {q : ℕ} {dlv : Delivery}, s.deliveries[q]? = some dlv →
      dlv.request.toIdempotencyTuple = t → s.keyAt q = some (tupleKey t) := by
    rintro q dlv hd rfl
    exact keyAt_of_delivery hd
  refine ⟨?_, ?_, ?_⟩
  · have hnodup : (s.startsOf t).Nodup := hinv.starts_nodup.filter _
    have hall : ∀ i ∈ s.startsOf t, ∀ j ∈ s.startsOf t, i = j := fun i hi j hj =>
      hinv.unique i j (hinv.intended_of_start hi) (hinv.intended_of_start hj)
    by_contra hlen
    obtain ⟨i, j, rest, hl⟩ : ∃ i j rest, s.startsOf t = i :: j :: rest := by
      match hl : s.startsOf t with
      | [] | [_] => simp [hl] at hlen
      | i :: j :: rest => exact ⟨i, j, rest, rfl⟩
    rw [hl] at hnodup hall
    have hij : i = j := hall i (by simp) j (by simp)
    simp [hij] at hnodup
  · intro p hp q dlv hqp hq hd ht
    have hint := hinv.intended_of_start hp
    rcases hinv.answered q dlv hq hd (ht ▸ rfl) with hq' | hnone | ⟨r, hr, hret⟩
    · exact absurd (hinv.unique q p ⟨hq', hkey hd ht⟩ hint) hqp
    · exact .inl hnone
    · refine .inr ⟨r, ?_, hret⟩
      rcases hr with ⟨i, hi, hrec⟩ | hopen
      · rwa [← hinv.unique i p hi hint]
      · rw [(hinv.held p hint).2] at hopen
        cases hopen
  · intro q dlv hq hd ht
    rcases hinv.answered q dlv hq hd (ht ▸ rfl) with hq' | hans
    · exact .inl ⟨hq', fun q' hq'' => hinv.unique q' q hq'' ⟨hq', hkey hd ht⟩⟩
    · exact .inr hans

/-- Two deliveries of one command pass their checks together; a third comes after the
result is recorded. -/
def racedDeliveries : List PipelineEvent :=
  [.deliver skipCommand .skip epochStart, .deliver skipCommand .skip epochStart,
    .authorized 0 .ok epochStart, .authorized 1 .ok epochStart,
    .validated 0 .ok epochStart, .validated 1 .ok epochStart] ++
  List.replicate 2 (.io 0 epochStart true) ++
  [.start 0, .executed 0 (.resolved none) epochStart] ++ List.replicate 2 (.io 0 epochStart true) ++
  [.deliver skipCommand .skip epochStart, .authorized 2 .ok epochStart, .validated 2 .ok epochStart]

theorem stepsMeet_racedDeliveries : StepsMeet (step unrotatedConfig)
      (PipelineRun.KeepsEntry unrotatedConfig (tupleKey skipCommand.toIdempotencyTuple))
      (.init unrotatedConfig .empty) racedDeliveries := by
  decide +kernel

theorem executed_at_most_once_racedDeliveries : ∃ s,
    exec (step unrotatedConfig) (.init unrotatedConfig .empty) racedDeliveries = some s ∧
    s.startsOf skipCommand.toIdempotencyTuple = [0] ∧
    ∃ dlv, s.deliveries[2]? = some dlv ∧ dlv.request.toIdempotencyTuple = skipCommand.toIdempotencyTuple ∧
      (dlv.pc = .returned (replayOf dlv.request none) ∨
        ∃ r, .recorded 0 r ∈ s.trace ∧ dlv.pc = .returned (replayOf dlv.request (some r))) := by
  have hany : (exec (step unrotatedConfig) (.init unrotatedConfig .empty) racedDeliveries).any
      (fun s => decide (0 ∈ s.startsOf skipCommand.toIdempotencyTuple) &&
        s.trace.any (fun | .passed i => i == 2 | _ => false) &&
        s.deliveries[2]?.any fun dlv =>
          decide (dlv.request.toIdempotencyTuple = skipCommand.toIdempotencyTuple)) = true := by
    decide +kernel
  obtain ⟨s, hs, hp⟩ := (any_eq_true _ _).1 hany
  simp only [Bool.and_eq_true, decide_eq_true_eq] at hp
  obtain ⟨⟨hstart, htrace⟩, hd⟩ := hp
  obtain ⟨dlv, hdlv, ht⟩ := (any_eq_true _ _).1 hd
  have hpassed : .passed 2 ∈ s.trace := by
    obtain ⟨x, hx, hx2⟩ := any_eq_true.1 htrace
    cases x <;> simp at hx2
    exact hx2 ▸ hx
  obtain ⟨hlen, hothers, -⟩ := executed_at_most_once unrotatedConfig .empty skipCommand.toIdempotencyTuple
    stepsMeet_racedDeliveries hs
  have hone : s.startsOf skipCommand.toIdempotencyTuple = [0] := by
    match hl : s.startsOf skipCommand.toIdempotencyTuple with
    | [] => simp [hl] at hstart
    | [i] => simpa [hl, eq_comm] using hstart
    | i :: j :: rest => simp [hl] at hlen
  exact ⟨s, hs, hone, dlv, hdlv, of_decide_eq_true ht,
    hothers 0 hstart 2 dlv (by decide) hpassed hdlv (of_decide_eq_true ht)⟩

end Kookr.Remote
