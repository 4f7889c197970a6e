import Kookr.Spec.Core.DigestDeliveryOutbox

/-! Posts and crashes of the digest outbox. An attempt is counted before its post, and a confirmed post that is written ends the
posts of its key. A crash between the count of the last attempt and its result leaves a record that no later call touches. -/

namespace Kookr.Core

open Kookr.Lib DigestTexts DigestOutbox Option OrderedMap Nat

variable {texts : DigestTexts} {M : ℕ} {outbox : DigestOutbox} {file : List DigestDeliveryRecord} {key : String}
  {record : DigestDeliveryRecord} {calls : List DigestCall} {opts : ReconcileOpts} {call : DigestCall} {step : DurableStep}

def recordAt (texts : DigestTexts) (file : List DigestDeliveryRecord) (key : String) : Option DigestDeliveryRecord :=
  (texts.readDigestRecords file).get key

/-- A file as the outbox writes it: valid records under distinct keys. -/
structure DigestFile (texts : DigestTexts) (file : List DigestDeliveryRecord) : Prop where
  valid : ∀ record ∈ file, texts.isValidRecord record = true
  nodup : (file.map DigestDeliveryRecord.key).Nodup

theorem recordAt_self (h : recordAt texts file key = some record) : record.key = key ∧ texts.isValidRecord record = true := by
  obtain ⟨hmem, hkey⟩ := rowAt_mem h
  exact ⟨hkey, (List.mem_filter.1 hmem).2⟩

theorem DigestFile.recordAt_iff (h : DigestFile texts file) : recordAt texts file key = some record ↔ record ∈ file ∧ record.key = key := by
  have hread : texts.readDigestRecords file = mapBy DigestDeliveryRecord.key file := by
    unfold DigestTexts.readDigestRecords
    rw [List.filter_eq_self.2 h.valid]
  unfold recordAt
  rw [hread]
  exact rowAt_eq_some_iff h.nodup

theorem write_read (texts : DigestTexts) {m : OrderedMap String DigestDeliveryRecord}
    (hm : ∀ key record, m.get key = some record → record.key = key ∧ texts.isValidRecord record = true) :
    DigestFile texts (texts.writeDigestRecords m) ∧ ∀ key, recordAt texts (texts.writeDigestRecords m) key = m.get key := by
  have hmem : ∀ record, record ∈ texts.writeDigestRecords m ↔ m.get record.key = some record := by
    intro record
    rw [DigestTexts.writeDigestRecords, DigestTexts.sortByKey, List.mem_insertionSort, mem_values_iff]
    constructor
    · rintro ⟨key, hget⟩
      rwa [(hm key record hget).1]
    · exact fun hget => ⟨_, hget⟩
  have hperm : (texts.writeDigestRecords m).Perm m.values := List.perm_insertionSort _ _
  have hfile : DigestFile texts (texts.writeDigestRecords m) := by
    refine ⟨fun record hrecord => (hm _ record ((hmem record).1 hrecord)).2, ?_⟩
    rw [(hperm.map DigestDeliveryRecord.key).nodup_iff, m.values_map_eq_keys _ fun key record hget => (hm key record hget).1]
    exact m.nodup_keys
  refine ⟨hfile, fun key => ext fun record => ?_⟩
  rw [hfile.recordAt_iff, hmem]
  constructor
  · rintro ⟨hget, rfl⟩
    exact hget
  · intro hget
    have hkey := (hm key record hget).1
    subst hkey
    exact ⟨hget, rfl⟩

theorem keyed_iff (h : DigestFile texts file) : keyed key file = true ↔ (recordAt texts file key).isSome = true := by
  rw [isSome_iff_exists, keyed, List.any_eq_true]
  simp only [h.recordAt_iff, decide_eq_true_eq]

@[simp] theorem take_trace (outbox : DigestOutbox) (step : DurableStep) : (outbox.take step).trace = outbox.trace ++ [step] := rfl

section Concat

variable (key : String) (trace : List DurableStep) (records : List DigestDeliveryRecord) (request : ControlRoomPost)
  (result : ControlRoomPostResult)

@[simp] theorem postsSince_saved : postsSince key (trace ++ [.saved records]) = postsSince key trace := by
  simp [postsSince]

@[simp] theorem postsSince_posting : postsSince key (trace ++ [.posting request records]) = postsSince key trace := by
  simp [postsSince]

@[simp] theorem postsSince_post : postsSince key (trace ++ [.post request result]) =
    if request.key = key then postsSince key trace + 1 else postsSince key trace := by
  simp [postsSince]

@[simp] theorem postsSince_settled : postsSince key (trace ++ [.settled request result records]) = postsSince key trace := by
  simp [postsSince]

@[simp] theorem postsSince_pruned : postsSince key (trace ++ [.pruned records]) =
    if keyed key records then postsSince key trace else 0 := by
  simp [postsSince]

@[simp] theorem confirmedSince_saved : confirmedSince key (trace ++ [.saved records]) = confirmedSince key trace := by
  simp [confirmedSince]

@[simp] theorem confirmedSince_posting : confirmedSince key (trace ++ [.posting request records]) = confirmedSince key trace := by
  simp [confirmedSince]

@[simp] theorem confirmedSince_post : confirmedSince key (trace ++ [.post request result]) = confirmedSince key trace := by
  simp [confirmedSince]

@[simp] theorem confirmedSince_pruned : confirmedSince key (trace ++ [.pruned records]) =
    (confirmedSince key trace && keyed key records) := by
  simp [confirmedSince]

theorem confirmedSince_settled (h : confirmedSince key (trace ++ [.settled request result records]) = true) :
    confirmedSince key trace = true ∨ request.key = key ∧ ∃ messageId, result = .confirmed messageId := by
  unfold confirmedSince at h
  rw [List.foldl_append] at h
  cases result with
  | confirmed messageId =>
    simp only [List.foldl_cons, List.foldl_nil, Bool.or_eq_true, decide_eq_true_eq] at h
    exact h.imp_right fun hkey => ⟨hkey, messageId, rfl⟩
  | _ => exact .inl h

end Concat

/-- No post for a key follows a confirmed one that was written. -/
def PostsOpen (before : List DurableStep) (step : DurableStep) : Prop :=
  ∀ request result, step = .post request result → confirmedSince request.key before = false

/-- The records count the posts, and keep the ones that were confirmed. -/
structure Ledger (texts : DigestTexts) (M : ℕ) (outbox : DigestOutbox) : Prop where
  file : DigestFile texts outbox.file
  counted : ∀ key, postsSince key outbox.trace ≤ ((recordAt texts outbox.file key).map DigestDeliveryRecord.attemptCount).getD 0
  bounded : ∀ key record, recordAt texts outbox.file key = some record → record.attemptCount ≤ M
  confirmed : ∀ key, confirmedSince key outbox.trace = true →
    ∃ record, recordAt texts outbox.file key = some record ∧ record.state = .posted
  opens : Along PostsOpen outbox.trace

theorem Ledger.start (texts : DigestTexts) (M : ℕ) : Ledger texts M .start where
  file := ⟨nofun, List.nodup_nil⟩
  counted := fun _ => zero_le _
  bounded := fun _ _ h => nomatch h
  confirmed := fun _ h => nomatch h
  opens := along_nil

section

variable (h : Ledger texts M outbox)
include h

theorem Ledger.posts_le (key : String) : postsSince key outbox.trace ≤ M := by
  refine (h.counted key).trans ?_
  cases hget : recordAt texts outbox.file key with
  | none => exact zero_le _
  | some record => exact h.bounded key record hget

/-- A write that sets the record of one key. -/
structure Sets (texts : DigestTexts) (outbox : DigestOutbox) (record : DigestDeliveryRecord) (step : DurableStep) : Prop where
  file : DigestFile texts (outbox.take step).file
  get : ∀ key, recordAt texts (outbox.take step).file key =
    if record.key = key then some record else recordAt texts outbox.file key

omit h in
theorem sets_of_get {m : OrderedMap String DigestDeliveryRecord}
    (hwritten : step.written = some (texts.writeDigestRecords m)) (hvalid : texts.isValidRecord record = true)
    (hget : ∀ key, m.get key = if record.key = key then some record else recordAt texts outbox.file key) :
    Sets texts outbox record step := by
  have hm : ∀ key record', m.get key = some record' → record'.key = key ∧ texts.isValidRecord record' = true := by
    intro key record' hrecord
    rw [hget] at hrecord
    split at hrecord
    · rename_i hkey
      rw [← some.inj hrecord]
      exact ⟨hkey, hvalid⟩
    · exact recordAt_self hrecord
  obtain ⟨hfile, hread⟩ := write_read texts hm
  have hnext : (outbox.take step).file = texts.writeDigestRecords m := by
    rw [take, hwritten]
    rfl
  exact ⟨hnext ▸ hfile, fun key => by rw [hnext, hread, hget]⟩

theorem Ledger.set (hsets : Sets texts outbox record step)
    (hbound : record.attemptCount ≤ M) (hcount : postsSince record.key outbox.trace ≤ record.attemptCount)
    (hposts : ∀ key, postsSince key (outbox.trace ++ [step]) = postsSince key outbox.trace)
    (hconfirmed : ∀ key, confirmedSince key (outbox.trace ++ [step]) = true →
      (record.key = key → record.state = .posted) ∧ (record.key ≠ key → confirmedSince key outbox.trace = true))
    (hopen : PostsOpen outbox.trace step) : Ledger texts M (outbox.take step) where
  file := hsets.file
  counted := by
    intro key
    rw [hsets.get]
    refine (hposts key).le.trans ?_
    split
    · rename_i hkey
      exact hkey ▸ hcount
    · exact h.counted key
  bounded := by
    intro key record' hget
    rw [hsets.get] at hget
    split at hget
    · rw [← some.inj hget]
      exact hbound
    · exact h.bounded key record' hget
  confirmed := by
    intro key hkey
    obtain ⟨hown, hother⟩ := hconfirmed key hkey
    rw [hsets.get]
    split
    · rename_i heq
      exact ⟨record, rfl, hown heq⟩
    · rename_i hne
      exact h.confirmed key (hother hne)
  opens := h.opens.concat hopen

omit h in
theorem deliveryKey_ne (reportDay channel contentHash : String) : deliveryKey reportDay channel contentHash ≠ "" := by
  intro heq
  have hlength := congrArg String.length heq
  simp [deliveryKey, String.length_append] at hlength

omit h in
theorem newDigest_valid (texts : DigestTexts) (input : DigestInput) (now : ℤ) :
    texts.isValidRecord (texts.newDigest input now) = true := by
  simp [DigestTexts.isValidRecord, DigestTexts.newDigest, deliveryKey_ne]

omit h in
theorem settledRecord_kept (texts : DigestTexts) (posting : DigestDeliveryRecord) (settledAt : ℤ) (result : ControlRoomPostResult) :
    (texts.settledRecord posting settledAt result).key = posting.key ∧
      (texts.settledRecord posting settledAt result).attemptCount = posting.attemptCount ∧
        texts.isValidRecord (texts.settledRecord posting settledAt result) = texts.isValidRecord posting := by
  cases result <;> exact ⟨rfl, rfl, rfl⟩

omit h in
theorem settledRecord_state (texts : DigestTexts) (posting : DigestDeliveryRecord) (settledAt : ℤ) (result : ControlRoomPostResult) :
    (texts.settledRecord posting settledAt result).state = .posted ∨ (texts.settledRecord posting settledAt result).state = .failed := by
  cases result with
  | confirmed _ => exact .inl rfl
  | _ => exact .inr rfl

/-- A delivery that posts: the record it finds, and what its two writes set. -/
structure Posting (texts : DigestTexts) (outbox : DigestOutbox) (key : String) (M : ℕ) (steps : List DurableStep) where
  record : DigestDeliveryRecord
  now : ℤ
  settledAt : ℤ
  result : ControlRoomPostResult
  counted : List DigestDeliveryRecord
  ended : List DigestDeliveryRecord
  found : recordAt texts outbox.file key = some record
  unposted : record.state ≠ .posted
  unspent : record.attemptCount < M
  steps_eq : steps = [.posting (postOf record) counted, .post (postOf record) result, .settled (postOf record) result ended]
  posting : Sets texts outbox (texts.postingRecord record now) (.posting (postOf record) counted)
  settled : Sets texts ((outbox.take (.posting (postOf record) counted)).take (.post (postOf record) result))
    (texts.settledRecord (texts.postingRecord record now) settledAt result) (.settled (postOf record) result ended)

omit h in
theorem deliver_cases (texts : DigestTexts) (outbox : DigestOutbox) (key : String) (opts : ReconcileOpts) (world : DeliveryWorld) :
    (texts.deliverDigest outbox.file key opts world).1 = [] ∧ (∀ record, recordAt texts outbox.file key = some record →
        record.state = .posted ∨ opts.attempts ≤ record.attemptCount) ∨
      Nonempty (Posting texts outbox key opts.attempts (texts.deliverDigest outbox.file key opts world).1) := by
  unfold DigestTexts.deliverDigest
  simp only
  cases hget : (texts.readDigestRecords outbox.file).get key with
  | none =>
    refine .inl ⟨rfl, fun record hrecord => ?_⟩
    rw [recordAt, hget] at hrecord
    cases hrecord
  | some record =>
    have hfound : recordAt texts outbox.file key = some record := hget
    simp only
    split
    · rename_i hposted
      refine .inl ⟨rfl, fun record' hrecord => .inl ?_⟩
      rwa [← some.inj (hfound.symm.trans hrecord)]
    rename_i hunposted
    split
    · rename_i hspent
      refine .inl ⟨rfl, fun record' hrecord => .inr ?_⟩
      rwa [← some.inj (hfound.symm.trans hrecord)]
    rename_i hopen
    obtain ⟨hkey, hvalid⟩ := recordAt_self hfound
    subst hkey
    let posting := texts.postingRecord record (opts.now.getD (world.clock 0))
    let settled := texts.settledRecord posting (opts.now.getD (world.clock 1)) (postResult (world.post (postOf record)))
    have hposting : Sets texts outbox posting (.posting (postOf record)
        (texts.writeDigestRecords ((texts.readDigestRecords outbox.file).set record.key posting))) :=
      sets_of_get rfl hvalid fun key => get_set _ _ _ _
    refine .inr ⟨⟨record, _, opts.now.getD (world.clock 1), _, _, _, hfound, hunposted, not_le.1 hopen, rfl, hposting, ?_⟩⟩
    have hkept := settledRecord_kept texts posting (opts.now.getD (world.clock 1)) (postResult (world.post (postOf record)))
    have hkeys : settled.key = record.key := hkept.1
    refine sets_of_get rfl (hkept.2.2.trans hvalid) fun key => ?_
    rw [get_set, get_set]
    have hbefore := hposting.get key
    by_cases heq : record.key = key
    · rw [if_pos heq, if_pos (hkeys.trans heq)]
    · rw [if_neg heq, if_neg heq, if_neg fun h => heq (hkeys.symm.trans h)]
      exact (hbefore.trans (if_neg heq)).symm

theorem Ledger.posting {steps : List DurableStep} (hposting : Posting texts outbox key M steps) :
    HoldsAlong (Ledger texts M) take outbox steps := by
  obtain ⟨record, now, settledAt, result, counted, ended, hfound, hunposted, hopen, rfl, hcount, hsettled⟩ := hposting
  obtain ⟨hkey, _⟩ := recordAt_self hfound
  subst hkey
  have hposts := h.counted record.key
  rw [hfound, map_some] at hposts
  have hunconfirmed : confirmedSince record.key outbox.trace = false := by
    by_contra hne
    obtain ⟨record', hget, hstate⟩ := h.confirmed record.key (by simpa using hne)
    rw [← some.inj (hfound.symm.trans hget)] at hstate
    exact hunposted hstate
  have hfirst : Ledger texts M (outbox.take (.posting (postOf record) counted)) := by
    refine h.set hcount hopen (hposts.trans (le_succ _)) (fun key => postsSince_posting ..) (fun key => ?_)
      nofun
    rw [confirmedSince_posting]
    refine fun htrue => ⟨fun heq => ?_, fun _ => htrue⟩
    rw [← show record.key = key from heq, hunconfirmed] at htrue
    cases htrue
  have hsecond : Ledger texts M ((outbox.take (.posting (postOf record) counted)).take (.post (postOf record) result)) := by
    refine ⟨hfirst.file, fun key => ?_, hfirst.bounded, fun key hconfirmed => ?_, hfirst.opens.concat ?_⟩
    · rw [take_trace, postsSince_post]
      split
      · -- the post is the attempt that was just counted
        rename_i hkey
        have hget := hcount.get key
        rw [if_pos (show (texts.postingRecord record now).key = key from hkey)] at hget
        have hfile : recordAt texts ((outbox.take (.posting (postOf record) counted)).take (.post (postOf record) result)).file key =
            some (texts.postingRecord record now) := hget
        rw [hfile, take_trace, postsSince_posting, ← show record.key = key from hkey]
        exact succ_le_succ hposts
      · exact hfirst.counted key
    · rw [take_trace, confirmedSince_post] at hconfirmed
      exact hfirst.confirmed key hconfirmed
    · rintro request result' heq
      cases heq
      rw [take_trace, confirmedSince_posting]
      exact hunconfirmed
  obtain ⟨hkey, hattempts, _⟩ := settledRecord_kept texts (texts.postingRecord record now) settledAt result
  refine ⟨h, hfirst, hsecond, hsecond.set hsettled (hattempts.le.trans hopen) ?_ (fun key => postsSince_settled ..) (fun key => ?_)
    nofun⟩
  · rw [hkey, hattempts, take_trace, take_trace, postsSince_post,
      if_pos (show (postOf record).key = (texts.postingRecord record now).key from rfl), postsSince_posting]
    exact succ_le_succ hposts
  · intro htrue
    rw [hkey]
    rcases confirmedSince_settled _ _ _ _ _ htrue with hbefore | ⟨heq, messageId, rfl⟩
    · refine ⟨fun heq => ?_, fun _ => hbefore⟩
      rw [take_trace, take_trace, confirmedSince_post, confirmedSince_posting, ← show record.key = key from heq, hunconfirmed]
        at hbefore
      cases hbefore
    · exact ⟨fun _ => rfl, fun hne => absurd heq hne⟩

omit h in
theorem saveDigest_cases (texts : DigestTexts) (outbox : DigestOutbox) (input : DigestInput) (now : ℤ) :
    (texts.saveDigest outbox.file input now).1 = [] ∨ ∃ records, (texts.saveDigest outbox.file input now).1 = [.saved records] ∧
        recordAt texts outbox.file (texts.newDigest input now).key = none ∧
          Sets texts outbox (texts.newDigest input now) (.saved records) := by
  unfold saveDigest
  simp only
  iterate 3
    split
    · exact .inl rfl
  split
  · exact .inl rfl
  · rename_i hnone
    exact .inr ⟨_, rfl, hnone, sets_of_get rfl (newDigest_valid texts input now) fun key => get_set _ _ _ _⟩

/-- The records that a pruning leaves. -/
structure Prunes (texts : DigestTexts) (outbox : DigestOutbox) (gone : DigestDeliveryRecord → Bool)
    (records : List DigestDeliveryRecord) : Prop where
  file : DigestFile texts records
  get : ∀ key, recordAt texts records key = (recordAt texts outbox.file key).filter fun record => !gone record

omit h in
theorem prune_cases (texts : DigestTexts) (outbox : DigestOutbox) (opts : ReconcileOpts) (world : DeliveryWorld) :
    (texts.pruneTerminalRecords outbox.file opts world).1 = [] ∨
      ∃ records, (texts.pruneTerminalRecords outbox.file opts world).1 = [.pruned records] ∧
        Prunes texts outbox (texts.isPrunable opts (opts.now.getD (world.clock 0))) records := by
  unfold pruneTerminalRecords
  simp only
  split
  · refine .inr ⟨_, rfl, ?_⟩
    have hget : ∀ key, ((texts.readDigestRecords outbox.file).filter fun _ record =>
        !texts.isPrunable opts (opts.now.getD (world.clock 0)) record).get key =
          (recordAt texts outbox.file key).filter fun record => !texts.isPrunable opts (opts.now.getD (world.clock 0)) record :=
      fun key => get_filter _ _ _
    obtain ⟨hfile, hread⟩ := write_read texts fun key record hrecord => recordAt_self (filter_eq_some_iff.1
      ((hget key).symm.trans hrecord)).1
    exact ⟨hfile, fun key => (hread key).trans (hget key)⟩
  · exact .inl rfl

theorem Ledger.saving (input : DigestInput) (now : ℤ) :
    HoldsAlong (Ledger texts M) take outbox (texts.saveDigest outbox.file input now).1 := by
  rcases saveDigest_cases texts outbox input now with hnil | ⟨records, hsteps, hnone, hsets⟩
  · rw [hnil]
    exact h
  · rw [hsteps]
    have hposts := h.counted (texts.newDigest input now).key
    rw [hnone, map_none] at hposts
    refine ⟨h, h.set hsets (zero_le _) hposts (fun key => postsSince_saved ..) (fun key htrue => ?_) nofun⟩
    rw [confirmedSince_saved] at htrue
    refine ⟨fun heq => ?_, fun _ => htrue⟩
    obtain ⟨record, hget, _⟩ := h.confirmed key htrue
    rw [← heq, hnone] at hget
    cases hget

theorem Ledger.pruning (opts : ReconcileOpts) (world : DeliveryWorld) :
    HoldsAlong (Ledger texts M) take outbox (texts.pruneTerminalRecords outbox.file opts world).1 := by
  rcases prune_cases texts outbox opts world with hnil | ⟨records, hsteps, hprunes⟩
  · rw [hnil]
    exact h
  · rw [hsteps]
    have hkept : ∀ key, keyed key records = true → recordAt texts records key = recordAt texts outbox.file key := by
      intro key hkeyed
      obtain ⟨record, hget⟩ := isSome_iff_exists.1 ((keyed_iff hprunes.file).1 hkeyed)
      rw [hget, ((filter_eq_some_iff.1 ((hprunes.get key).symm.trans hget)).1)]
    refine ⟨h, hprunes.file, fun key => ?_, fun key record hget => ?_, fun key hconfirmed => ?_, h.opens.concat nofun⟩
    · rw [take_trace, postsSince_pruned]
      split
      · rename_i hkeyed
        rw [show recordAt texts (outbox.take (.pruned records)).file key = _ from hkept key hkeyed]
        exact h.counted key
      · exact zero_le _
    · exact h.bounded key record (filter_eq_some_iff.1 ((hprunes.get key).symm.trans hget)).1
    · rw [take_trace, confirmedSince_pruned, Bool.and_eq_true] at hconfirmed
      obtain ⟨record, hget, hstate⟩ := h.confirmed key hconfirmed.1
      exact ⟨record, (hkept key hconfirmed.2).trans hget, hstate⟩

theorem Ledger.delivering (hmax : opts.attempts = M) (key : String) (world : DeliveryWorld) :
    HoldsAlong (Ledger texts M) take outbox (texts.deliverDigest outbox.file key opts world).1 := by
  rcases deliver_cases texts outbox key opts world with ⟨hnil, _⟩ | ⟨⟨hposting⟩⟩
  · rw [hnil]
    exact h
  · rw [hmax] at hposting
    exact h.posting hposting

omit h in
theorem file_foldl_take (outbox : DigestOutbox) (steps : List DurableStep) :
    (steps.foldl take outbox).file = fileAfter outbox.file steps := by
  induction steps generalizing outbox with
  | nil => rfl
  | cons step steps ih => exact ih (outbox.take step)

omit h in
/-- What deliveries and a pruning keep, cut short or not, the loop over the pending keys keeps. -/
theorem deliverPending_along (P Inv : DigestOutbox → Prop) (hdeliver : ∀ outbox key world, Inv outbox →
      HoldsAlong P take outbox (texts.deliverDigest outbox.file key opts world).1 ∧
        Inv ((texts.deliverDigest outbox.file key opts world).1.foldl take outbox)) (hprune : ∀ outbox world, Inv outbox →
      HoldsAlong P take outbox (texts.pruneTerminalRecords outbox.file opts world).1)
    (keys : List String) (outbox : DigestOutbox) (world : DeliveryWorld) (h : Inv outbox) :
    HoldsAlong P take outbox (texts.deliverPending opts keys outbox.file world).1 := by
  induction keys generalizing outbox world with
  | nil => exact hprune outbox world h
  | cons key keys ih =>
    obtain ⟨halong, hinv⟩ := hdeliver outbox key world h
    refine halong.append ?_
    have hrest := ih _ world.later hinv
    rwa [file_foldl_take] at hrest

theorem Ledger.reconciling (hmax : opts.attempts = M) (world : DeliveryWorld) :
    HoldsAlong (Ledger texts M) take outbox (texts.reconcile outbox.file opts world).1 := by
  refine deliverPending_along _ (Ledger texts M) (fun outbox key world h => ?_) (fun outbox world h => h.pruning opts world)
    _ outbox world h
  have halong := h.delivering hmax key world
  exact ⟨halong, halong.all⟩

theorem Ledger.calling (hmax : call.opts.attempts = M) :
    HoldsAlong (Ledger texts M) take outbox (call.steps texts outbox.file) := by
  obtain ⟨op, opts, world, crash⟩ := call
  cases op with
  | saveDigest input => exact h.saving input _
  | deliverDigest key => exact h.delivering hmax key world
  | reconcile => exact h.reconciling hmax world
  | pruneTerminalRecords => exact h.pruning opts world

end

theorem next_of_along {P : DigestOutbox → Prop}
    (h : HoldsAlong P take outbox (call.steps texts outbox.file)) : P (outbox.next texts call) := by
  unfold next DigestCall.taken
  split
  · exact h.all
  · exact h.take _

/-- The key that a save or a delivery is for. -/
def DigestOp.keyOf (texts : DigestTexts) : DigestOp → Option String
  | .saveDigest input => some (texts.newDigest input 0).key
  | .deliverDigest key => some key
  | .reconcile | .pruneTerminalRecords => none

theorem deliver_others (texts : DigestTexts) (outbox : DigestOutbox) (opts : ReconcileOpts) (world : DeliveryWorld) {own : String}
    (hne : key ≠ own) : HoldsAlong (fun outbox' => recordAt texts outbox'.file key = recordAt texts outbox.file key) take outbox
      (texts.deliverDigest outbox.file own opts world).1 := by
  rcases deliver_cases texts outbox own opts world with ⟨hnil, _⟩ | ⟨⟨hposting⟩⟩
  · rw [hnil]
    exact rfl
  · obtain ⟨record, now, settledAt, result, counted, ended, hfound, _, _, hsteps, hcount, hsettled⟩ := hposting
    rw [hsteps]
    have hkey : ¬ (texts.postingRecord record now).key = key := fun heq => hne (heq.symm.trans (recordAt_self hfound).1)
    have hcounted := (hcount.get key).trans (if_neg hkey)
    have hended := (hsettled.get key).trans
      (if_neg ((settledRecord_kept texts (texts.postingRecord record now) settledAt result).1 ▸ hkey))
    exact ⟨rfl, hcounted, hcounted, hended.trans hcounted⟩

theorem others_kept {own : String} (hown : call.op.keyOf texts = some own) (hne : key ≠ own) :
    recordAt texts (outbox.next texts call).file key = recordAt texts outbox.file key := by
  refine next_of_along (P := fun outbox' => recordAt texts outbox'.file key = recordAt texts outbox.file key) ?_
  obtain ⟨op, opts, world, crash⟩ := call
  cases op with
  | saveDigest input =>
    have hkey : ¬ (texts.newDigest input (opts.now.getD (world.clock 0))).key = key := by
      intro heq
      exact hne (heq.symm.trans (some.inj hown))
    have hsteps : DigestCall.steps texts outbox.file ⟨.saveDigest input, opts, world, crash⟩ =
        (texts.saveDigest outbox.file input (opts.now.getD (world.clock 0))).1 := rfl
    rw [hsteps]
    rcases saveDigest_cases texts outbox input (opts.now.getD (world.clock 0)) with hnil | ⟨records, hsaved, _, hsets⟩
    · rw [hnil]
      exact rfl
    · rw [hsaved]
      exact ⟨rfl, (hsets.get key).trans (if_neg hkey)⟩
  | deliverDigest own' =>
    obtain rfl : own' = own := some.inj hown
    exact deliver_others texts outbox opts world hne
  | reconcile | pruneTerminalRecords => cases hown

/-- Every record whose attempts are spent is posted or failed. -/
def Resolved (texts : DigestTexts) (M : ℕ) (file : List DigestDeliveryRecord) : Prop :=
  ∀ key record, recordAt texts file key = some record → M ≤ record.attemptCount → record.state = .posted ∨ record.state = .failed

theorem resolved_deliver (hmax : opts.attempts = M) (key : String) (world : DeliveryWorld) :
    Resolved texts M ((texts.deliverDigest outbox.file key opts world).1.foldl take outbox).file ↔
      Resolved texts M outbox.file := by
  have hothers := fun key' (hne : key' ≠ key) => (deliver_others texts outbox opts world hne).all
  rcases deliver_cases texts outbox key opts world with ⟨hnil, _⟩ | ⟨⟨hposting⟩⟩
  · rw [hnil]
    exact Iff.rfl
  obtain ⟨record, now, settledAt, result, counted, ended, hfound, _, hopen, hsteps, hcount, hsettled⟩ := hposting
  have hkey := (recordAt_self hfound).1
  have hown : recordAt texts ((texts.deliverDigest outbox.file key opts world).1.foldl take outbox).file key =
      some (texts.settledRecord (texts.postingRecord record now) settledAt result) := by
    rw [hsteps]
    exact (hsettled.get key).trans (if_pos
      ((settledRecord_kept texts (texts.postingRecord record now) settledAt result).1.trans hkey))
  constructor
  · intro h key' record' hget hspent
    by_cases hne : key' = key
    · subst hne
      rw [← some.inj (hfound.symm.trans hget)] at hspent
      exact absurd hspent (hmax ▸ not_le.2 hopen)
    · exact h key' record' ((hothers key' hne).trans hget) hspent
  · intro h key' record' hget hspent
    by_cases hne : key' = key
    · subst hne
      rw [← some.inj (hown.symm.trans hget)]
      exact settledRecord_state texts _ settledAt result
    · exact h key' record' ((hothers key' hne).symm.trans hget) hspent

theorem resolved_prune (world : DeliveryWorld) :
    Resolved texts M ((texts.pruneTerminalRecords outbox.file opts world).1.foldl take outbox).file ↔
      Resolved texts M outbox.file := by
  rcases prune_cases texts outbox opts world with hnil | ⟨records, hsteps, hprunes⟩
  · rw [hnil]
    exact Iff.rfl
  rw [hsteps]
  constructor
  · intro h key record hget hspent
    by_contra hstate
    rw [not_or] at hstate
    -- a record that is neither posted nor failed is never pruned
    have hkept : texts.isPrunable opts (opts.now.getD (world.clock 0)) record = false := by
      simp [isPrunable, isDead, hstate.1, hstate.2]
    have hafter : recordAt texts records key = some record := by
      rw [hprunes.get, hget]
      simp [Option.filter, hkept]
    exact (h key record hafter hspent).elim hstate.1 hstate.2
  · intro h key record hget hspent
    exact h key record (filter_eq_some_iff.1 ((hprunes.get key).symm.trans hget)).1 hspent

theorem resolved_pending (hmax : opts.attempts = M) (keys : List String) (outbox : DigestOutbox) (world : DeliveryWorld) :
    Resolved texts M ((texts.deliverPending opts keys outbox.file world).1.foldl take outbox).file ↔
      Resolved texts M outbox.file := by
  induction keys generalizing outbox world with
  | nil => exact resolved_prune world
  | cons key keys ih =>
    unfold deliverPending
    have hdelivered : Resolved texts M _ ↔ Resolved texts M outbox.file := resolved_deliver hmax key world
    rw [List.foldl_append, ← hdelivered, ← file_foldl_take outbox]
    exact ih _ world.later

/-- A reconciliation that does not crash neither leaves nor ends a spent record that is in between. -/
theorem resolved_reconcile (hmax : call.opts.attempts = M) (hop : call.op = .reconcile)
    (hcrash : call.crash = none) : Resolved texts M (outbox.next texts call).file ↔ Resolved texts M outbox.file := by
  unfold next DigestCall.taken DigestCall.steps
  rw [hcrash, hop]
  exact resolved_pending hmax _ outbox call.world

/-- The attempt that a step counts or makes, before its result is written. -/
def DurableStep.attempt : DurableStep → Option ℕ
  | .posting request _ | .post request _ => some request.attempt
  | _ => none

/-- A crash does not come between the write that counts the last attempt and the write of its result. -/
def SparesLastAttempt (texts : DigestTexts) (M : ℕ) (outbox : DigestOutbox) (call : DigestCall) : Prop :=
  call.crash ≠ none → ∀ step ∈ (call.taken texts outbox.file).getLast?, step.attempt ≠ some M

instance (texts : DigestTexts) (M : ℕ) (outbox : DigestOutbox) (call : DigestCall) :
    Decidable (SparesLastAttempt texts M outbox call) :=
  inferInstanceAs (Decidable (_ → _))

/-- Resolved, unless the last step is one of a last attempt. -/
def ResolvedAt (texts : DigestTexts) (M : ℕ) (outbox : DigestOutbox) : Prop :=
  (∀ step ∈ outbox.trace.getLast?, step.attempt ≠ some M) → Resolved texts M outbox.file

theorem resolved_sets (h : Resolved texts M outbox.file) (hsets : Sets texts outbox record step)
    (hrecord : M ≤ record.attemptCount → record.state = .posted ∨ record.state = .failed) :
    Resolved texts M (outbox.take step).file := by
  intro key record' hget hspent
  rw [hsets.get] at hget
  split at hget
  · rw [← some.inj hget] at hspent ⊢
    exact hrecord hspent
  · exact h key record' hget hspent

theorem resolvedAt_deliver (hmax : opts.attempts = M) (h : Resolved texts M outbox.file) (key : String) (world : DeliveryWorld) :
    HoldsAlong (ResolvedAt texts M) take outbox (texts.deliverDigest outbox.file key opts world).1 := by
  rcases deliver_cases texts outbox key opts world with ⟨hnil, _⟩ | ⟨⟨hposting⟩⟩
  · rw [hnil]
    exact fun _ => h
  obtain ⟨record, now, settledAt, result, counted, ended, hfound, _, hopen, hsteps, hcount, hsettled⟩ := hposting
  have hfirst : record.attemptCount + 1 ≠ M → Resolved texts M (outbox.take (.posting (postOf record) counted)).file := by
    intro hne
    refine resolved_sets h hcount fun hspent => ?_
    rw [hmax] at hopen
    exact absurd (le_antisymm hopen hspent) hne
  have hlast : Resolved texts M ((texts.deliverDigest outbox.file key opts world).1.foldl take outbox).file :=
    (resolved_deliver hmax key world).2 h
  rw [hsteps] at hlast ⊢
  refine ⟨fun _ => h, fun hstep => hfirst fun heq => ?_, fun hstep => hfirst fun heq => ?_, fun _ => hlast⟩
  · refine hstep (.posting (postOf record) counted) ?_ (congrArg some heq)
    rw [take_trace, List.getLast?_concat]
    exact rfl
  · refine hstep (.post (postOf record) result) ?_ (congrArg some heq)
    rw [take_trace, List.getLast?_concat]
    exact rfl

theorem resolvedAt_prune (h : Resolved texts M outbox.file) (world : DeliveryWorld) :
    HoldsAlong (ResolvedAt texts M) take outbox (texts.pruneTerminalRecords outbox.file opts world).1 := by
  have hlast : Resolved texts M ((texts.pruneTerminalRecords outbox.file opts world).1.foldl take outbox).file :=
    (resolved_prune world).2 h
  rcases prune_cases texts outbox opts world with hnil | ⟨records, hsteps, _⟩
  · rw [hnil]
    exact fun _ => h
  · rw [hsteps] at hlast ⊢
    exact ⟨fun _ => h, fun _ => hlast⟩

theorem resolvedAt_call (hpos : 0 < M) (hmax : call.opts.attempts = M) (h : Resolved texts M outbox.file) :
    HoldsAlong (ResolvedAt texts M) take outbox (call.steps texts outbox.file) := by
  obtain ⟨op, opts, world, crash⟩ := call
  cases op with
  | saveDigest input =>
    have hsteps : DigestCall.steps texts outbox.file ⟨.saveDigest input, opts, world, crash⟩ =
        (texts.saveDigest outbox.file input (opts.now.getD (world.clock 0))).1 := rfl
    rw [hsteps]
    rcases saveDigest_cases texts outbox input (opts.now.getD (world.clock 0)) with hnil | ⟨records, hsaved, _, hsets⟩
    · rw [hnil]
      exact fun _ => h
    · rw [hsaved]
      exact ⟨fun _ => h, fun _ => resolved_sets h hsets fun hspent => absurd hspent (not_le.2 hpos)⟩
  | deliverDigest key => exact resolvedAt_deliver hmax h key world
  | reconcile =>
    refine deliverPending_along _ (fun outbox => Resolved texts M outbox.file) (fun outbox key world h => ?_)
      (fun outbox world h => resolvedAt_prune h world) _ outbox world h
    exact ⟨resolvedAt_deliver hmax h key world, (resolved_deliver hmax key world).2 h⟩
  | pruneTerminalRecords => exact resolvedAt_prune h world

theorem trace_foldl_take (outbox : DigestOutbox) (steps : List DurableStep) :
    (steps.foldl take outbox).trace = outbox.trace ++ steps := by
  induction steps generalizing outbox with
  | nil => exact (List.append_nil _).symm
  | cons step steps ih => exact (ih (outbox.take step)).trans (List.append_assoc ..)

theorem resolved_steps (hpos : 0 < M) (hmax : call.opts.attempts = M) (h : Resolved texts M outbox.file) :
    Resolved texts M ((call.steps texts outbox.file).foldl take outbox).file := by
  obtain ⟨op, opts, world, crash⟩ := call
  cases op with
  | saveDigest input =>
    have hsteps : DigestCall.steps texts outbox.file ⟨.saveDigest input, opts, world, crash⟩ =
        (texts.saveDigest outbox.file input (opts.now.getD (world.clock 0))).1 := rfl
    rw [hsteps]
    rcases saveDigest_cases texts outbox input (opts.now.getD (world.clock 0)) with hnil | ⟨records, hsaved, _, hsets⟩
    · rw [hnil]
      exact h
    · rw [hsaved]
      exact resolved_sets h hsets fun hspent => absurd hspent (not_le.2 hpos)
  | deliverDigest key => exact (resolved_deliver hmax key world).2 h
  | reconcile => exact (resolved_pending hmax _ outbox world).2 h
  | pruneTerminalRecords => exact (resolved_prune world).2 h

theorem resolved_next (hpos : 0 < M) (hmax : call.opts.attempts = M)
    (hspares : SparesLastAttempt texts M outbox call) (h : Resolved texts M outbox.file) :
    Resolved texts M (outbox.next texts call).file := by
  cases hcrash : call.crash with
  | none =>
    unfold next DigestCall.taken
    rw [hcrash]
    exact resolved_steps hpos hmax h
  | some n =>
    have hlast := hspares (by simp [hcrash])
    have hresolved : ResolvedAt texts M (outbox.next texts call) := next_of_along (resolvedAt_call hpos hmax h)
    unfold ResolvedAt at hresolved
    unfold next at hresolved ⊢
    rw [trace_foldl_take] at hresolved
    rcases List.eq_nil_or_concat (call.taken texts outbox.file) with hnil | ⟨steps, step, hconcat⟩
    · rw [hnil]
      exact h
    · refine hresolved fun step' hstep' => hlast step' ?_
      rw [hconcat, List.concat_eq_append, ← List.append_assoc, List.getLast?_concat] at hstep'
      rwa [hconcat, List.concat_eq_append, List.getLast?_concat]

theorem run_ledger (hmax : ∀ call ∈ calls, call.opts.attempts = M) : Ledger texts M (run texts .start calls) := by
  induction calls using List.reverseRecOn with
  | nil => exact .start texts M
  | append_singleton calls call ih =>
    unfold run
    rw [List.foldl_append]
    have hbefore := ih fun call' hmem => hmax call' (List.mem_append_left _ hmem)
    exact next_of_along (hbefore.calling (hmax call (by simp)))

/-- However its calls crash, a key is posted at most as often as its attempts allow, never after a confirmed post that was
written, and saves and deliveries leave the other keys alone. A reconciliation that returns has every spent record posted or
failed if and only if that was so before it, and so it is in a run where no crash cuts off the result of a last attempt. -/
theorem digests_settled (texts : DigestTexts) (M : ℕ) (calls : List DigestCall) (hmax : ∀ call ∈ calls, call.opts.attempts = M) :
    let outbox := DigestOutbox.run texts .start calls
    (∀ key, postsSince key outbox.trace ≤ M) ∧
    Along PostsOpen outbox.trace ∧
    (∀ (call : DigestCall) own, call.op.keyOf texts = some own → ∀ key ≠ own,
      recordAt texts (outbox.next texts call).file key = recordAt texts outbox.file key) ∧
    (∀ call : DigestCall, call.opts.attempts = M → call.op = .reconcile → call.crash = none →
      (Resolved texts M (outbox.next texts call).file ↔ Resolved texts M outbox.file)) ∧
    (0 < M → StepsMeet (DigestOutbox.step texts) (SparesLastAttempt texts M) .start calls → Resolved texts M outbox.file) := by
  intro outbox
  have hledger : Ledger texts M outbox := run_ledger hmax
  refine ⟨hledger.posts_le, hledger.opens, fun call own hown key hne => others_kept hown hne,
    fun call hattempts hop hcrash => resolved_reconcile hattempts hop hcrash, fun hpos hspares => ?_⟩
  have hstep : ∀ before call after, Resolved texts M before.file → SparesLastAttempt texts M before call ∧ call.opts.attempts = M →
      DigestOutbox.step texts before call = some after → Resolved texts M after.file := by
    intro before call after hresolved hcall hafter
    cases hafter
    exact resolved_next hpos hcall.2 hcall.1 hresolved
  have hexec : ∀ before : DigestOutbox, exec (DigestOutbox.step texts) before calls = some (before.run texts calls) := by
    intro before
    clear hmax hstep hspares hledger outbox
    induction calls generalizing before with
    | nil => rfl
    | cons call calls ih => exact ih (before.next texts call)
  have hstart : Resolved texts M DigestOutbox.start.file := fun _ _ h => nomatch h
  exact exec_invariant hstep hstart (hspares.and_forall hmax) (hexec .start)

def plainTexts : DigestTexts := ⟨fun content => content, fun a b => compare a b, fun _ => "", fun _ => none⟩

def DigestCall.plain (op : DigestOp) (crash : Option ℕ) : DigestCall :=
  ⟨op, ⟨none, none, none⟩, ⟨fun _ => 0, fun _ => .ok (.timeout none)⟩, crash⟩

/-- A digest whose first four attempts time out. -/
def fourTimeouts : List DigestCall :=
  [.plain (.saveDigest ⟨"2026-08-23", "control-room", "66 merged changes"⟩) none, .plain .reconcile none, .plain .reconcile none,
    .plain .reconcile none, .plain .reconcile none]

theorem digests_settled_fourTimeouts : Resolved plainTexts 5 (run plainTexts .start fourTimeouts).file :=
  (digests_settled plainTexts 5 fourTimeouts (by decide)).2.2.2.2 (by decide) (by decide +kernel)

/-- The process crashes after the post of the fifth attempt. No reconciliation gets the record out of it. -/
theorem fifth_attempt_stranded :
    (run plainTexts .start (fourTimeouts ++ [.plain .reconcile (some 2), .plain .reconcile none])).file.map
      (fun record => (record.state, record.attemptCount)) = [(.posting, 5)] := by
  decide +kernel

end Kookr.Core
