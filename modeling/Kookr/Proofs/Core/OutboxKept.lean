import Kookr.Spec.Core.SignalOutbox

/-! The outbox keeps its signals in every run in which each call that rewrites the pending file has read
all the signals that are due in it. A call reads the file, waits, and writes it anew from what it has
read, so that what another call has added meanwhile is lost. -/

namespace Kookr.Core

open Kookr.Lib List Prod

abbrev signalIds (entries : List SignalOutboxEntry) : List String := entries.map SignalOutboxEntry.signalId

namespace OutboxDates

variable {dates : OutboxDates} {entries : List SignalOutboxEntry} {entry e : SignalOutboxEntry} {opts : OutboxOptions} {id : String}

theorem mem_sortByCreatedAt : e ∈ dates.sortByCreatedAt entries ↔ e ∈ entries := mem_insertionSort _

theorem mem_signalIds_read : id ∈ signalIds (dates.readPendingSignals entries) ↔ id ∈ signalIds entries := by
  simp only [readPendingSignals, mem_map, mem_sortByCreatedAt, OrderedMap.mem_values_iff]
  constructor
  · rintro ⟨e, ⟨k, hk⟩, rfl⟩
    exact ⟨e, (rowAt_mem hk).1, rfl⟩
  · rintro ⟨e, he, rfl⟩
    obtain ⟨e', he'⟩ : ∃ e', rowAt SignalOutboxEntry.signalId entries e.signalId = some e' := rowAt_isSome_of_mem (mem_map_of_mem he)
    exact ⟨e', ⟨_, he'⟩, (rowAt_mem he').2⟩

theorem boundSignalOutbox_of_length (h : (dates.boundSignalOutbox opts entries).length = entries.length) :
    dates.boundSignalOutbox opts entries = entries := by
  unfold boundSignalOutbox at h ⊢
  dsimp only at h ⊢
  split_ifs at h ⊢ with hcap
  · exact filter_eq_self.2 (length_filter_eq_length_iff.1 h)
  · rw [length_drop, sortByCreatedAt, length_insertionSort] at h
    have hfresh := length_filter_le
      (fun e => (dates.dateParse e.createdAt).any fun created => opts.now - created ≤ opts.maxAgeMs.getD DEFAULT_SIGNAL_OUTBOX_MAX_AGE_MS) entries
    omega

theorem mem_signalIds_appended : entry.signalId ∈ signalIds (dates.appended opts entries entry) := by
  unfold appended
  dsimp only
  split
  · next hkept => exact hkept
  · simp [signalIds]

end OutboxDates

namespace OutboxCall

/-- What a call that rewrites the file has read of it. -/
def readEntries : OutboxCall → Option (List SignalOutboxEntry)
  | writingAppend read .. | writingRemove read _ | writingBound read _ | writingDrain read _ => some read
  | _ => none

end OutboxCall

namespace SignalOutbox

variable {dates : OutboxDates} {s s' : SignalOutbox} {e : OutboxEvent} {call : OutboxCall} {i : ℕ}
  {read next : List SignalOutboxEntry} {ended ended' : List (String × SignalEnd)}

/-- The signals that no drain has delivered or failed permanently, no call has removed and no bound has dropped. -/
def due (s : SignalOutbox) : List String := s.appended.filter fun id => id ∉ s.ended.map Prod.fst

/-- Every signal that is due is pending. -/
def SignalsKept (dates : OutboxDates) (s : SignalOutbox) : Prop := ∀ id ∈ s.due, id ∈ signalIds (dates.readPendingSignals s.pending)

/-- A rename comes from a call that has read every pending signal that is due. -/
def RewritesRead (s : SignalOutbox) : OutboxEvent → Prop
  | .rename i => ∀ call ∈ s.calls[i]?, ∀ read ∈ call.readEntries, ∀ id ∈ s.due, id ∈ signalIds s.pending → id ∈ signalIds read
  | _ => True

instance RewritesRead.decidable (s : SignalOutbox) (e : OutboxEvent) : Decidable (s.RewritesRead e) := by
  unfold RewritesRead
  split <;> infer_instance

/-- An append writes its signal, and a drain accounts for what it has read. -/
def CallOk (ended : List (String × SignalEnd)) : OutboxCall → Prop
  | .writingAppend _ entry next => entry.signalId ∈ signalIds next
  | .delivering read drain =>
    ∀ id ∈ signalIds read, id ∈ ended.map Prod.fst ∨ id ∈ signalIds drain.pending ∨ id ∈ signalIds drain.remaining
  | .writingDrain read drain => ∀ id ∈ signalIds read, id ∈ ended.map Prod.fst ∨ id ∈ signalIds drain.remaining
  | _ => True

theorem CallOk.mono (hended : ended.map fst ⊆ ended'.map fst) (h : CallOk ended call) : CallOk ended' call := by
  cases call with
  | delivering read drain | writingDrain read drain => exact fun id hid => (h id hid).imp_left fun hmem => hended hmem
  | _ => exact h

structure Inv (s : SignalOutbox) : Prop where
  kept : ∀ id ∈ s.due, id ∈ signalIds s.pending
  calls : ∀ call ∈ s.calls, CallOk s.ended call

theorem mem_due {id : String} : id ∈ s.due ↔ id ∈ s.appended ∧ id ∉ s.ended.map fst := by simp [due]

theorem mem_dropped {id : String} (h : id ∈ signalIds read) : id ∈ signalIds next ∨ id ∈ (dropped read next).map fst := by
  by_cases hnext : id ∈ signalIds next
  · exact .inl hnext
  · obtain ⟨e, he, rfl⟩ := mem_map.1 h
    refine .inr (mem_map.2 ⟨(e.signalId, .dropped), mem_map.2 ⟨e, ?_, rfl⟩, rfl⟩)
    exact mem_filter.2 ⟨he, by simpa using hnext⟩

theorem ended_subset_dropped (read next : List SignalOutboxEntry) (ended : List (String × SignalEnd)) :
    ended.map fst ⊆ (dropped read next ++ ended).map fst := by
  rw [map_append]
  exact subset_append_right _ _

section

variable (h : Inv s)
include h

theorem Inv.settle (i : ℕ) : Inv (s.settle i) :=
  ⟨h.kept, fun call hcall => h.calls call ((eraseIdx_sublist _ _).subset hcall)⟩

theorem Inv.goto (i : ℕ) (hcall : CallOk s.ended call) : Inv (s.goto i call) := by
  refine ⟨h.kept, fun call' hcall' => ?_⟩
  rcases mem_or_eq_of_mem_set hcall' with hmem | rfl
  · exact h.calls call' hmem
  · exact hcall

theorem Inv.startDeliveries (i : ℕ) {pending : List SignalOutboxEntry}
    (hread : ∀ id ∈ signalIds read, id ∈ s.ended.map fst ∨ id ∈ signalIds pending) : Inv (s.startDeliveries i read pending) := by
  unfold SignalOutbox.startDeliveries
  split
  · exact h.settle i
  · exact h.goto i fun id hid => (hread id hid).imp_right .inl

theorem Inv.ends (hended : s.ended.map fst ⊆ ended.map fst) : Inv { s with ended } where
  kept id hid := by
    obtain ⟨happended, hnot⟩ := mem_due.1 hid
    exact h.kept id (mem_due.2 ⟨happended, fun hmem => hnot (hended hmem)⟩)
  calls call hcall := (h.calls call hcall).mono hended

/-- The file is rewritten by a call that has read what is due and writes it or accounts for it. -/
theorem Inv.rewrite {appended : List String} (hended : s.ended.map fst ⊆ ended.map fst)
    (hall : ∀ id ∈ s.due, id ∈ signalIds s.pending → id ∈ signalIds read)
    (hread : ∀ id ∈ signalIds read, id ∈ ended.map fst ∨ id ∈ signalIds next)
    (happended : ∀ id ∈ appended, id ∈ s.appended ∨ id ∈ signalIds next) : Inv { s with pending := next, appended, ended } where
  kept id hid := by
    obtain ⟨hnew, hnot⟩ := mem_due.1 hid
    rcases happended id hnew with hold | hnext
    · have hdue : id ∈ s.due := mem_due.2 ⟨hold, fun hmem => hnot (hended hmem)⟩
      exact (hread id (hall id hdue (h.kept id hdue))).resolve_left hnot
    · exact hnext
  calls call hcall := (h.calls call hcall).mono hended

theorem inv_read (hread : s.afterRead dates i call = some s') : Inv s' := by
  cases call with
  | appending entry opts =>
    simp only [afterRead] at hread
    split_ifs at hread
    · cases hread
      exact h.settle i
    · cases hread
      exact h.goto i OutboxDates.mem_signalIds_appended
  | removing signalId =>
    simp only [afterRead] at hread
    split_ifs at hread
    · cases hread
      exact h.goto i trivial
    · cases hread
      exact h.settle i
  | draining opts =>
    simp only [afterRead] at hread
    split_ifs at hread with hsame
    · cases hread
      rw [OutboxDates.boundSignalOutbox_of_length hsame]
      exact h.startDeliveries i fun id hid => .inr hid
    · cases hread
      exact h.goto i trivial
  | _ => cases hread

/-- A delivery takes one signal from those left, which is delivered, failed or kept for later. -/
theorem inv_delivery {result : DeliverSignalResult} (hcall : call ∈ s.calls) (hdeliver : s.afterDelivery i result call = some s') :
    Inv s' := by
  cases call with
  | delivering read drain =>
    simp only [afterDelivery] at hdeliver
    split at hdeliver
    · cases hdeliver
    · next entry rest hpending =>
      have hok : ∀ id ∈ signalIds read,
          id ∈ s.ended.map fst ∨ (id = entry.signalId ∨ id ∈ signalIds rest) ∨ id ∈ signalIds drain.remaining := by
        intro id hid
        simpa [signalIds, hpending] using h.calls _ hcall id hid
      -- what the drain accounts for, with the end of the entry added
      have hgoto (ended : List (String × SignalEnd)) (drain' : DrainProgress) (hrest : drain'.pending = rest)
          (hended : s.ended.map fst ⊆ ended.map fst) (hkept : signalIds drain.remaining ⊆ signalIds drain'.remaining)
          (hentry : entry.signalId ∈ ended.map fst ∨ entry.signalId ∈ signalIds drain'.remaining) :
          Inv { s.goto i (if rest = [] then .writingDrain read drain' else .delivering read drain') with ended } := by
        have hends : Inv { s with ended } := h.ends hended
        refine hends.goto i ?_
        have hread : ∀ id ∈ signalIds read, id ∈ ended.map fst ∨ id ∈ signalIds rest ∨ id ∈ signalIds drain'.remaining := by
          intro id hid
          rcases hok id hid with hdone | (rfl | hleft) | hlater
          · exact .inl (hended hdone)
          · exact hentry.imp_right .inr
          · exact .inr (.inl hleft)
          · exact .inr (.inr (hkept hlater))
        split
        · next hnil => simpa [CallOk, hnil, signalIds] using hread
        · simpa [CallOk, hrest, signalIds] using hread
      cases result with
      | delivered | permanentFail error =>
        cases hdeliver
        exact hgoto _ _ rfl (subset_cons_self _ _) (List.Subset.refl _) (.inl mem_cons_self)
      | transientFail error =>
        cases hdeliver
        refine hgoto _ _ rfl (List.Subset.refl _) ?_ (.inr ?_)
        · simp [DrainProgress.deliver, signalIds]
        · simp [DrainProgress.deliver, signalIds, SignalOutboxEntry.retried]
  | _ => cases hdeliver

theorem inv_rename (hcall : call ∈ s.calls)
    (hall : ∀ read ∈ call.readEntries, ∀ id ∈ s.due, id ∈ signalIds s.pending → id ∈ signalIds read)
    (hrename : s.afterRename i call = some s') : Inv s' := by
  cases call with
  | writingAppend read entry next =>
    cases hrename
    have hnew : entry.signalId ∈ signalIds next := h.calls _ hcall
    refine (h.settle i).rewrite (ended_subset_dropped _ _ _) (hall read rfl) (fun id hid => ?_) fun id hid => ?_
    · have hsplit : id ∈ signalIds next ∨ id ∈ (dropped read next).map fst := mem_dropped hid
      rcases hsplit with hkept | hdropped
      · exact .inr hkept
      · exact .inl (by rw [map_append]; exact mem_append_left _ hdropped)
    · rcases mem_cons.1 hid with rfl | hold
      · exact .inr hnew
      · exact .inl hold
  | writingRemove read signalId =>
    cases hrename
    refine (h.settle i).rewrite (subset_cons_self _ _) (hall read rfl) (fun id hid => ?_) fun id hid => .inl hid
    by_cases hremoved : id = signalId
    · exact .inl (hremoved ▸ mem_cons_self)
    · obtain ⟨e, he, rfl⟩ := mem_map.1 hid
      exact .inr (mem_map_of_mem (mem_filter.2 ⟨he, by simpa using hremoved⟩))
  | writingBound read pending =>
    cases hrename
    have hread : ∀ id ∈ signalIds read, id ∈ (dropped read pending ++ s.ended).map fst ∨ id ∈ signalIds pending := by
      intro id hid
      have hsplit : id ∈ signalIds pending ∨ id ∈ (dropped read pending).map fst := mem_dropped hid
      rcases hsplit with hkept | hdropped
      · exact .inr hkept
      · exact .inl (by rw [map_append]; exact mem_append_left _ hdropped)
    have hwritten : Inv { s with pending, ended := dropped read pending ++ s.ended } :=
      h.rewrite (ended_subset_dropped _ _ _) (hall read rfl) hread fun id hid => .inl hid
    have hgoes := hwritten.startDeliveries i hread
    unfold SignalOutbox.startDeliveries at hgoes ⊢
    split
    · next hnil =>
      rw [if_pos hnil] at hgoes
      exact hgoes
    · next hsome =>
      rw [if_neg hsome] at hgoes
      exact hgoes
  | writingDrain read drain =>
    cases hrename
    exact (h.settle i).rewrite (List.Subset.refl _) (hall read rfl) (h.calls _ hcall) fun id hid => .inl hid
  | _ => cases hrename

theorem inv_step (hok : s.RewritesRead e) (hstep : step dates s e = some s') : Inv s' := by
  cases e with
  | start call =>
    have hstarts {call : OutboxCall} (hcall : CallOk s.ended call) : Inv { s with calls := s.calls ++ [call] } := by
      refine ⟨h.kept, fun call' hmem => ?_⟩
      rcases mem_append.1 hmem with hold | hnew
      · exact h.calls call' hold
      · exact mem_singleton.1 hnew ▸ hcall
    cases call with
    | appending | removing | draining =>
      cases hstep
      exact hstarts trivial
    | _ => cases hstep
  | read i =>
    obtain ⟨call, -, hread⟩ := Option.bind_eq_some_iff.1 hstep
    exact inv_read h hread
  | deliver i result =>
    obtain ⟨call, hcall, hdeliver⟩ := Option.bind_eq_some_iff.1 hstep
    exact inv_delivery h (mem_of_getElem? hcall) hdeliver
  | rename i =>
    obtain ⟨call, hcall, hrename⟩ := Option.bind_eq_some_iff.1 hstep
    exact inv_rename h (mem_of_getElem? hcall) (hok call hcall) hrename
  | fail i =>
    obtain ⟨call, -, rfl⟩ := Option.map_eq_some_iff.1 hstep
    exact h.settle i

end

theorem signals_kept (dates : OutboxDates) (pending : List SignalOutboxEntry) (events : List OutboxEvent) (s : SignalOutbox)
    (hrun : exec (step dates) (start pending) events = some s) (hok : StepsMeet (step dates) RewritesRead (start pending) events) :
    SignalsKept dates s := by
  have h : Inv s := exec_invariant (fun _ _ _ => inv_step) ⟨fun id hid => (by cases hid), fun call hcall => (by cases hcall)⟩ hok hrun
  exact fun id hid => OutboxDates.mem_signalIds_read.2 (h.kept id hid)

def twoDates : OutboxDates where
  dateParse text :=
    if text = "2026-01-01T00:00:00.000Z" then some 1767225600000 else if text = "2026-01-01T00:01:00.000Z" then some 1767225660000 else none
  localeCompare := compare

def signal (signalId createdAt : String) : SignalOutboxEntry := ⟨signalId, "task", .completionReady, none, createdAt, none, none, none, none⟩

/-- Two appends, of which the second reads the file before or after the first has written it, and a
drain that delivers a signal. -/
def appendsRun (secondReads : Bool) : List OutboxEvent :=
  let opts : OutboxOptions := ⟨1767225670000, none, none⟩
  let appends : List OutboxEvent :=
    [.start (.appending (signal "a" "2026-01-01T00:00:00.000Z") opts), .start (.appending (signal "b" "2026-01-01T00:01:00.000Z") opts)]
  appends ++ (if secondReads then [.read 0, .rename 0, .read 0, .rename 0] else [.read 0, .read 1, .rename 0, .rename 0]) ++
    [.start (.draining opts), .read 0, .deliver 0 (if secondReads then .delivered else .transientFail none)]

theorem signals_kept_appendsRun : ∃ s, exec (step twoDates) (start []) (appendsRun true) = some s ∧
    StepsMeet (step twoDates) RewritesRead (start []) (appendsRun true) ∧ SignalsKept twoDates s := by
  have hsome : (exec (step twoDates) (start []) (appendsRun true)).isSome = true := by decide +kernel
  obtain ⟨s, hrun⟩ := Option.isSome_iff_exists.1 hsome
  have hok : StepsMeet (step twoDates) RewritesRead (start []) (appendsRun true) := by decide +kernel
  exact ⟨s, hrun, hok, signals_kept twoDates [] _ s hrun hok⟩

/-- The second append writes over the first, and all calls settle. -/
theorem append_lost : ¬∀ (events : List OutboxEvent) (s : SignalOutbox), exec (step twoDates) (start []) events = some s →
    s.calls = [] → SignalsKept twoDates s := by
  intro h
  have hlost : ((exec (step twoDates) (start []) (appendsRun false ++ [.rename 0])).filter fun s =>
      s.calls = [] ∧ "a" ∈ s.due ∧ "a" ∉ signalIds (twoDates.readPendingSignals s.pending)).isSome = true := by
    decide +kernel
  obtain ⟨s, hs⟩ := Option.isSome_iff_exists.1 hlost
  obtain ⟨hrun, hs⟩ := Option.filter_eq_some_iff.1 hs
  obtain ⟨hcalls, hdue, hnot⟩ := of_decide_eq_true hs
  exact hnot (h _ s hrun hcalls "a" hdue)

end SignalOutbox

end Kookr.Core
