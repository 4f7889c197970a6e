import Kookr.Lib.Exec
import Kookr.Lib.ListAt
import Kookr.Sanity.Server.RpcSteps

/-! Each call of a control channel is settled once, its packet is sent once and before that, and what is charged is
what is unsettled or in transmission. -/

namespace Kookr.Server

open Kookr.Lib List

namespace RpcClient

variable {ρ : Type} {c c' : RpcClient ρ} {p : PendingRpc} {id : ℕ} (calls : List PendingRpc)

theorem Tracked.requeue (h : c.Tracked) (queue : List ℕ) : ({ c with queue } : RpcClient ρ).Tracked := ⟨h.nodup, h.fresh, h.admitted,
  h.pending_nodup, h.pending_iff, h.settled_nodup, h.settled_mem, h.transmitting_mem, h.settled_iff, h.charged_iff, h.admission,
  h.retained, h.within⟩

theorem Wired.requeue (h : c.Wired) {queue : List ℕ} (hnodup : queue.Nodup) (hmem : ∀ id ∈ queue, id ∈ c.queue)
    (hall : c.closed = false → ∀ id ∈ c.pending, id ∉ sentIds c.log → id ∈ queue) : ({ c with queue } : RpcClient ρ).Wired :=
  ⟨h.sent_mem, h.sent_nodup, h.reported_mem, hnodup, fun id hid => h.queue_mem id (hmem id hid), hall, h.transmitting_iff, h.sends, h.still_open⟩

section

variable (h : c.Open)
include h

theorem Open.requeue {queue : List ℕ} (hnodup : queue.Nodup) (hmem : ∀ id ∈ queue, id ∈ c.queue)
    (hall : ∀ id ∈ c.pending, id ∉ sentIds c.log → id ∈ queue) : ({ c with queue } : RpcClient ρ).Open :=
  ⟨h.tracked.requeue queue, h.flagged, h.wired.requeue hnodup hmem fun _ => hall, h.closed⟩

def waiting (c : RpcClient ρ) : List ℕ := c.queue.filter fun id => id ∈ c.pending

/-- The place in the queue that `pump` takes. -/
def taken (c : RpcClient ρ) : ℕ := pickIndex (c.waiting.filterMap fun id => (c.call id).map PendingRpc.method)

omit h in
theorem mem_waiting : id ∈ c.waiting ↔ id ∈ c.queue ∧ id ∈ c.pending := by
  simp [waiting]

theorem Open.nodup_waiting : c.waiting.Nodup := h.wired.queue_nodup.filter _

def methodOf (c : RpcClient ρ) (id : ℕ) : TerminalHostMethod := ((c.call id).map PendingRpc.method).getD .dispose

theorem Open.methodOf_eq (hp : p ∈ c.calls) : c.methodOf p.id = p.method := by
  unfold methodOf
  rw [(call_eq_some h.tracked.nodup).2 ⟨hp, rfl⟩]
  rfl

theorem Open.waiting_methods : (c.waiting.filterMap fun id => (c.call id).map PendingRpc.method) = c.waiting.map c.methodOf := by
  rw [← filterMap_eq_map]
  refine filterMap_congr fun id hid => ?_
  obtain ⟨p, hp, rfl⟩ := mem_map.1 ((h.tracked.pending_iff id).1 (mem_waiting.1 hid).2).1
  show _ = some (c.methodOf p.id)
  rw [h.methodOf_eq hp, (call_eq_some h.tracked.nodup).2 ⟨hp, rfl⟩]
  rfl

theorem Open.taken_first (hp : (c.waiting[c.taken]?).bind c.call = some p) :
    p ∈ c.calls ∧ c.waiting[c.taken]? = some p.id ∧ ∀ q ∈ c.calls, q.id ∈ c.waiting → p.method.rank ≤ q.method.rank := by
  obtain ⟨id, hid, hcall⟩ := Option.bind_eq_some_iff.1 hp
  obtain ⟨hmem, rfl⟩ := (call_eq_some h.tracked.nodup).1 hcall
  refine ⟨hmem, hid, fun q hq hwaits => ?_⟩
  have htaken : (c.waiting.map c.methodOf)[pickIndex (c.waiting.map c.methodOf)]? = some p.method := by
    rw [getElem?_map, ← h.waiting_methods]
    show (c.waiting[c.taken]?).map c.methodOf = _
    rw [hid, Option.map_some, h.methodOf_eq hmem]
  have hrank := rank_pickIndex htaken (mem_map_of_mem hwaits)
  rwa [h.methodOf_eq hq] at hrank

theorem mem_left (hid : c.waiting[c.taken]? = some id) {other : ℕ} :
    other ∈ c.waiting.eraseIdx c.taken ↔ other ∈ c.waiting ∧ other ≠ id := by
  rw [mem_eraseIdx_iff_getElem?]
  constructor
  · rintro ⟨i, hne, hother⟩
    refine ⟨mem_of_getElem? hother, ?_⟩
    rintro rfl
    have hlt : i < c.waiting.length := (List.getElem?_eq_some_iff.1 hother).1
    exact hne ((getElem?_inj hlt h.nodup_waiting).1 (hother.trans hid.symm))
  · rintro ⟨hmem, hne⟩
    obtain ⟨i, hi⟩ := getElem?_of_mem hmem
    refine ⟨i, ?_, hi⟩
    rintro rfl
    exact hne (Option.some.inj (hi.symm.trans hid))

omit h in
theorem pumpFrom_succ (fuel : ℕ) (clock : ℕ → ℕ) (c : RpcClient ρ) : pumpFrom (fuel + 1) clock c =
    if c.closed || c.transmitting.isSome then c
    else match (c.waiting[c.taken]?).bind c.call with
      | none => { c with queue := c.waiting }
      | some pending =>
        if pending.deadline ≤ clock 0 then
          pumpFrom fuel (fun n => clock (n + 1)) (({ c with queue := c.waiting.eraseIdx c.taken } : RpcClient ρ).finish pending.id
            (.unavailable "Terminal host request expired before transmission"))
        else
          ({ c.amend pending true fun p => { p with transmitting := true } with
            queue := c.waiting.eraseIdx c.taken
            transmitting := some pending.id
            log := c.log ++ [.sent pending.id] } : RpcClient ρ) := rfl

theorem Open.finish_taken (hid : c.waiting[c.taken]? = some id) (outcome : RpcOutcome ρ) :
    (({ c with queue := c.waiting.eraseIdx c.taken } : RpcClient ρ).finish id outcome).Open := by
  rw [finish_with_queue]
  have hs := settlesOnly_finish h.tracked h.flagged id outcome
  refine (h.finish id outcome).requeue (h.nodup_waiting.eraseIdx _) (fun other hother => ?_) fun other hother hsent => ?_
  · rw [hs.queue]
    exact (mem_waiting.1 ((mem_left h hid).1 hother).1).1
  · obtain ⟨hne, hpending⟩ := (mem_pending_finish h.tracked h.flagged).1 hother
    rw [hs.wire.1] at hsent
    exact (mem_left h hid).2 ⟨mem_waiting.2 ⟨h.wired.queue_all h.closed other hpending hsent, hpending⟩, hne⟩

theorem Open.transmit (hidle : c.transmitting = none) (hp : (c.waiting[c.taken]?).bind c.call = some p) :
    ({ c.amend p true fun p => { p with transmitting := true } with
      queue := c.waiting.eraseIdx c.taken
      transmitting := some p.id
      log := c.log ++ [.sent p.id] } : RpcClient ρ).Open := by
  obtain ⟨hmem, hid, hfirst⟩ := h.taken_first hp
  obtain ⟨hqueued, hpending⟩ := mem_waiting.1 (mem_of_getElem? hid)
  obtain ⟨hknown, hunsettled⟩ := (h.tracked.pending_iff p.id).1 hpending
  have hunsent := (h.wired.queue_mem p.id hqueued).2
  have hcharged : p.charged = true := (h.tracked.charged_iff p hmem).2 (.inl hpending)
  have hids : (amendCalls p true (fun p => { p with transmitting := true }) c.calls).map PendingRpc.id = c.ids :=
    (marks_transmitting true).ids p true c.calls
  have hsettled : settledIds (c.log ++ [.sent p.id]) = settledIds c.log := (settledIds_concat _ _).trans (append_nil _)
  have hreported : reportedIds (c.log ++ [.sent p.id]) = reportedIds c.log := (reportedIds_concat _ _).trans (append_nil _)
  have hsent : sentIds (c.log ++ [.sent p.id]) = sentIds c.log ++ [p.id] := sentIds_concat _ _
  have hadmitted : admittedCalls (c.log ++ [.sent p.id]) = admittedCalls c.log := (admittedCalls_concat _ _).trans (append_nil _)
  -- no packet that was sent before is still in transmission
  have hquiet : ∀ other ∈ sentIds c.log, other ∈ reportedIds c.log := by
    intro other hother
    by_contra hreported
    have hbusy := (h.wired.transmitting_iff other).2 ⟨h.closed, hother, hreported⟩
    rw [hidle] at hbusy
    cases hbusy
  refine ⟨?_, ?_, ?_, h.closed⟩
  · refine h.tracked.amend hmem hcharged (marks_transmitting true) hadmitted h.tracked.pending_nodup ?_ ?_ ?_ ?_ ?_ ?_ ?_
    · rw [hsettled]
      exact h.tracked.pending_iff
    · rw [hsettled]
      exact h.tracked.settled_nodup
    · rw [hsettled]
      exact h.tracked.settled_mem
    · rintro id ⟨⟩
      exact hknown
    · intro q _ hne
      rw [hidle]
      exact ⟨Iff.rfl, ⟨fun heq => absurd (Option.some.inj heq).symm hne, nofun⟩⟩
    · exact fun q hq _ => h.tracked.settled_iff q hq
    · exact ⟨fun _ => .inl hpending, fun _ => rfl⟩
  · intro q hq
    obtain ⟨r, hr, ⟨hkey, rfl⟩ | ⟨hne, rfl⟩⟩ := mem_amendCalls hq
    · exact ⟨fun _ => congrArg some hkey.symm, fun _ => rfl⟩
    · rw [h.flagged _ hr, hidle]
      exact ⟨nofun, fun heq => absurd (Option.some.inj heq).symm hne⟩
  · refine ⟨?_, ?_, ?_, h.nodup_waiting.eraseIdx _, ?_, ?_, ?_, h.wired.sends.concat ?_, ?_⟩
    · rw [hsent]
      intro id hid
      show id ∈ (amendCalls _ _ _ _).map PendingRpc.id
      rw [hids]
      rcases mem_concat_cases hid with hid | rfl
      · exact h.wired.sent_mem id hid
      · exact hknown
    · rw [hsent, ← concat_eq_append]
      exact h.wired.sent_nodup.concat hunsent
    · rw [hsent, hreported]
      exact fun id hid => mem_append_left _ (h.wired.reported_mem id hid)
    · intro id hleft
      obtain ⟨hwaits, hne⟩ := (mem_left h hid).1 hleft
      obtain ⟨hknown, hunsent⟩ := h.wired.queue_mem id (mem_waiting.1 hwaits).1
      rw [hsent]
      refine ⟨?_, ?_⟩
      · show id ∈ (amendCalls _ _ _ _).map PendingRpc.id
        rwa [hids]
      · simp only [mem_append, mem_singleton, not_or]
        exact ⟨hunsent, hne⟩
    · rw [hsent]
      intro _ id hpending hunsent
      simp only [mem_append, mem_singleton, not_or] at hunsent
      exact (mem_left h hid).2 ⟨mem_waiting.2 ⟨h.wired.queue_all h.closed id hpending hunsent.1, hpending⟩, hunsent.2⟩
    · rw [hsent, hreported]
      intro id
      constructor
      · rintro ⟨⟩
        exact ⟨h.closed, by simp, fun hmem => hunsent (h.wired.reported_mem p.id hmem)⟩
      · rintro ⟨-, hsent, hquestion⟩
        rcases mem_concat_cases hsent with hsent | hsent
        · exact absurd (hquiet id hsent) hquestion
        · rw [hsent]
    · refine ⟨hunsent, hunsettled, h.wired.still_open h.closed, hquiet, p.method, p.bytes, ?_, ?_⟩
      · rw [h.tracked.admitted]
        exact mem_map_of_mem hmem
      · intro call hcall hopen hwaits
        rw [h.tracked.admitted] at hcall
        obtain ⟨q, hq, rfl⟩ := mem_map.1 hcall
        have hpending := (h.tracked.pending_iff q.id).2 ⟨mem_map_of_mem hq, hopen⟩
        exact hfirst q hq (mem_waiting.2 ⟨h.wired.queue_all h.closed q.id hpending hwaits, hpending⟩)
    · intro _ hmem
      rcases mem_concat_cases hmem with hmem | hmem
      · exact h.wired.still_open h.closed hmem
      · cases hmem

omit h in
theorem Open.pumpFrom (fuel : ℕ) (clock : ℕ → ℕ) (h : c.Open) : (pumpFrom fuel clock c).Open := by
  induction fuel generalizing clock c with
  | zero => exact h
  | succ fuel ih =>
    rw [pumpFrom_succ]
    by_cases hbusy : (c.closed || c.transmitting.isSome) = true
    · rwa [if_pos hbusy]
    · rw [if_neg hbusy]
      have hidle : c.transmitting = none := by
        rw [Bool.or_eq_true, not_or] at hbusy
        simpa using hbusy.2
      cases hp : (c.waiting[c.taken]?).bind c.call with
      | none =>
        refine h.requeue h.nodup_waiting (fun id hid => (mem_waiting.1 hid).1) fun id hpending hunsent => ?_
        exact mem_waiting.2 ⟨h.wired.queue_all h.closed id hpending hunsent, hpending⟩
      | some p =>
        simp only
        split_ifs
        · exact ih _ (h.finish_taken (h.taken_first hp).2.1 _)
        · exact h.transmit hidle hp

theorem Open.pump (clock : ℕ → ℕ) : (c.pump clock).Open := h.pumpFrom _ clock

end

theorem pumpFrom_enough (fuel : ℕ) (clock : ℕ → ℕ) (c : RpcClient ρ) (h : c.queue.length < fuel) : pumpFrom fuel clock c = c.pump clock := by
  induction hn : c.queue.length using Nat.strongRecOn generalizing fuel clock c with
  | ind n ih =>
    subst hn
    obtain ⟨fuel, rfl⟩ := Nat.exists_eq_succ_of_ne_zero (Nat.ne_zero_of_lt h)
    unfold RpcClient.pump
    rw [pumpFrom_succ, pumpFrom_succ]
    split_ifs
    · rfl
    · cases hp : (c.waiting[c.taken]?).bind c.call with
      | none => rfl
      | some p =>
        simp only
        split_ifs
        · obtain ⟨id, hid, -⟩ := Option.bind_eq_some_iff.1 hp
          have hlt : c.taken < c.waiting.length := (List.getElem?_eq_some_iff.1 hid).1
          have hle : c.waiting.length ≤ c.queue.length := length_filter_le _ _
          have hqueue : (({ c with queue := c.waiting.eraseIdx c.taken } : RpcClient ρ).finish p.id
              (.unavailable "Terminal host request expired before transmission")).queue.length < c.queue.length := by
            rw [finish_with_queue, length_eraseIdx_of_lt hlt]
            omega
          rw [ih _ hqueue fuel _ _ (by omega) rfl, ih _ hqueue c.queue.length _ _ hqueue rfl]
        · rfl

theorem Tracked.note (h : c.Tracked) {entry : RpcEntry ρ} (hsettled : entry.settledId = none) (hadmitted : entry.admittedCall = none) :
    (c.note entry).Tracked := by
  have hlog : settledIds (c.note entry).log = settledIds c.log := by
    show settledIds (c.log ++ [entry]) = _
    rw [settledIds_concat, hsettled]
    exact append_nil _
  have hcalls : admittedCalls (c.note entry).log = admittedCalls c.log := by
    show admittedCalls (c.log ++ [entry]) = _
    rw [admittedCalls_concat, hadmitted]
    exact append_nil _
  refine ⟨h.nodup, h.fresh, hcalls.trans h.admitted, h.pending_nodup, ?_, ?_, ?_, h.transmitting_mem, h.settled_iff, h.charged_iff,
    h.admission, h.retained, h.within⟩
  · rw [hlog]
    exact h.pending_iff
  · rw [hlog]
    exact h.settled_nodup
  · rw [hlog]
    exact h.settled_mem

theorem Wired.note (h : c.Wired) {entry : RpcEntry ρ} (hsent : entry.sentId = none)
    (hreported : ∀ id, entry.reportedId = some id → id ∈ sentIds c.log ∧ c.transmitting ≠ some id)
    (hopen : entry = .closed → c.closed = true) (hexact : SendExact c.log entry) : (c.note entry).Wired := by
  have hlog : sentIds (c.note entry).log = sentIds c.log := by
    show sentIds (c.log ++ [entry]) = _
    rw [sentIds_concat, hsent]
    exact append_nil _
  have hmem : ∀ id, id ∈ reportedIds (c.note entry).log ↔ id ∈ reportedIds c.log ∨ entry.reportedId = some id := by
    intro id
    show id ∈ reportedIds (c.log ++ [entry]) ↔ _
    rw [reportedIds_concat, mem_append, Option.mem_toList]
  refine ⟨?_, ?_, ?_, h.queue_nodup, ?_, ?_, ?_, h.sends.concat hexact, ?_⟩
  · rw [hlog]
    exact h.sent_mem
  · rw [hlog]
    exact h.sent_nodup
  · intro id hid
    rw [hlog]
    rcases (hmem id).1 hid with hid | hid
    · exact h.reported_mem id hid
    · exact (hreported id hid).1
  · rw [hlog]
    exact h.queue_mem
  · rw [hlog]
    exact h.queue_all
  · intro id
    rw [hlog, hmem, not_or]
    refine (h.transmitting_iff id).trans ⟨fun hid => ⟨hid.1, hid.2.1, hid.2.2, fun heq => ?_⟩, fun hid => ⟨hid.1, hid.2.1, hid.2.2.1⟩⟩
    exact (hreported id heq).2 ((h.transmitting_iff id).2 hid)
  · intro hfalse hclosed
    rcases mem_concat_cases hclosed with hclosed | hclosed
    · exact h.still_open hfalse hclosed
    · have htrue := hopen hclosed.symm
      exact absurd (htrue.symm.trans hfalse) (by decide)

theorem Open.refused (h : c.Open) (message : String) : (c.note (.refused message)).Open :=
  ⟨h.tracked.note rfl rfl, h.flagged, h.wired.note rfl nofun nofun trivial, h.closed⟩

theorem acquire_eq_some {a a' : TerminalHostAdmission} {method : TerminalHostMethod} {bytes : ℕ} (h : a.acquire method bytes = some a') :
    a' = a.charge method bytes ∧ (method.isReadiness = false → a.ordinaryCount < 64 ∧ a.ordinaryBytes + bytes ≤ 14 * MiB) := by
  unfold TerminalHostAdmission.acquire at h
  split_ifs at h with hfull
  refine ⟨(Option.some.inj h).symm, fun hordinary => ?_⟩
  simp only [not_or, not_and, hordinary, forall_const] at hfull
  omega

/-- The client with one more call. -/
def enlist (c : RpcClient ρ) (method : TerminalHostMethod) (bytes deadline : ℕ) : RpcClient ρ :=
  { c with
    nextId := c.nextId + 1
    admission := c.admission.charge method bytes
    calls := c.calls ++ [⟨c.nextId + 1, method, deadline, bytes, true, false, false⟩]
    pending := c.pending ++ [c.nextId + 1]
    retainedBytes := c.retainedBytes + bytes
    queue := c.queue ++ [c.nextId + 1]
    log := c.log ++ [.admitted (c.nextId + 1) method bytes] }

section enlist

variable (c) (method : TerminalHostMethod) (bytes deadline : ℕ)

theorem ids_enlist : (c.enlist method bytes deadline).ids = c.ids ++ [c.nextId + 1] := map_append

theorem settledIds_enlist : settledIds (c.enlist method bytes deadline).log = settledIds c.log :=
  (settledIds_concat _ _).trans (append_nil _)

theorem sentIds_enlist : sentIds (c.enlist method bytes deadline).log = sentIds c.log :=
  (sentIds_concat _ _).trans (append_nil _)

theorem reportedIds_enlist : reportedIds (c.enlist method bytes deadline).log = reportedIds c.log :=
  (reportedIds_concat _ _).trans (append_nil _)

theorem mem_calls_enlist {q : PendingRpc} (hq : q ∈ (c.enlist method bytes deadline).calls) :
    q ∈ c.calls ∨ q = ⟨c.nextId + 1, method, deadline, bytes, true, false, false⟩ := by
  rcases mem_concat_cases hq with hq | hq
  · exact .inl hq
  · exact .inr hq

end enlist

theorem mem_concat {l : List ℕ} {id new : ℕ} : id ∈ l ++ [new] ↔ id ∈ l ∨ id = new := by
  rw [mem_append, mem_singleton]

theorem nodup_concat {l : List ℕ} {new : ℕ} (h : l.Nodup) (hnew : new ∉ l) : (l ++ [new]).Nodup := by
  rw [← concat_eq_append]
  exact h.concat hnew

theorem Tracked.enlist (h : c.Tracked) {method : TerminalHostMethod} {bytes : ℕ} (deadline : ℕ)
    (hroom : method.isReadiness = false → c.admission.ordinaryCount < 64 ∧ c.admission.ordinaryBytes + bytes ≤ 14 * MiB) :
    (c.enlist method bytes deadline).Tracked := by
  have hnew : c.nextId + 1 ∉ c.ids := fun hmem => absurd (h.fresh _ hmem) (by omega)
  have hold : ∀ p ∈ c.calls, p.id ≠ c.nextId + 1 := fun p hp heq => hnew (heq ▸ mem_map_of_mem hp)
  have hpending : (c.enlist method bytes deadline).pending = c.pending ++ [c.nextId + 1] := rfl
  refine ⟨?_, ?_, ?_, ?_, ?_, ?_, ?_, ?_, ?_, ?_, ?_, ?_, ?_⟩
  · rw [ids_enlist]
    exact nodup_concat h.nodup hnew
  · rw [ids_enlist]
    intro id hid
    rcases mem_concat.1 hid with hid | rfl
    · exact Nat.le_succ_of_le (h.fresh id hid)
    · exact Nat.le_refl _
  · refine (admittedCalls_concat _ _).trans ?_
    show _ = (c.calls ++ [_]).map _
    rw [h.admitted, map_append]
    rfl
  · exact nodup_concat h.pending_nodup fun hpending => hnew ((h.pending_iff _).1 hpending).1
  · intro id
    rw [ids_enlist, settledIds_enlist, hpending, mem_concat, mem_concat, h.pending_iff]
    constructor
    · rintro (hid | rfl)
      · exact ⟨.inl hid.1, hid.2⟩
      · exact ⟨.inr rfl, fun hmem => hnew (h.settled_mem _ hmem)⟩
    · rintro ⟨hid | hid, hunsettled⟩
      · exact .inl ⟨hid, hunsettled⟩
      · exact .inr hid
  · rw [settledIds_enlist]
    exact h.settled_nodup
  · rw [ids_enlist, settledIds_enlist]
    exact fun id hid => mem_concat.2 (.inl (h.settled_mem id hid))
  · rw [ids_enlist]
    exact fun id hid => mem_concat.2 (.inl (h.transmitting_mem id hid))
  · intro q hq
    rw [hpending, mem_concat]
    rcases mem_calls_enlist c method bytes deadline hq with hq | rfl
    · rw [h.settled_iff q hq, or_iff_left (hold q hq)]
    · simp
  · intro q hq
    rw [hpending, mem_concat]
    rcases mem_calls_enlist c method bytes deadline hq with hq | rfl
    · rw [h.charged_iff q hq, or_iff_left (hold q hq)]
      rfl
    · simp
  · show c.admission.charge method bytes = chargesOf (c.calls ++ [_])
    rw [chargesOf_concat _ rfl, h.admission]
  · show c.retainedBytes + bytes = c.admission.bytes + bytes
    rw [h.retained]
  · obtain ⟨hcount, hbytes⟩ := h.within
    show (if method.isReadiness then _ else _) ≤ _ ∧ (if method.isReadiness then _ else _) ≤ _
    cases hready : method.isReadiness with
    | true => exact ⟨hcount, hbytes⟩
    | false =>
      obtain ⟨hcount', hbytes'⟩ := hroom hready
      omega

theorem Wired.enlist (h : c.Wired) (htracked : c.Tracked) (method : TerminalHostMethod) (bytes deadline : ℕ) :
    (c.enlist method bytes deadline).Wired := by
  have hnew : c.nextId + 1 ∉ c.ids := fun hmem => absurd (htracked.fresh _ hmem) (by omega)
  refine ⟨?_, ?_, ?_, ?_, ?_, ?_, ?_, h.sends.concat trivial, ?_⟩
  · rw [ids_enlist, sentIds_enlist]
    exact fun id hid => mem_concat.2 (.inl (h.sent_mem id hid))
  · rw [sentIds_enlist]
    exact h.sent_nodup
  · rw [sentIds_enlist, reportedIds_enlist]
    exact h.reported_mem
  · exact nodup_concat h.queue_nodup fun hqueued => hnew (h.queue_mem _ hqueued).1
  · rw [ids_enlist, sentIds_enlist]
    intro id hid
    rcases mem_concat.1 hid with hid | rfl
    · exact ⟨mem_concat.2 (.inl (h.queue_mem id hid).1), (h.queue_mem id hid).2⟩
    · exact ⟨mem_concat.2 (.inr rfl), fun hmem => hnew (h.sent_mem _ hmem)⟩
  · rw [sentIds_enlist]
    intro hopen id hid hunsent
    rcases mem_concat.1 hid with hid | hid
    · exact mem_concat.2 (.inl (h.queue_all hopen id hid hunsent))
    · exact mem_concat.2 (.inr hid)
  · rw [sentIds_enlist, reportedIds_enlist]
    exact h.transmitting_iff
  · intro hopen hclosed
    rcases mem_concat_cases hclosed with hclosed | hclosed
    · exact h.still_open hopen hclosed
    · cases hclosed

theorem Open.enlist (h : c.Open) {method : TerminalHostMethod} {bytes : ℕ} (deadline : ℕ)
    (hroom : method.isReadiness = false → c.admission.ordinaryCount < 64 ∧ c.admission.ordinaryBytes + bytes ≤ 14 * MiB) :
    (c.enlist method bytes deadline).Open := by
  refine ⟨h.tracked.enlist deadline hroom, fun q hq => ?_, h.wired.enlist h.tracked method bytes deadline, h.closed⟩
  rcases mem_calls_enlist c method bytes deadline hq with hq | rfl
  · exact h.flagged q hq
  · refine ⟨nofun, fun heq => ?_⟩
    exact absurd (h.tracked.fresh _ (h.tracked.transmitting_mem _ heq)) (by simp)

theorem Open.request (h : c.Open) (method : TerminalHostMethod) (payloadSize : Option ℕ) (cloneable : Bool) (timeoutMs : ℤ) (now : ℕ)
    (clock : ℕ → ℕ) : (c.request method payloadSize cloneable timeoutMs now clock).Open := by
  have hopen : ¬c.closed = true := by
    rw [h.closed]
    decide
  unfold RpcClient.request
  rw [if_neg hopen]
  cases payloadSize with
  | none => exact h.refused _
  | some size =>
    rw [Option.bind_some]
    cases hacquire : c.admission.acquire method (size + 256) with
    | none => exact h.refused _
    | some a =>
      obtain ⟨rfl, hroom⟩ := acquire_eq_some hacquire
      cases cloneable with
      | true => exact (h.enlist _ hroom).pump clock
      | false =>
        -- what was acquired is released, and the id is not used again
        have hback : (c.admission.charge method (size + 256)).release method (size + 256) = c.admission := by
          ext <;> simp only [TerminalHostAdmission.charge, TerminalHostAdmission.release]
          · omega
          · omega
          · split_ifs <;> omega
          · split_ifs <;> omega
        simp only [Bool.false_eq_true, if_false, hback]
        have hskip : ({ c with nextId := c.nextId + 1 } : RpcClient ρ).Open := by
          obtain ⟨⟨h1, h2, h3, h4, h5, h6, h7, h8, h9, h10, h11, h12, h13⟩, hflagged, hwired, hclosed⟩ := h
          exact ⟨⟨h1, fun id hid => Nat.le_succ_of_le (h2 id hid), h3, h4, h5, h6, h7, h8, h9, h10, h11, h12, h13⟩, hflagged,
            ⟨hwired.1, hwired.2, hwired.3, hwired.4, hwired.5, hwired.6, hwired.7, hwired.8, hwired.9⟩, hclosed⟩
        exact hskip.refused _

theorem Open.receive (h : c.Open) (response : TerminalHostResponse ρ) : (c.receive response).Open := by
  unfold RpcClient.receive
  split_ifs
  · exact h
  · exact h.finish _ _
  · exact h.finish _ _

theorem Open.report (h : c.Open) (hp : p ∈ c.calls) (hbusy : c.transmitting = some p.id) :
    ({ c.amend p (!p.settled) fun p => { p with transmitting := false } with
      transmitting := none
      log := c.log ++ [.reported p.id] } : RpcClient ρ).Open := by
  have hcharged : p.charged = true := (h.tracked.charged_iff p hp).2 (.inr hbusy)
  have hids : (c.amend p (!p.settled) fun p => { p with transmitting := false }).ids = c.ids :=
    (marks_transmitting false).ids p _ c.calls
  have hsettled : settledIds (c.log ++ [.reported p.id]) = settledIds c.log := (settledIds_concat _ _).trans (append_nil _)
  have hsent : sentIds (c.log ++ [.reported p.id]) = sentIds c.log := (sentIds_concat _ _).trans (append_nil _)
  have hreported : reportedIds (c.log ++ [.reported p.id]) = reportedIds c.log ++ [p.id] := reportedIds_concat _ _
  have hothers : ∀ id, id ≠ p.id → c.transmitting ≠ some id := by
    intro id hne heq
    exact hne (Option.some.inj (heq.symm.trans hbusy))
  refine ⟨?_, ?_, ?_, h.closed⟩
  · refine h.tracked.amend hp hcharged (marks_transmitting false) ((admittedCalls_concat _ _).trans (append_nil _))
      h.tracked.pending_nodup ?_ ?_ ?_ ?_ ?_ ?_ ?_
    · rw [hsettled]
      exact h.tracked.pending_iff
    · rw [hsettled]
      exact h.tracked.settled_nodup
    · rw [hsettled]
      exact h.tracked.settled_mem
    · exact nofun
    · exact fun q _ hne => ⟨Iff.rfl, ⟨nofun, fun heq => absurd heq (hothers q.id hne)⟩⟩
    · exact fun q hq _ => h.tracked.settled_iff q hq
    · have hiff := h.tracked.settled_iff p hp
      cases hmark : p.settled with
      | true => exact ⟨nofun, fun hor => absurd (hor.resolve_right (by simp)) (hiff.1 hmark)⟩
      | false =>
        rw [hmark] at hiff
        have hpending : p.id ∈ c.pending := by simpa using hiff
        exact ⟨fun _ => .inl hpending, fun _ => rfl⟩
  · intro q hq
    obtain ⟨r, hr, ⟨-, rfl⟩ | ⟨hne, rfl⟩⟩ := mem_amendCalls hq
    · exact ⟨nofun, nofun⟩
    · rw [h.flagged _ hr]
      exact ⟨fun heq => absurd heq (hothers _ hne), nofun⟩
  · refine ⟨?_, ?_, ?_, h.wired.queue_nodup, ?_, ?_, ?_, h.wired.sends.concat trivial, ?_⟩
    · rw [hsent]
      exact hids ▸ h.wired.sent_mem
    · rw [hsent]
      exact h.wired.sent_nodup
    · rw [hsent, hreported]
      intro id hid
      rcases mem_concat.1 hid with hid | rfl
      · exact h.wired.reported_mem id hid
      · exact ((h.wired.transmitting_iff p.id).1 hbusy).2.1
    · rw [hsent]
      exact hids ▸ h.wired.queue_mem
    · rw [hsent]
      exact h.wired.queue_all
    · rw [hsent, hreported]
      intro id
      refine ⟨nofun, fun ⟨_, hmem, hunreported⟩ => ?_⟩
      rw [mem_concat, not_or] at hunreported
      exact absurd ((h.wired.transmitting_iff id).2 ⟨h.closed, hmem, hunreported.1⟩) (hothers id hunreported.2)
    · intro hopen hclosed
      rcases mem_concat_cases hclosed with hclosed | hclosed
      · exact h.wired.still_open hopen hclosed
      · cases hclosed

theorem sent_of_ne (h : c.transmitting ≠ some id) (error : Option String) (clock : ℕ → ℕ) :
    c.sent id error clock = c.note (.reported id) := if_pos h

theorem Open.sent_eq (h : c.Open) (hp : p ∈ c.calls) (hbusy : c.transmitting = some p.id) (error : Option String) (clock : ℕ → ℕ) :
    let reported : RpcClient ρ := { c.amend p (!p.settled) fun p => { p with transmitting := false } with
      transmitting := none
      log := c.log ++ [.reported p.id] }
    c.sent p.id error clock =
      (if p.settled then reported
      else match error with
        | some message => reported.finish p.id (.unavailable ("Terminal host send failed: " ++ message))
        | none => reported).pump clock := by
  have hcharged : p.charged = true := (h.tracked.charged_iff p hp).2 (.inr hbusy)
  have hcall : (c.note (.reported p.id)).call p.id = some p := (call_eq_some h.tracked.nodup).2 ⟨hp, rfl⟩
  have hbusy' : ¬(c.note (.reported p.id)).transmitting ≠ some p.id := not_not.2 hbusy
  unfold RpcClient.sent
  simp only [if_neg hbusy', hcall]
  congr 1
  by_cases hsettled : p.settled = true
  · simp only [hsettled, if_true, release, hcharged, setCall, note, amend, amendCalls, map_map, Bool.not_true, Bool.false_and,
      Bool.false_eq_true, if_false]
    congr 1
    refine map_congr_left fun q _ => ?_
    simp only [Function.comp_apply]
    by_cases hid : q.id = p.id
    · simp only [hid, if_true]
    · simp only [hid, if_false]
  · simp only [hsettled, Bool.false_eq_true, if_false]
    cases error <;> rfl

theorem Open.sent (h : c.Open) (hid : id ∈ sentIds c.log) (error : Option String) (clock : ℕ → ℕ) : (c.sent id error clock).Open := by
  by_cases hbusy : c.transmitting = some id
  · obtain ⟨p, hp, rfl⟩ := mem_map.1 (h.tracked.transmitting_mem id hbusy)
    rw [h.sent_eq hp hbusy]
    have hreport := h.report hp hbusy
    refine Open.pump ?_ clock
    split_ifs
    · exact hreport
    · cases error with
      | none => exact hreport
      | some message => exact hreport.finish _ _
  · rw [sent_of_ne hbusy]
    refine ⟨h.tracked.note rfl rfl, h.flagged, h.wired.note rfl (fun _ heq => ?_) nofun trivial, h.closed⟩
    cases heq
    exact ⟨hid, hbusy⟩

/-- A channel that has been closed. -/
structure Shut (c : RpcClient ρ) : Prop where
  tracked : c.Tracked
  wired : c.Wired
  closed : c.closed = true
  logged : .closed ∈ c.log
  pending : c.pending = []
  transmitting : c.transmitting = none

theorem finish_all (h : c.Tracked) (hflag : c.Flagged) (outcome : RpcOutcome ρ) (l : List ℕ) :
    (l.foldl (fun c id => c.finish id outcome) c).Tracked ∧ (l.foldl (fun c id => c.finish id outcome) c).Flagged ∧
      SettlesOnly c (l.foldl (fun c id => c.finish id outcome) c) ∧
        ∀ id, id ∈ (l.foldl (fun c id => c.finish id outcome) c).pending → id ∈ c.pending ∧ id ∉ l := by
  induction l generalizing c with
  | nil => exact ⟨h, hflag, .refl c, fun id hid => ⟨hid, not_mem_nil⟩⟩
  | cons id l ih =>
    obtain ⟨htracked, hflagged⟩ := h.finish hflag id outcome
    obtain ⟨htracked', hflagged', hs, hpending⟩ := ih htracked hflagged
    refine ⟨htracked', hflagged', (settlesOnly_finish h hflag id outcome).trans hs, fun other hother => ?_⟩
    obtain ⟨hmem, hnot⟩ := hpending other hother
    obtain ⟨hne, hmem⟩ := (mem_pending_finish h hflag).1 hmem
    refine ⟨hmem, fun hl => ?_⟩
    rcases mem_cons.1 hl with rfl | hl
    · exact hne rfl
    · exact hnot hl

/-- What `close` leaves of the transmission. -/
def hangUp (c : RpcClient ρ) : RpcClient ρ :=
  let c := match c.transmitting.bind c.call with
    | some pending => c.release pending
    | none => c
  { c with transmitting := none, queue := [] }

theorem release_frame (c : RpcClient ρ) (p : PendingRpc) :
    (c.release p).log = c.log ∧ (c.release p).pending = c.pending ∧ (c.release p).closed = c.closed := by
  unfold release
  split_ifs <;> exact ⟨rfl, rfl, rfl⟩

theorem Tracked.hangUp (h : c.Tracked) (hpending : c.pending = []) : c.hangUp.Tracked ∧ c.hangUp.ids = c.ids ∧ c.hangUp.log = c.log ∧
    c.hangUp.pending = [] ∧ c.hangUp.closed = c.closed := by
  unfold RpcClient.hangUp
  cases htransmitting : c.transmitting with
  | none =>
    have hsame : ({ c with transmitting := none, queue := [] } : RpcClient ρ) = { c with queue := [] } := by
      rw [← htransmitting]
    exact ⟨hsame ▸ h.requeue [], rfl, rfl, hpending, rfl⟩
  | some id =>
    obtain ⟨p, hp, rfl⟩ := mem_map.1 (h.transmitting_mem id htransmitting)
    have hcharged : p.charged = true := (h.charged_iff p hp).2 (.inr htransmitting)
    have heq : ({ c.release p with transmitting := none, queue := [] } : RpcClient ρ) =
        { c.amend p false fun q => q with pending := c.pending, queue := [], transmitting := none, log := c.log } := by
      unfold release
      rw [if_pos hcharged]
      rfl
    rw [Option.bind_some, (call_eq_some h.nodup).2 ⟨hp, rfl⟩]
    simp only
    rw [heq]
    obtain ⟨hlog, hkept, hclosed⟩ := release_frame c p
    refine ⟨?_, marks_none.ids p false c.calls, hlog, hkept.trans hpending, hclosed⟩
    refine h.amend hp hcharged marks_none rfl h.pending_nodup h.pending_iff h.settled_nodup h.settled_mem ?_ ?_ ?_ ?_
    · exact nofun
    · intro q _ hne
      rw [htransmitting]
      exact ⟨Iff.rfl, ⟨nofun, fun heq => absurd (Option.some.inj heq).symm hne⟩⟩
    · exact fun q hq _ => h.settled_iff q hq
    · rw [hpending]
      exact ⟨nofun, fun hor => (by simp at hor)⟩

theorem Open.close (h : c.Open) (message : String) : (c.close message).Shut := by
  have htracked : (({ c with closed := true } : RpcClient ρ).note .closed).Tracked := by
    obtain ⟨h1, h2, h3, h4, h5, h6, h7, h8, h9, h10, h11, h12, h13⟩ := h.tracked
    have hclosed : ({ c with closed := true } : RpcClient ρ).Tracked := ⟨h1, h2, h3, h4, h5, h6, h7, h8, h9, h10, h11, h12, h13⟩
    exact hclosed.note rfl rfl
  have hopen : ¬c.closed = true := by
    rw [h.closed]
    decide
  obtain ⟨ht, -, hs, hpending⟩ := finish_all htracked h.flagged (.unavailable message) c.pending
  have hclose : c.close message = hangUp (c.pending.foldl (fun c id => c.finish id (.unavailable message))
      (({ c with closed := true } : RpcClient ρ).note .closed)) := if_neg hopen
  rw [hclose]
  generalize c.pending.foldl (fun c id => c.finish id (.unavailable message)) (({ c with closed := true } : RpcClient ρ).note .closed) =
    c' at ht hs hpending
  have hnone : c'.pending = [] := eq_nil_iff_forall_not_mem.2 fun id hid => (hpending id hid).2 (hpending id hid).1
  obtain ⟨hup, hids, hlog, hempty, hclosed⟩ := ht.hangUp hnone
  obtain ⟨hsent, hreported, -⟩ := hs.wire
  obtain ⟨settled, hsettledLog, hsettled⟩ := hs.log
  have hsent' : sentIds c'.log = sentIds c.log := hsent.trans ((sentIds_concat _ _).trans (append_nil _))
  have hreported' : reportedIds c'.log = reportedIds c.log := hreported.trans ((reportedIds_concat _ _).trans (append_nil _))
  have hshut : c'.hangUp.closed = true := hclosed.trans hs.closed
  refine ⟨hup, ⟨?_, ?_, ?_, nodup_nil, fun _ hid => absurd hid not_mem_nil, ?_, ?_, ?_, ?_⟩, hshut, ?_, hempty, rfl⟩
  · rw [hlog, hids, hsent', hs.ids]
    exact h.wired.sent_mem
  · rw [hlog, hsent']
    exact h.wired.sent_nodup
  · rw [hlog, hsent', hreported']
    exact h.wired.reported_mem
  · rw [hshut]
    exact nofun
  · rw [hshut]
    exact fun id => ⟨nofun, fun hfalse => (by cases hfalse.1)⟩
  · rw [hlog, hsettledLog]
    have hnoted : Along SendExact (c.log ++ [.closed]) := h.wired.sends.concat trivial
    exact along_settled hnoted hsettled
  · rw [hshut]
    exact nofun
  · rw [hlog, hsettledLog]
    exact mem_append_left _ (mem_append_right _ (mem_singleton.2 rfl))

/-- The invariant of a channel. -/
def Kept (c : RpcClient ρ) : Prop := c.Open ∨ c.Shut

theorem mem_sentIds_of_any (h : (c.log.any fun | .sent id' => id' = id | _ => false) = true) : id ∈ sentIds c.log := by
  obtain ⟨entry, hentry, hsent⟩ := any_eq_true.1 h
  refine mem_filterMap.2 ⟨entry, hentry, ?_⟩
  cases entry <;> first | cases hsent | exact congrArg some (of_decide_eq_true hsent)

theorem step_deadline (h : c.step (.deadline id) = some c') :
    id ∈ c.pending ∧ ∃ message, c' = c.finish id (.unavailable message) := by
  simp only [step, Option.ite_none_right_eq_some] at h
  obtain ⟨hid, h⟩ := h
  obtain ⟨p, -, rfl⟩ := Option.map_eq_some_iff.1 h
  exact ⟨hid, _, rfl⟩

theorem step_sent {error : Option String} {clock : ℕ → ℕ} (h : c.step (.sent id error clock) = some c') :
    id ∈ sentIds c.log ∧ c' = c.sent id error clock := by
  simp only [step, Option.ite_none_right_eq_some] at h
  exact ⟨mem_sentIds_of_any h.1, (Option.some.inj h.2).symm⟩

theorem Shut.step (h : c.Shut) {event : RpcEvent ρ} (hstep : c.step event = some c') : c'.Shut := by
  have hnote : ∀ entry : RpcEntry ρ, entry.settledId = none → entry.admittedCall = none → entry.sentId = none →
      (∀ id, entry.reportedId = some id → id ∈ sentIds c.log) → SendExact c.log entry → (c.note entry).Shut := by
    intro entry hsettled hadmitted hsent hreported hexact
    refine ⟨h.tracked.note hsettled hadmitted, h.wired.note hsent (fun id hid => ⟨hreported id hid, ?_⟩) (fun _ => h.closed) hexact,
      h.closed, mem_append_left _ h.logged, h.pending, h.transmitting⟩
    rw [h.transmitting]
    exact nofun
  cases event with
  | request method payloadSize cloneable timeoutMs now clock =>
    cases hstep
    unfold RpcClient.request
    rw [if_pos h.closed]
    exact hnote _ rfl rfl rfl nofun trivial
  | receive response =>
    cases hstep
    unfold RpcClient.receive
    rw [if_pos (by rw [h.closed]; rfl)]
    exact h
  | deadline id =>
    have hid := (step_deadline hstep).1
    rw [h.pending] at hid
    cases hid
  | sent id error clock =>
    obtain ⟨hsent, rfl⟩ := step_sent hstep
    rw [sent_of_ne (by rw [h.transmitting]; exact nofun)]
    refine hnote _ rfl rfl rfl (fun id' heq => ?_) trivial
    cases heq
    exact hsent
  | close message =>
    cases hstep
    unfold RpcClient.close
    rw [if_pos h.closed]
    exact h

theorem Kept.step (h : c.Kept) {event : RpcEvent ρ} (hstep : c.step event = some c') : c'.Kept := by
  rcases h with h | h
  · cases event with
    | request method payloadSize cloneable timeoutMs now clock =>
      cases hstep
      exact .inl (h.request method payloadSize cloneable timeoutMs now clock)
    | receive response =>
      cases hstep
      exact .inl (h.receive response)
    | deadline id =>
      obtain ⟨-, message, rfl⟩ := step_deadline hstep
      exact .inl (h.finish _ _)
    | sent id error clock =>
      obtain ⟨hsent, rfl⟩ := step_sent hstep
      exact .inl (h.sent hsent error clock)
    | close message =>
      cases hstep
      exact .inr (h.close message)
  · exact .inr (h.step hstep)

theorem kept_start (generation : String) : (start generation : RpcClient ρ).Kept := by
  have hroom : (0 : ℤ) ≤ 14 * MiB := Int.natCast_nonneg (14 * MiB)
  refine .inl ⟨⟨nodup_nil, ?_, rfl, nodup_nil, ?_, nodup_nil, ?_, ?_, ?_, ?_, rfl, rfl, ?_⟩, ?_,
    ⟨?_, nodup_nil, ?_, nodup_nil, ?_, ?_, ?_, along_nil, ?_⟩, rfl⟩
  all_goals simp [start, ids, Flagged, settledIds, sentIds, reportedIds, TerminalHostAdmission.empty, hroom]

def outstanding (log : List (RpcEntry ρ)) : List (ℕ × TerminalHostMethod × ℕ) :=
  (admittedCalls log).filter fun call =>
    call.1 ∉ settledIds log || (call.1 ∈ sentIds log && call.1 ∉ reportedIds log && !log.any RpcEntry.isClosed)

def ordinary (calls : List (ℕ × TerminalHostMethod × ℕ)) : List (ℕ × TerminalHostMethod × ℕ) :=
  calls.filter fun call => !call.2.1.isReadiness

def bytesOf (calls : List (ℕ × TerminalHostMethod × ℕ)) : ℕ := (calls.map fun call => call.2.2).sum

/-- The channel settles every call once, sends its packet at most once and charges what is outstanding. -/
structure Sound (c : RpcClient ρ) : Prop where
  settled_once : ∀ id, (settledIds c.log).count id = if id ∈ (admittedCalls c.log).map Prod.fst ∧ id ∉ c.pending then 1 else 0
  deadline_settles : ∀ id ∈ c.pending, ∃ c', c.step (.deadline id) = some c' ∧ id ∈ settledIds c'.log
  sends : Along SendExact c.log
  pendingBytes : c.retainedBytes = bytesOf (outstanding c.log)
  count : c.admission.count = (outstanding c.log).length
  bytes : c.admission.bytes = bytesOf (outstanding c.log)
  ordinaryCount : c.admission.ordinaryCount = (ordinary (outstanding c.log)).length
  ordinaryBytes : c.admission.ordinaryBytes = bytesOf (ordinary (outstanding c.log))
  within : (ordinary (outstanding c.log)).length ≤ 64 ∧ bytesOf (ordinary (outstanding c.log)) ≤ 14 * MiB
  drained : (∀ call ∈ admittedCalls c.log, call.1 ∈ settledIds c.log) → (∀ id ∈ sentIds c.log, id ∈ reportedIds c.log) →
    c.retainedBytes = 0 ∧ c.admission = .empty
  closed : c.closed = true → c.pending = [] ∧ c.retainedBytes = 0 ∧ c.admission = .empty

def tripleOf (p : PendingRpc) : ℕ × TerminalHostMethod × ℕ := (p.id, p.method, p.bytes)

/-! The sums over the charged calls. -/

theorem totalOf_eq (w : PendingRpc → ℤ) (calls : List PendingRpc) :
    totalOf w calls = ((calls.filter PendingRpc.charged).map w).sum := by
  unfold totalOf
  induction calls with
  | nil => rfl
  | cons p calls ih =>
    rw [map_cons, sum_cons, ih, filter_cons]
    split_ifs
    · rw [map_cons, sum_cons]
    · exact Int.zero_add _

theorem sum_ordinaryOf (w : PendingRpc → ℤ) (calls : List PendingRpc) :
    (calls.map (ordinaryOf w)).sum = ((calls.filter fun p => !p.method.isReadiness).map w).sum := by
  induction calls with
  | nil => rfl
  | cons p calls ih =>
    rw [map_cons, sum_cons, ih, filter_cons, ordinaryOf]
    cases p.method.isReadiness with
    | true => exact Int.zero_add _
    | false => rfl

theorem sum_bytes : (calls.map fun p => (p.bytes : ℤ)).sum = bytesOf (calls.map tripleOf) := by
  induction calls with
  | nil => rfl
  | cons p calls ih =>
    rw [map_cons, sum_cons, ih]
    exact (Int.natCast_add _ _).symm

theorem sum_ones : (calls.map fun _ => (1 : ℤ)).sum = (calls.map tripleOf).length := by
  induction calls with
  | nil => rfl
  | cons p calls ih =>
    rw [map_cons, sum_cons, map_cons, length_cons]
    omega

theorem ordinary_map : ordinary (calls.map tripleOf) = (calls.filter fun p => !p.method.isReadiness).map tripleOf := by
  unfold ordinary
  rw [filter_map]
  rfl

theorem Kept.tracked (h : c.Kept) : c.Tracked := h.elim Open.tracked Shut.tracked

theorem Kept.wired (h : c.Kept) : c.Wired := h.elim Open.wired Shut.wired

theorem Kept.outstanding_eq (h : c.Kept) : outstanding c.log = (c.calls.filter PendingRpc.charged).map tripleOf := by
  have ht := h.tracked
  unfold outstanding
  rw [ht.admitted, filter_map]
  congr 1
  refine filter_congr fun p hp => ?_
  have hclosed : c.log.any RpcEntry.isClosed = c.closed := by
    rcases h with h | h
    · rw [h.closed, any_eq_false]
      intro entry hentry hclosed
      cases entry <;> first | exact h.wired.still_open h.closed hentry | cases hclosed
    · rw [h.closed, any_eq_true]
      exact ⟨.closed, h.logged, rfl⟩
  have hknown : p.id ∈ c.ids := mem_map_of_mem hp
  have hpending : p.id ∈ c.pending ↔ p.id ∉ settledIds c.log := by
    rw [ht.pending_iff]
    exact and_iff_right hknown
  rw [Bool.eq_iff_iff, ht.charged_iff p hp, h.wired.transmitting_iff]
  simp only [Function.comp_apply, hclosed, Bool.or_eq_true, Bool.and_eq_true, decide_eq_true_eq, Bool.not_eq_true']
  tauto

theorem empty_of_outstanding (h : c.Kept) (hnone : outstanding c.log = []) : c.retainedBytes = 0 ∧ c.admission = .empty := by
  have hcharged : c.calls.filter PendingRpc.charged = [] := map_eq_nil_iff.1 (h.outstanding_eq.symm.trans hnone)
  have hadmission : c.admission = .empty := by
    rw [h.tracked.admission]
    unfold chargesOf
    simp only [totalOf_eq, hcharged]
    rfl
  exact ⟨by rw [h.tracked.retained, hadmission]; rfl, hadmission⟩

/-- Two calls, the first of which is settled before its packet is reported, and the channel is closed before the second is. -/
def closedInTransmission : List (RpcEvent ℕ) :=
  [.request .captureBytes (some 100) true 8000 0 (fun _ => 0), .request .writeInput (some 50) true 8000 0 (fun _ => 0),
    .receive ⟨true, "g", 1, some 10, 7, none⟩, .sent 1 none (fun _ => 1), .sent 1 none (fun _ => 1), .close "closed"]

end RpcClient

end Kookr.Server
