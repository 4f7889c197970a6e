import Kookr.Lib.KeyedRows
import Kookr.Spec.Server.TerminalHostRpc
import Kookr.Lib.History
import Mathlib.Data.List.Perm.Basic

/-! What a control channel has charged is the sum over its charged calls, and the queue yields a call that comes first. -/

namespace Kookr.Server

open Kookr.Lib List

namespace TerminalHostMethod

/-- Readiness calls come before other control calls, and these before captures. -/
def rank (method : TerminalHostMethod) : ℕ := if method.isReadiness then 0 else if method.isBulk then 2 else 1

variable {method : TerminalHostMethod}

theorem rank_eq_zero (h : method.isReadiness = true) : method.rank = 0 := if_pos h

theorem one_le_rank (h : method.isReadiness = false) : 1 ≤ method.rank := by
  unfold rank
  split_ifs <;> simp_all

theorem rank_le_one (h : method.isBulk = false) : method.rank ≤ 1 := by
  unfold rank
  split_ifs <;> simp_all

theorem two_le_rank (hr : method.isReadiness = false) (hb : method.isBulk = true) : 2 ≤ method.rank := by
  unfold rank
  rw [hr, hb]
  exact Nat.le_refl 2

theorem rank_le_two (method : TerminalHostMethod) : method.rank ≤ 2 := by
  unfold rank
  split_ifs <;> decide

end TerminalHostMethod

theorem rank_pickIndex {methods : List TerminalHostMethod} {method other : TerminalHostMethod}
    (h : methods[pickIndex methods]? = some method) (hother : other ∈ methods) : method.rank ≤ other.rank := by
  unfold pickIndex at h
  cases hready : methods.findIdx? fun m => m.isReadiness with
  | some i =>
    obtain ⟨hi, hfound, -⟩ := findIdx?_eq_some_iff_getElem.1 hready
    rw [hready, Option.some_or, Option.getD_some, getElem?_eq_getElem hi] at h
    cases h
    rw [TerminalHostMethod.rank_eq_zero hfound]
    exact Nat.zero_le _
  | none =>
    have hnone := findIdx?_eq_none_iff.1 hready
    rw [hready, Option.none_or] at h
    cases hcontrol : methods.findIdx? fun m => !m.isBulk with
    | some i =>
      obtain ⟨hi, hfound, -⟩ := findIdx?_eq_some_iff_getElem.1 hcontrol
      rw [hcontrol, Option.getD_some, getElem?_eq_getElem hi] at h
      cases h
      exact Nat.le_trans (TerminalHostMethod.rank_le_one (by simpa using hfound)) (TerminalHostMethod.one_le_rank (by simpa using hnone other hother))
    | none =>
      have hbulk := findIdx?_eq_none_iff.1 hcontrol other hother
      exact Nat.le_trans (TerminalHostMethod.rank_le_two method)
        (TerminalHostMethod.two_le_rank (by simpa using hnone other hother) (by simpa using hbulk))

def totalOf (w : PendingRpc → ℤ) (calls : List PendingRpc) : ℤ := (calls.map fun p => if p.charged then w p else 0).sum

def ordinaryOf (w : PendingRpc → ℤ) (p : PendingRpc) : ℤ := if p.method.isReadiness then 0 else w p

def chargesOf (calls : List PendingRpc) : TerminalHostAdmission where
  count := totalOf (fun _ => 1) calls
  bytes := totalOf (fun p => p.bytes) calls
  ordinaryCount := totalOf (ordinaryOf fun _ => 1) calls
  ordinaryBytes := totalOf (ordinaryOf fun p => p.bytes) calls

theorem totalOf_concat (w : PendingRpc → ℤ) (calls : List PendingRpc) {p : PendingRpc} (h : p.charged = true) :
    totalOf w (calls ++ [p]) = totalOf w calls + w p := by
  simp [totalOf, h]

theorem chargesOf_concat (calls : List PendingRpc) {p : PendingRpc} (h : p.charged = true) :
    chargesOf (calls ++ [p]) = (chargesOf calls).charge p.method p.bytes := by
  ext
  · exact totalOf_concat _ _ h
  · exact totalOf_concat _ _ h
  · show totalOf _ _ = if _ then _ else _
    rw [totalOf_concat _ _ h, ordinaryOf]
    split_ifs
    · exact Int.add_zero _
    · rfl
  · show totalOf _ _ = if _ then _ else _
    rw [totalOf_concat _ _ h, ordinaryOf]
    split_ifs
    · exact Int.add_zero _
    · rfl

/-- A change of the marks of a call. -/
structure MarksOnly (change : PendingRpc → PendingRpc) : Prop where
  id : ∀ p, (change p).id = p.id
  method : ∀ p, (change p).method = p.method
  bytes : ∀ p, (change p).bytes = p.bytes

/-- The marks of one call are changed, and its charge is kept or released. -/
def amendCalls (p : PendingRpc) (keep : Bool) (change : PendingRpc → PendingRpc) (calls : List PendingRpc) : List PendingRpc :=
  calls.map fun q => if q.id = p.id then { change q with charged := keep && q.charged } else q

section amend

variable {calls : List PendingRpc} {p : PendingRpc} {change : PendingRpc → PendingRpc} (hn : (calls.map PendingRpc.id).Nodup)
  (hp : p ∈ calls) (hcharged : p.charged = true)
include hn hp hcharged

theorem totalOf_amend (keep : Bool) {w : PendingRpc → ℤ} (hw : ∀ q b, w { change q with charged := b } = w q) :
    totalOf w (amendCalls p keep change calls) = if keep then totalOf w calls else totalOf w calls - w p := by
  unfold totalOf amendCalls
  rw [sum_change hn hp, if_pos hcharged]
  rw [hw, hcharged, Bool.and_true]
  split_ifs
  · omega
  · omega

theorem chargesOf_amend (keep : Bool) (hmarks : MarksOnly change) :
    chargesOf (amendCalls p keep change calls) = if keep then chargesOf calls else (chargesOf calls).release p.method p.bytes := by
  have hbytes : ∀ q b, ((({ change q with charged := b } : PendingRpc).bytes : ℕ) : ℤ) = q.bytes := fun q _ =>
    congrArg Nat.cast (hmarks.bytes q)
  have hordinary : ∀ w : PendingRpc → ℤ, (∀ q b, w { change q with charged := b } = w q) →
      ∀ q b, ordinaryOf w { change q with charged := b } = ordinaryOf w q := by
    intro w hw q b
    unfold ordinaryOf
    rw [hw]
    rw [hmarks.method]
  have hone : ∀ (q : PendingRpc) (b : Bool), (fun _ => 1 : PendingRpc → ℤ) { change q with charged := b } = 1 := fun _ _ => rfl
  unfold chargesOf
  rw [totalOf_amend hn hp hcharged keep hone, totalOf_amend hn hp hcharged keep hbytes, totalOf_amend hn hp hcharged keep (hordinary _ hone),
    totalOf_amend hn hp hcharged keep (hordinary _ hbytes)]
  cases keep with
  | true => rfl
  | false =>
    have hless : ∀ total x : ℤ, total - (if p.method.isReadiness then 0 else x) = if p.method.isReadiness then total else total - x := by
      intro total x
      split_ifs
      · exact Int.sub_zero _
      · rfl
    simp only [Bool.false_eq_true, if_false, TerminalHostAdmission.release, ordinaryOf, hless]

end amend

theorem mem_amendCalls {calls : List PendingRpc} {p q : PendingRpc} {keep : Bool} {change : PendingRpc → PendingRpc}
    (h : q ∈ amendCalls p keep change calls) :
    ∃ r ∈ calls, r.id = p.id ∧ q = { change r with charged := keep && r.charged } ∨ r.id ≠ p.id ∧ q = r := by
  obtain ⟨r, hr, rfl⟩ := mem_map.1 h
  by_cases heq : r.id = p.id
  · exact ⟨r, hr, .inl ⟨heq, if_pos heq⟩⟩
  · exact ⟨r, hr, .inr ⟨heq, if_neg heq⟩⟩

theorem MarksOnly.ids {change : PendingRpc → PendingRpc} (h : MarksOnly change) (p : PendingRpc) (keep : Bool) (calls : List PendingRpc) :
    (amendCalls p keep change calls).map PendingRpc.id = calls.map PendingRpc.id := by
  rw [amendCalls, map_map]
  refine map_congr_left fun q _ => ?_
  show PendingRpc.id (if q.id = p.id then _ else q) = q.id
  split_ifs
  · exact h.id q
  · rfl

theorem MarksOnly.admitted {change : PendingRpc → PendingRpc} (h : MarksOnly change) (p : PendingRpc) (keep : Bool)
    (calls : List PendingRpc) :
    (amendCalls p keep change calls).map (fun q => (q.id, q.method, q.bytes)) = calls.map fun q => (q.id, q.method, q.bytes) := by
  rw [amendCalls, map_map]
  refine map_congr_left fun q _ => ?_
  simp only [Function.comp_apply]
  split_ifs
  · rw [h.id, h.method, h.bytes]
  · rfl

variable {ρ : Type} {c : RpcClient ρ} {p : PendingRpc}

theorem RpcClient.call_eq_some (hn : (c.calls.map PendingRpc.id).Nodup) {id : ℕ} : c.call id = some p ↔ p ∈ c.calls ∧ p.id = id := by
  constructor
  · intro h
    exact ⟨mem_of_find?_eq_some h, by simpa using find?_some h⟩
  · rintro ⟨hp, rfl⟩
    obtain ⟨q, hq⟩ : ∃ q, c.call p.id = some q := by
      rw [← Option.isSome_iff_exists, RpcClient.call, find?_isSome]
      exact ⟨p, hp, by simp⟩
    have hkey : q.id = p.id := by simpa using find?_some hq
    rw [hq, eq_of_key hn hp (mem_of_find?_eq_some hq) hkey]

end Kookr.Server

/-! What the operations of a control channel do to its calls: a call is settled, its transmission ends, the next
call is transmitted. The charge of a call is released by whichever of the first two comes last. -/

namespace Kookr.Server

open Kookr.Lib

variable {ρ : Type}

namespace RpcEntry

def settledId : RpcEntry ρ → Option ℕ
  | .settled id _ => some id
  | _ => none

def sentId : RpcEntry ρ → Option ℕ
  | .sent id => some id
  | _ => none

def reportedId : RpcEntry ρ → Option ℕ
  | .reported id => some id
  | _ => none

def isClosed : RpcEntry ρ → Bool
  | .closed => true
  | _ => false

def admittedCall : RpcEntry ρ → Option (ℕ × TerminalHostMethod × ℕ)
  | .admitted id method bytes => some (id, method, bytes)
  | _ => none

end RpcEntry

def settledIds (log : List (RpcEntry ρ)) : List ℕ := log.filterMap RpcEntry.settledId

def sentIds (log : List (RpcEntry ρ)) : List ℕ := log.filterMap RpcEntry.sentId

def reportedIds (log : List (RpcEntry ρ)) : List ℕ := log.filterMap RpcEntry.reportedId

def admittedCalls (log : List (RpcEntry ρ)) : List (ℕ × TerminalHostMethod × ℕ) := log.filterMap RpcEntry.admittedCall

theorem filterMap_concat {α β : Type} (f : α → Option β) (l : List α) (x : α) : (l ++ [x]).filterMap f = l.filterMap f ++ (f x).toList := by
  cases h : f x <;> simp [h]

section log

variable (log : List (RpcEntry ρ)) (entry : RpcEntry ρ)

theorem settledIds_concat : settledIds (log ++ [entry]) = settledIds log ++ entry.settledId.toList := filterMap_concat _ _ _

theorem sentIds_concat : sentIds (log ++ [entry]) = sentIds log ++ entry.sentId.toList := filterMap_concat _ _ _

theorem reportedIds_concat : reportedIds (log ++ [entry]) = reportedIds log ++ entry.reportedId.toList := filterMap_concat _ _ _

theorem admittedCalls_concat : admittedCalls (log ++ [entry]) = admittedCalls log ++ entry.admittedCall.toList := filterMap_concat _ _ _

end log

namespace RpcClient

def ids (c : RpcClient ρ) : List ℕ := c.calls.map PendingRpc.id

/-- The calls, their states and the charges agree. -/
structure Tracked (c : RpcClient ρ) : Prop where
  nodup : c.ids.Nodup
  fresh : ∀ id ∈ c.ids, id ≤ c.nextId
  admitted : admittedCalls c.log = c.calls.map fun p => (p.id, p.method, p.bytes)
  pending_nodup : c.pending.Nodup
  pending_iff : ∀ id, id ∈ c.pending ↔ id ∈ c.ids ∧ id ∉ settledIds c.log
  settled_nodup : (settledIds c.log).Nodup
  settled_mem : ∀ id ∈ settledIds c.log, id ∈ c.ids
  transmitting_mem : ∀ id, c.transmitting = some id → id ∈ c.ids
  settled_iff : ∀ p ∈ c.calls, p.settled = true ↔ p.id ∉ c.pending
  charged_iff : ∀ p ∈ c.calls, p.charged = true ↔ p.id ∈ c.pending ∨ c.transmitting = some p.id
  admission : c.admission = chargesOf c.calls
  retained : c.retainedBytes = c.admission.bytes
  within : c.admission.ordinaryCount ≤ 64 ∧ c.admission.ordinaryBytes ≤ 14 * MiB

/-- The mark of a call in transmission. -/
def Flagged (c : RpcClient ρ) : Prop := ∀ p ∈ c.calls, p.transmitting = true ↔ c.transmitting = some p.id

/-- One call is changed, and its charge is kept or released. -/
def amend (c : RpcClient ρ) (p : PendingRpc) (keep : Bool) (change : PendingRpc → PendingRpc) : RpcClient ρ :=
  { c with
    calls := amendCalls p keep change c.calls
    admission := if keep then c.admission else c.admission.release p.method p.bytes
    retainedBytes := if keep then c.retainedBytes else c.retainedBytes - p.bytes }

variable {c : RpcClient ρ} {p : PendingRpc} {keep : Bool} {change : PendingRpc → PendingRpc} {id : ℕ}

theorem marks_settled : MarksOnly fun p => { p with settled := true } := ⟨fun _ => rfl, fun _ => rfl, fun _ => rfl⟩

theorem marks_transmitting (transmitting : Bool) : MarksOnly fun p => { p with transmitting } :=
  ⟨fun _ => rfl, fun _ => rfl, fun _ => rfl⟩

theorem marks_none : MarksOnly fun p => p := ⟨fun _ => rfl, fun _ => rfl, fun _ => rfl⟩

/-- The marks of a call and the rest of the client are changed together. -/
theorem Tracked.amend (h : c.Tracked) (hp : p ∈ c.calls) (hcharged : p.charged = true) (hmarks : MarksOnly change)
    {pending queue : List ℕ} {transmitting : Option ℕ} {log : List (RpcEntry ρ)}
    (hadmitted : admittedCalls log = admittedCalls c.log) (hpending : pending.Nodup)
    (hiff : ∀ id, id ∈ pending ↔ id ∈ c.ids ∧ id ∉ settledIds log) (hnodup : (settledIds log).Nodup)
    (hmem : ∀ id ∈ settledIds log, id ∈ c.ids) (htransmitting : ∀ id, transmitting = some id → id ∈ c.ids)
    (hothers : ∀ q ∈ c.calls, q.id ≠ p.id → (q.id ∈ pending ↔ q.id ∈ c.pending) ∧ (transmitting = some q.id ↔ c.transmitting = some q.id))
    (hsettled : ∀ q ∈ c.calls, q.id = p.id → ((change q).settled = true ↔ q.id ∉ pending))
    (hkeep : keep = true ↔ p.id ∈ pending ∨ transmitting = some p.id) :
    ({ c.amend p keep change with pending, queue, transmitting, log } : RpcClient ρ).Tracked := by
  have hids : (c.amend p keep change).ids = c.ids := hmarks.ids p keep c.calls
  have hcharges := chargesOf_amend h.nodup hp hcharged keep hmarks
  have hkey : ∀ r ∈ c.calls, r.id = p.id → r = p := fun r hr hid => eq_of_key h.nodup hp hr hid
  refine ⟨?_, ?_, ?_, hpending, ?_, hnodup, ?_, ?_, ?_, ?_, ?_, ?_, ?_⟩
  · exact hids ▸ h.nodup
  · exact hids ▸ h.fresh
  · exact hadmitted.trans (h.admitted.trans (hmarks.admitted p keep c.calls).symm)
  · exact hids ▸ hiff
  · exact hids ▸ hmem
  · exact hids ▸ htransmitting
  · intro q hq
    obtain ⟨r, hr, ⟨hid, rfl⟩ | ⟨hid, rfl⟩⟩ := mem_amendCalls hq
    · have hsettled := hsettled r hr hid
      rwa [← hmarks.id r] at hsettled
    · rw [h.settled_iff q hr, (hothers q hr hid).1]
  · intro q hq
    obtain ⟨r, hr, ⟨hid, rfl⟩ | ⟨hid, rfl⟩⟩ := mem_amendCalls hq
    · obtain rfl := hkey r hr hid
      rw [hcharged, Bool.and_true, hmarks.id]
      exact hkeep
    · rw [h.charged_iff q hr, (hothers q hr hid).1, (hothers q hr hid).2]
  · show (if keep then c.admission else c.admission.release p.method p.bytes) = chargesOf (amendCalls p keep change c.calls)
    rw [hcharges, h.admission]
  · show (if keep then c.retainedBytes else c.retainedBytes - p.bytes) =
      (if keep then c.admission else c.admission.release p.method p.bytes).bytes
    rw [h.retained]
    split_ifs <;> rfl
  · show (if keep then c.admission else c.admission.release p.method p.bytes).ordinaryCount ≤ 64 ∧
      (if keep then c.admission else c.admission.release p.method p.bytes).ordinaryBytes ≤ 14 * MiB
    have hwithin := h.within
    split_ifs
    · exact hwithin
    · unfold TerminalHostAdmission.release
      dsimp only
      split_ifs <;> omega

theorem finish_of_not_mem {outcome : RpcOutcome ρ} (h : id ∉ c.pending) : c.finish id outcome = c := if_neg h

theorem finish_eq (outcome : RpcOutcome ρ) (h : c.Tracked) (hflag : c.Flagged) (hid : id ∈ c.pending) :
    ∃ p ∈ c.calls, p.id = id ∧ c.call id = some p ∧ p.charged = true ∧
      c.finish id outcome = { c.amend p (c.transmitting = some id) fun q => { q with settled := true } with
        pending := c.pending.erase id
        log := c.log ++ [.settled id outcome] } := by
  obtain ⟨p, hp, rfl⟩ := List.mem_map.1 ((h.pending_iff id).1 hid).1
  have hcall : c.call p.id = some p := (call_eq_some h.nodup).2 ⟨hp, rfl⟩
  have hcharged : p.charged = true := (h.charged_iff p hp).2 (.inl hid)
  refine ⟨p, hp, rfl, hcall, hcharged, ?_⟩
  unfold finish
  rw [if_pos hid, hcall]
  by_cases htransmitting : c.transmitting = some p.id
  · have hmark : p.transmitting = true := (hflag p hp).2 htransmitting
    simp only [hmark, if_true, htransmitting, decide_true, amend, note, setCall, amendCalls, Bool.true_and]
  · have hmark : p.transmitting = false := by
      rw [Bool.eq_false_iff, ne_eq, hflag p hp]
      exact htransmitting
    simp only [hmark, Bool.false_eq_true, if_false, htransmitting, decide_false, amend, note, release, hcharged, if_true, setCall,
      amendCalls, Bool.false_and, List.map_map]
    congr 1
    refine List.map_congr_left fun q _ => ?_
    simp only [Function.comp_apply]
    by_cases hid : q.id = p.id
    · simp only [hid, if_true]
    · simp only [hid, if_false]

theorem Tracked.finish (h : c.Tracked) (hflag : c.Flagged) (id : ℕ) (outcome : RpcOutcome ρ) :
    (c.finish id outcome).Tracked ∧ (c.finish id outcome).Flagged := by
  by_cases hid : id ∈ c.pending
  · obtain ⟨p, hp, rfl, -, hcharged, heq⟩ := finish_eq outcome h hflag hid
    rw [heq]
    have hsettled : settledIds (c.log ++ [.settled p.id outcome]) = settledIds c.log ++ [p.id] := settledIds_concat _ _
    have hunsettled := ((h.pending_iff p.id).1 hid).2
    refine ⟨h.amend hp hcharged marks_settled ?_ (h.pending_nodup.erase _) ?_ ?_ ?_ h.transmitting_mem ?_ ?_ ?_, ?_⟩
    · rw [admittedCalls_concat]
      exact List.append_nil _
    · intro id'
      rw [h.pending_nodup.mem_erase_iff, h.pending_iff, hsettled, List.mem_append, List.mem_singleton]
      tauto
    · rw [hsettled]
      rw [← List.concat_eq_append]
      exact h.settled_nodup.concat hunsettled
    · rw [hsettled]
      intro id' hid'
      rcases List.mem_append.1 hid' with hid' | hid'
      · exact h.settled_mem id' hid'
      · rw [List.mem_singleton.1 hid']
        exact ((h.pending_iff p.id).1 hid).1
    · intro q _ hne
      exact ⟨by rw [h.pending_nodup.mem_erase_iff]; exact ⟨fun h => h.2, fun h => ⟨hne, h⟩⟩, Iff.rfl⟩
    · intro q _ hkey
      rw [hkey, h.pending_nodup.mem_erase_iff]
      simp
    · rw [h.pending_nodup.mem_erase_iff, decide_eq_true_iff]
      exact ⟨.inr, fun h => h.resolve_left fun h => h.1 rfl⟩
    · intro q hq
      obtain ⟨r, hr, ⟨-, rfl⟩ | ⟨-, rfl⟩⟩ := mem_amendCalls hq
      · exact hflag r hr
      · exact hflag _ hr
  · rw [finish_of_not_mem hid]
    exact ⟨h, hflag⟩

/-- What settling a call leaves alone. -/
structure SettlesOnly (c c' : RpcClient ρ) : Prop where
  ids : c'.ids = c.ids
  queue : c'.queue = c.queue
  transmitting : c'.transmitting = c.transmitting
  closed : c'.closed = c.closed
  nextId : c'.nextId = c.nextId
  log : ∃ settled, c'.log = c.log ++ settled ∧ ∀ entry ∈ settled, ∃ id outcome, entry = .settled id outcome

theorem SettlesOnly.refl (c : RpcClient ρ) : SettlesOnly c c := ⟨rfl, rfl, rfl, rfl, rfl, [], (List.append_nil _).symm, by simp⟩

theorem SettlesOnly.trans {c' c'' : RpcClient ρ} (h : SettlesOnly c c') (h' : SettlesOnly c' c'') : SettlesOnly c c'' := by
  obtain ⟨settled, hlog, hsettled⟩ := h.log
  obtain ⟨settled', hlog', hsettled'⟩ := h'.log
  refine ⟨h'.ids.trans h.ids, h'.queue.trans h.queue, h'.transmitting.trans h.transmitting, h'.closed.trans h.closed,
    h'.nextId.trans h.nextId, settled ++ settled', by rw [hlog', hlog, List.append_assoc], fun entry hentry => ?_⟩
  rcases List.mem_append.1 hentry with hentry | hentry
  · exact hsettled entry hentry
  · exact hsettled' entry hentry

theorem settlesOnly_finish (h : c.Tracked) (hflag : c.Flagged) (id : ℕ) (outcome : RpcOutcome ρ) :
    SettlesOnly c (c.finish id outcome) := by
  by_cases hid : id ∈ c.pending
  · obtain ⟨p, hp, rfl, -, -, heq⟩ := finish_eq outcome h hflag hid
    rw [heq]
    exact ⟨marks_settled.ids p _ c.calls, rfl, rfl, rfl, rfl, [.settled p.id outcome], rfl, by simp⟩
  · rw [finish_of_not_mem hid]
    exact .refl c

theorem finish_with_queue (c : RpcClient ρ) (queue : List ℕ) (id : ℕ) (outcome : RpcOutcome ρ) :
    ({ c with queue } : RpcClient ρ).finish id outcome = { c.finish id outcome with queue } := by
  unfold finish
  by_cases hid : id ∈ c.pending
  · simp only [if_pos hid]
    rw [show ({ c with queue } : RpcClient ρ).call id = c.call id from rfl]
    cases c.call id with
    | none => rfl
    | some p =>
      by_cases hmark : p.transmitting = true
      · simp only [hmark, if_true]
        rfl
      · simp only [if_neg hmark]
        unfold release
        by_cases hcharged : p.charged = true
        · simp only [if_pos hcharged]
          rfl
        · simp only [if_neg hcharged]
          rfl
  · simp only [if_neg hid]

/-- A packet is sent once and before it is settled, after all others were reported, and none comes before it. -/
def SendExact (before : List (RpcEntry ρ)) : RpcEntry ρ → Prop
  | .sent id =>
    id ∉ sentIds before ∧ id ∉ settledIds before ∧ .closed ∉ before ∧ (∀ other ∈ sentIds before, other ∈ reportedIds before) ∧
      ∃ method bytes, (id, method, bytes) ∈ admittedCalls before ∧
        ∀ call ∈ admittedCalls before, call.1 ∉ settledIds before → call.1 ∉ sentIds before → method.rank ≤ call.2.1.rank
  | _ => True

structure Wired (c : RpcClient ρ) : Prop where
  sent_mem : ∀ id ∈ sentIds c.log, id ∈ c.ids
  sent_nodup : (sentIds c.log).Nodup
  reported_mem : ∀ id ∈ reportedIds c.log, id ∈ sentIds c.log
  queue_nodup : c.queue.Nodup
  queue_mem : ∀ id ∈ c.queue, id ∈ c.ids ∧ id ∉ sentIds c.log
  queue_all : c.closed = false → ∀ id ∈ c.pending, id ∉ sentIds c.log → id ∈ c.queue
  transmitting_iff : ∀ id, c.transmitting = some id ↔ c.closed = false ∧ id ∈ sentIds c.log ∧ id ∉ reportedIds c.log
  sends : Along SendExact c.log
  still_open : c.closed = false → .closed ∉ c.log

/-- The invariant of a channel that has not been closed. -/
structure Open (c : RpcClient ρ) : Prop where
  tracked : c.Tracked
  flagged : c.Flagged
  wired : c.Wired
  closed : c.closed = false

theorem along_settled {log settled : List (RpcEntry ρ)} (h : Along SendExact log)
    (hsettled : ∀ entry ∈ settled, ∃ id outcome, entry = .settled id outcome) : Along SendExact (log ++ settled) := by
  induction settled using List.reverseRecOn with
  | nil => rwa [List.append_nil]
  | append_singleton settled entry ih =>
    obtain ⟨id, outcome, rfl⟩ := hsettled entry (by simp)
    rw [← List.append_assoc]
    exact (ih fun entry hentry => hsettled entry (List.mem_append_left _ hentry)).concat trivial

theorem SettlesOnly.wire {c' : RpcClient ρ} (h : SettlesOnly c c') :
    sentIds c'.log = sentIds c.log ∧ reportedIds c'.log = reportedIds c.log ∧ (.closed ∈ c'.log ↔ .closed ∈ c.log) := by
  obtain ⟨settled, hlog, hsettled⟩ := h.log
  have hnone : ∀ f : RpcEntry ρ → Option ℕ, (∀ id outcome, f (.settled id outcome) = none) → settled.filterMap f = [] := by
    intro f hf
    rw [List.filterMap_eq_nil_iff]
    intro entry hentry
    obtain ⟨id, outcome, rfl⟩ := hsettled entry hentry
    exact hf id outcome
  rw [hlog]
  refine ⟨?_, ?_, ?_⟩
  · rw [sentIds, List.filterMap_append, hnone _ fun _ _ => rfl, List.append_nil]
    rfl
  · rw [reportedIds, List.filterMap_append, hnone _ fun _ _ => rfl, List.append_nil]
    rfl
  · rw [List.mem_append]
    refine or_iff_left fun hmem => ?_
    obtain ⟨id, outcome, heq⟩ := hsettled _ hmem
    cases heq

theorem Wired.settles {c' : RpcClient ρ} (h : c.Wired) (hs : SettlesOnly c c') (hpending : ∀ id ∈ c'.pending, id ∈ c.pending) :
    c'.Wired := by
  obtain ⟨hsent, hreported, hclosed⟩ := hs.wire
  obtain ⟨settled, hlog, hsettled⟩ := hs.log
  refine ⟨?_, ?_, ?_, ?_, ?_, ?_, ?_, ?_, ?_⟩
  · rw [hsent, hs.ids]
    exact h.sent_mem
  · rw [hsent]
    exact h.sent_nodup
  · rw [hsent, hreported]
    exact h.reported_mem
  · rw [hs.queue]
    exact h.queue_nodup
  · rw [hs.queue, hs.ids, hsent]
    exact h.queue_mem
  · rw [hs.queue, hs.closed, hsent]
    exact fun hopen id hid => h.queue_all hopen id (hpending id hid)
  · rw [hs.transmitting, hs.closed, hsent, hreported]
    exact h.transmitting_iff
  · rw [hlog]
    exact along_settled h.sends hsettled
  · rw [hs.closed, hclosed]
    exact h.still_open

theorem mem_pending_finish (h : c.Tracked) (hflag : c.Flagged) {outcome : RpcOutcome ρ} {id' : ℕ} :
    id' ∈ (c.finish id outcome).pending ↔ id' ≠ id ∧ id' ∈ c.pending := by
  by_cases hid : id ∈ c.pending
  · obtain ⟨p, hp, rfl, -, -, heq⟩ := finish_eq outcome h hflag hid
    rw [heq]
    exact h.pending_nodup.mem_erase_iff
  · rw [finish_of_not_mem hid]
    exact ⟨fun h => ⟨fun heq => hid (heq ▸ h), h⟩, fun h => h.2⟩

theorem Open.finish (h : c.Open) (id : ℕ) (outcome : RpcOutcome ρ) : (c.finish id outcome).Open := by
  have hs := settlesOnly_finish h.tracked h.flagged id outcome
  obtain ⟨htracked, hflagged⟩ := h.tracked.finish h.flagged id outcome
  refine ⟨htracked, hflagged, h.wired.settles hs fun id' hid' => ?_, hs.closed.trans h.closed⟩
  exact ((mem_pending_finish h.tracked h.flagged).1 hid').2

end RpcClient

end Kookr.Server
