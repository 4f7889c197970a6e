import Kookr.Sanity.Core.LedgerEntries

/-! A ledger that is loaded from the file of another answers as that one did, but for the keys that
the file cannot hold. Every change of the finalized entries asks for a persist, so when no persist
waits for its turn, the one that has its turn, or had it last, has read the entries as they are. -/

namespace Kookr.Core.LedgerWorld

open Kookr.Lib IdempotencyLedger

variable {runtime : LedgerRuntime} {w w' : LedgerWorld} {ledger ledger' : IdempotencyLedger} {key : String}
  {entry : FinalizedState} {now : Timestamp} {e : Event}

def SameFinalized (ledger ledger' : IdempotencyLedger) : Prop :=
  ∀ key entry, ledger'.state.get key = some (.finalized entry) ↔ ledger.state.get key = some (.finalized entry)

theorem SameFinalized.length_le (h : SameFinalized ledger ledger') : ledger'.finalized.length ≤ ledger.finalized.length :=
  length_finalized_le fun key entry hget => mem_finalized.2 ((h key entry).1 hget)

theorem compactExpired_of_none (h : (ledger.compactExpired now).1 = 0) : (ledger.compactExpired now).2.state = ledger.state := by
  unfold compactExpired
  dsimp only
  refine OrderedMap.filter_eq_self _ _ fun e he => ?_
  have hfresh := List.countP_eq_zero.1 h e he
  simpa using hfresh

theorem reserveOrWait_finalized (ledger : IdempotencyLedger) (now : Timestamp) (promise : ℕ) (key : String) :
    SameFinalized (ledger.compactExpired now).2 (ledger.reserveOrWait now promise key).2 := by
  intro k entry
  unfold reserveOrWait
  dsimp only
  split
  · exact Iff.rfl
  · exact Iff.rfl
  · rename_i hnone
    rw [OrderedMap.get_set]
    split
    · rename_i hk
      rw [← hk, hnone]
      simp
    · exact Iff.rfl

theorem maxEntries_reserveOrWait {promise : ℕ} : (ledger.reserveOrWait now promise key).2.maxEntries = ledger.maxEntries := by
  unfold reserveOrWait
  dsimp only
  split <;> rfl

theorem delete_pending {t : Timestamp} {promise : ℕ} (hget : ledger.state.get key = some (.pending t promise)) :
    SameFinalized ledger (ledger.delete key) := by
  intro k entry
  unfold IdempotencyLedger.delete
  rw [OrderedMap.get_delete]
  split
  · rename_i hk
    rw [← hk, hget]
    simp
  · exact Iff.rfl

/-- The text was written for the finalized entries of the ledger. -/
def Writes (text : List Char) (ledger : IdempotencyLedger) : Prop :=
  ∃ entries : List (String × FinalizedState), (entries.map Prod.fst).Nodup ∧ text = fileText entries ∧
    ∀ key entry, (key, entry) ∈ entries ↔ ledger.state.get key = some (.finalized entry)

theorem writes_fileText (ledger : IdempotencyLedger) : Writes (fileText ledger.finalized) ledger :=
  ⟨ledger.finalized, nodup_finalized ledger, rfl, fun _ _ => mem_finalized⟩

theorem Writes.same {text : List Char} (h : Writes text ledger) (hsame : SameFinalized ledger ledger') : Writes text ledger' := by
  obtain ⟨entries, hn, rfl, hmem⟩ := h
  exact ⟨entries, hn, rfl, fun key entry => (hmem key entry).trans (hsame key entry).symm⟩

/-- The file has the entries of the ledger: it is still the one that was loaded, or the last persist
has written it. -/
def OnDisk (runtime : LedgerRuntime) (w : LedgerWorld) : Prop :=
  (w.lastPersist = none ∧
    ∀ key entry, (key, entry) ∈ readFile runtime w.file ↔ w.ledger.state.get key = some (.finalized entry)) ∨
  w.lastPersist = some true ∧ ∃ text, w.file = some text ∧ Writes text w.ledger

/-- When no persist waits for its turn. -/
def Covered (runtime : LedgerRuntime) (w : LedgerWorld) : Prop :=
  match w.writing with
  | none => w.lastPersist = some false ∨ OnDisk runtime w
  | some write => Writes write.text w.ledger ∧ (write.renamed = true → w.file = some write.text)

structure Durable (runtime : LedgerRuntime) (w : LedgerWorld) : Prop where
  fits : w.ledger.finalized.length ≤ w.ledger.maxEntries
  covered : w.waiting = 0 → Covered runtime w

theorem Durable.persist (hfits : w.ledger.finalized.length ≤ w.ledger.maxEntries) : Durable runtime w.persist :=
  ⟨hfits, nofun⟩

theorem Covered.same (h : Covered runtime w) (hsame : SameFinalized w.ledger ledger') :
    Covered runtime { w with ledger := ledger' } := by
  unfold Covered at h ⊢
  split
  · rename_i hwriting
    rw [hwriting] at h
    refine h.imp_right fun hdisk => ?_
    rcases hdisk with ⟨hlast, hread⟩ | ⟨hlast, text, hfile, hwrites⟩
    · exact .inl ⟨hlast, fun key entry => (hread key entry).trans (hsame key entry).symm⟩
    · exact .inr ⟨hlast, text, hfile, hwrites.same hsame⟩
  · rename_i write hwriting
    rw [hwriting] at h
    exact ⟨h.1.same hsame, h.2⟩

section

variable (h : Durable runtime w)
include h

/-- A change of the ledger that asks for a persist if the finalized entries change. -/
theorem Durable.persistIf {changed : Bool}
    (hfits : ledger'.finalized.length ≤ ledger'.maxEntries) (hsame : changed = false → SameFinalized w.ledger ledger') :
    Durable runtime (persistIf { w with ledger := ledger' } changed) := by
  unfold LedgerWorld.persistIf
  split
  · exact Durable.persist hfits
  · rename_i hchanged
    exact ⟨hfits, fun hwaiting => (h.covered hwaiting).same (hsame (by simpa using hchanged))⟩

theorem Durable.reserve (key : String) : Durable runtime (w.reserve key) := by
  have hsame := reserveOrWait_finalized w.ledger w.now 0 key
  refine h.persistIf ?_ fun hnone k entry => ?_
  · rw [maxEntries_reserveOrWait]
    refine (length_finalized_le fun k entry hget => ?_).trans h.fits
    exact mem_finalized.2 (shrinks_compactExpired.finalized ((hsame k entry).1 hget))
  · rw [hsame, compactExpired_of_none (by simpa using hnone)]

omit h in
theorem configure_of_none {ttlMs maxEntries : ℕ} (h : (ledger.configure runtime now ttlMs maxEntries).1 = 0) :
    SameFinalized ledger (ledger.configure runtime now ttlMs maxEntries).2 := by
  have hsize : (compactBySize runtime (compactExpired { ledger with ttlMs, maxEntries } now).2).1 = 0 :=
    Nat.eq_zero_of_add_eq_zero_left h
  have hevicted : compactBySize runtime (compactExpired { ledger with ttlMs, maxEntries } now).2 =
      (0, (compactExpired { ledger with ttlMs, maxEntries } now).2) := compactBySize_of_fits (fits_of_compactBySize hsize)
  have hexpired : (compactExpired { ledger with ttlMs, maxEntries } now).1 = 0 := Nat.eq_zero_of_add_eq_zero_right h
  intro key entry
  unfold IdempotencyLedger.configure
  dsimp only
  rw [hevicted, compactExpired_of_none hexpired]

theorem Durable.configure (ttlMs maxEntries : ℕ) : Durable runtime (w.configure runtime ttlMs maxEntries) := by
  have hfits : (w.ledger.configure runtime w.now ttlMs maxEntries).2.finalized.length ≤
      (w.ledger.configure runtime w.now ttlMs maxEntries).2.maxEntries :=
    le_of_le_of_eq length_compactBySize maxEntries_compactBySize.symm
  exact h.persistIf hfits fun hnone => configure_of_none (Nat.eq_zero_of_not_pos (of_decide_eq_false hnone))

theorem Durable.snapshot (hstep : w.snapshot = some w') : Durable runtime w' := by
  unfold LedgerWorld.snapshot at hstep
  split at hstep
  · cases hstep
    exact ⟨h.fits, fun _ => ⟨writes_fileText _, nofun⟩⟩
  · cases hstep

theorem Durable.rename (hstep : w.rename = some w') : Durable runtime w' := by
  unfold LedgerWorld.rename at hstep
  split at hstep
  · rename_i text hwriting
    cases hstep
    refine ⟨h.fits, fun hwaiting => ?_⟩
    have hcovered := h.covered hwaiting
    unfold Covered at hcovered
    rw [hwriting] at hcovered
    exact ⟨hcovered.1, fun _ => rfl⟩
  · cases hstep

theorem Durable.written {ok : Bool} (hstep : w.written ok = some w') : Durable runtime w' := by
  unfold LedgerWorld.written at hstep
  split at hstep
  · cases hstep
  · rename_i write hwriting
    split at hstep
    · cases hstep
    · rename_i hrenamed
      cases hstep
      refine ⟨h.fits, fun hwaiting => ?_⟩
      have hcovered := h.covered hwaiting
      unfold Covered at hcovered
      rw [hwriting] at hcovered
      cases ok with
      | false => exact .inl rfl
      | true => exact .inr (.inr ⟨rfl, write.text, hcovered.2 (by simpa using hrenamed), hcovered.1⟩)

omit h in
theorem settle_eq_some {f : Timestamp → LedgerWorld} (h : w.settle key f = some w') :
    ∃ t promise, w.ledger.state.get key = some (.pending t promise) ∧ f t = w' := by
  unfold settle at h
  split at h
  · rename_i t promise hget
    exact ⟨t, promise, hget, Option.some.inj h⟩
  · cases h

theorem Durable.clear (hstep : w.clear key = some w') : Durable runtime w' := by
  unfold LedgerWorld.clear at hstep
  split at hstep
  · cases hstep
  · rename_i entry hget
    cases hstep
    refine Durable.persist ((length_finalized_le fun k entry' hget' => ?_).trans h.fits)
    exact mem_finalized.2 ((shrinks_delete hget).finalized hget')
  · cases hstep
    exact h

theorem Durable.step (hstep : w.step runtime e = some w') : Durable runtime w' := by
  cases e with
  | reserve key => cases hstep; exact h.reserve key
  | finalize key taskId duplicate =>
    obtain ⟨t, promise, -, rfl⟩ := settle_eq_some hstep
    exact Durable.persist (le_of_le_of_eq length_compactBySize maxEntries_compactBySize.symm)
  | release key =>
    obtain ⟨t, promise, hget, rfl⟩ := settle_eq_some hstep
    have hsame := delete_pending hget
    exact ⟨hsame.length_le.trans h.fits, fun hwaiting => (h.covered hwaiting).same hsame⟩
  | clear key => exact h.clear hstep
  | configure ttlMs maxEntries => cases hstep; exact h.configure ttlMs maxEntries
  | tick now => cases hstep; exact ⟨h.fits, h.covered⟩
  | snapshot => exact h.snapshot hstep
  | rename => exact h.rename hstep
  | written ok => exact h.written hstep

omit h in
theorem readFile_filter (runtime : LedgerRuntime) (file : Option (List Char)) :
    readFile runtime (file.filter fun text => (Json.parse text).isSome) = readFile runtime file := by
  cases file with
  | none => rfl
  | some text =>
    rw [Option.filter_some]
    cases hparse : Json.parse text with
    | none => simp [readFile, hparse]
    | some loaded => rfl

omit h in
theorem Durable.boot (runtime : LedgerRuntime) (file : Option (List Char)) (ttlMs maxEntries : ℕ) (now : Timestamp) :
    Durable runtime (boot runtime file ttlMs maxEntries now) := by
  have hfits : (load runtime file ttlMs maxEntries now).2.finalized.length ≤
      (load runtime file ttlMs maxEntries now).2.maxEntries :=
    le_of_le_of_eq length_compactBySize maxEntries_compactBySize.symm
  unfold LedgerWorld.boot LedgerWorld.persistIf
  dsimp only
  split
  · exact Durable.persist hfits
  · rename_i hremoved
    have hzero : (load runtime file ttlMs maxEntries now).1 = 0 :=
      Nat.eq_zero_of_not_pos fun hpos => hremoved (decide_eq_true hpos)
    refine ⟨hfits, fun _ => .inr (.inl ⟨rfl, fun key entry => ?_⟩)⟩
    dsimp only
    rw [readFile_filter, get_load_of_none hzero]

def Storable (key : String) (entry : FinalizedState) : Prop := key ≠ "__proto__" ∧ entry.taskId ≠ ""

theorem Durable.readFile (hsettled : w.Settled) : ∀ key entry, (key, entry) ∈ IdempotencyLedger.readFile runtime w.file ↔
      w.ledger.state.get key = some (.finalized entry) ∧ (w.lastPersist = none ∨ Storable key entry) := by
  intro key entry
  have hcovered := h.covered hsettled.waiting
  unfold Covered at hcovered
  rw [hsettled.writing] at hcovered
  rcases hcovered with hfailed | ⟨hnone, hread⟩ | ⟨hlast, text, hfile, entries, hn, rfl, hmem⟩
  · exact absurd hfailed hsettled.lastPersist
  · rw [hread]
    exact ⟨fun hget => ⟨hget, .inl hnone⟩, And.left⟩
  · rw [hfile, mem_readFile_fileText hn, hmem, hlast]
    simp [Storable]

theorem Durable.get_restart {state : LedgerState} (hsettled : w.Settled) : (w.restart runtime).state.get key = some state ↔
      ∃ entry, state = .finalized entry ∧ w.ledger.state.get key = some (.finalized entry) ∧
        isExpired w.ledger.ttlMs w.now entry = false ∧ (w.lastPersist = none ∨ Storable key entry) := by
  have hread := h.readFile hsettled
  unfold restart
  rw [get_load]
  · simp only [hread]
    constructor
    · rintro ⟨entry, rfl, ⟨hget, hstorable⟩, hfresh⟩
      exact ⟨entry, rfl, hget, hfresh, hstorable⟩
    · rintro ⟨entry, rfl, hget, hfresh, hstorable⟩
      exact ⟨entry, rfl, ⟨hget, hstorable⟩, hfresh⟩
  · refine (length_le_finalized ?_ fun key entry hmem => ?_).trans h.fits
    · exact (nodup_readFile runtime w.file).sublist (List.filter_sublist.map Prod.fst)
    · exact ((hread key entry).1 (List.mem_filter.1 hmem).1).1

omit h in
theorem ttlMs_restart : (w.restart runtime).ttlMs = w.ledger.ttlMs := by
  unfold restart load compactBySize
  dsimp only
  split <;> rfl

/-- The old ledger would replay the key, and the new one answers the same only if the file could
hold the entry. -/
theorem Durable.answer_eq_iff (hsettled : w.Settled) (key : String) :
    answer (w.restart runtime) w.now key = answer w.ledger w.now key ↔
      ∀ entry, w.ledger.state.get key = some (.finalized entry) → isExpired w.ledger.ttlMs w.now entry = false →
        w.lastPersist = none ∨ Storable key entry := by
  have hpending : ∀ t r, (w.restart runtime).state.get key ≠ some (.pending t r) := by
    intro t r hget
    obtain ⟨_, heq, -⟩ := (h.get_restart hsettled).1 hget
    cases heq
  by_cases hold : ∃ entry, w.ledger.state.get key = some (.finalized entry) ∧ isExpired w.ledger.ttlMs w.now entry = false
  · obtain ⟨entry, hget, hfresh⟩ := hold
    have holdAnswer : answer w.ledger w.now key = .replay entry.taskId entry.duplicate := reserveOrWait_replay hget hfresh
    rw [holdAnswer]
    constructor
    · intro heq entry' hget' _
      obtain rfl : entry = entry' := by
        rw [hget] at hget'
        cases hget'
        rfl
      by_contra hlost
      have hown : answer (w.restart runtime) w.now key = .own := by
        refine reserveOrWait_own hpending fun entry' hget' => ?_
        obtain ⟨entry'', heq', hget'', -, hstorable⟩ := (h.get_restart hsettled).1 hget'
        rw [hget] at hget''
        cases hget''
        exact absurd hstorable hlost
      rw [hown] at heq
      cases heq
    · intro hstorable
      refine reserveOrWait_replay ((h.get_restart hsettled).2 ⟨entry, rfl, hget, hfresh, hstorable entry hget hfresh⟩) ?_
      rw [ttlMs_restart]
      exact hfresh
  · have hstale : ∀ entry, w.ledger.state.get key = some (.finalized entry) →
        isExpired w.ledger.ttlMs w.now entry = true := by
      intro entry hget
      cases hexpired : isExpired w.ledger.ttlMs w.now entry with
      | true => rfl
      | false => exact absurd ⟨entry, hget, hexpired⟩ hold
    have holdAnswer : answer w.ledger w.now key = .own := reserveOrWait_own (hsettled.reservations key) hstale
    have hnewAnswer : answer (w.restart runtime) w.now key = .own := by
      refine reserveOrWait_own hpending fun entry hget => ?_
      obtain ⟨entry', heq, hget', hfresh, -⟩ := (h.get_restart hsettled).1 hget
      exact absurd ⟨entry', hget', hfresh⟩ hold
    rw [holdAnswer, hnewAnswer]
    refine ⟨fun _ entry hget hfresh => absurd ⟨entry, hget, hfresh⟩ hold, fun _ => rfl⟩

end

/-- A new ledger on the file answers every key as the settled one would, exactly if the file was not
written since the ledger was loaded, or could hold each entry that would be replayed. -/
theorem restart_agrees_iff (runtime : LedgerRuntime) {file : Option (List Char)} {ttlMs maxEntries : ℕ} {now : Timestamp}
    {events : List Event} {w : LedgerWorld}
    (hrun : exec (step runtime) (boot runtime file ttlMs maxEntries now) events = some w) (hsettled : w.Settled) :
    (∀ key, answer (w.restart runtime) w.now key = answer w.ledger w.now key) ↔
      w.lastPersist = none ∨ ∀ key entry, w.ledger.state.get key = some (.finalized entry) →
        isExpired w.ledger.ttlMs w.now entry = false → key ≠ "__proto__" ∧ entry.taskId ≠ "" := by
  have hdurable : Durable runtime w :=
    exec_preserves (fun _ _ _ h hstep => h.step hstep) (Durable.boot runtime file ttlMs maxEntries now) hrun
  constructor
  · intro hagrees
    by_cases hnone : w.lastPersist = none
    · exact .inl hnone
    · refine .inr fun key entry hget hfresh => ?_
      exact ((hdurable.answer_eq_iff hsettled key).1 (hagrees key) entry hget hfresh).resolve_left hnone
  · intro hstorable key
    refine (hdurable.answer_eq_iff hsettled key).2 fun entry hget hfresh => ?_
    exact hstorable.imp_right fun h => h key entry hget hfresh

theorem no_reservations (h : ∀ e ∈ ledger.state.entries, e.2.finalized?.isSome = true) (key : String) (t : Timestamp)
    (promise : ℕ) : ledger.state.get key ≠ some (.pending t promise) := by
  intro hget
  have hsome := h _ ((OrderedMap.get_eq_some_iff _ _ _).1 hget)
  cases hsome

theorem storable_of_finalized (h : ∀ e ∈ ledger.finalized, e.1 ≠ "__proto__" ∧ e.2.taskId ≠ "") (key : String)
    (entry : FinalizedState) (hget : ledger.state.get key = some (.finalized entry))
    (_ : isExpired ledger.ttlMs now entry = false) : key ≠ "__proto__" ∧ entry.taskId ≠ "" :=
  h (key, entry) (mem_finalized.2 hget)

def epoch : Timestamp := .epoch

/-- Two keys are finalized while the first persist has its turn; the second key is cleared. -/
def twoKeysRun : List Event :=
  [.reserve "retry-1", .reserve "retry-2", .finalize "retry-1" "task-1" true, .snapshot, .finalize "retry-2" "task-2" false,
    .rename, .written true, .snapshot, .clear "retry-2", .written false, .snapshot, .rename, .written true]

theorem restart_agrees_twoKeysRun : ∃ w, exec (step isoRuntime) (boot isoRuntime none 86400000 10 epoch) twoKeysRun = some w ∧
    answer (w.restart isoRuntime) w.now "retry-1" = .replay "task-1" true ∧
    answer (w.restart isoRuntime) w.now "retry-2" = .own := by
  have hrun : exec (step isoRuntime) (boot isoRuntime none 86400000 10 epoch) twoKeysRun = some _ := rfl
  have hagrees := restart_agrees_iff isoRuntime hrun ⟨no_reservations (by decide), rfl, rfl, by decide⟩
  have hanswers := hagrees.2 (.inr (storable_of_finalized (by decide)))
  exact ⟨_, hrun, (hanswers "retry-1").trans rfl, (hanswers "retry-2").trans rfl⟩

/-- The key that is no property. -/
def protoRun : List Event :=
  [.reserve "__proto__", .finalize "__proto__" "task-1" false, .snapshot, .rename, .written true]

theorem proto_key_lost : ∃ w, exec (step isoRuntime) (boot isoRuntime none 86400000 10 epoch) protoRun = some w ∧
    w.Settled ∧ answer w.ledger w.now "__proto__" = .replay "task-1" false ∧
    answer (w.restart isoRuntime) w.now "__proto__" = .own := by
  refine ⟨_, rfl, ⟨no_reservations (by decide), rfl, rfl, by decide⟩, rfl, ?_⟩
  decide +kernel

end Kookr.Core.LedgerWorld
