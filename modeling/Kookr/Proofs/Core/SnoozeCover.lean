import Mathlib.Data.List.Induction
import Kookr.Lib.Exec
import Kookr.Lib.History
import Kookr.Sanity.Core.QueueMaps

/-! A snoozed task stays hidden. Snoozes are kept by task and active entries by session; an
operation that snoozes a task takes one session of it off the active entries, and one that
restores a session looks at one snooze. A finding that comes while the snooze stands is compared
with the last one that was hidden. -/

namespace Kookr.Core

open Kookr.Lib List

variable {opts : QueueOpts} {q q' : AttentionQueue} {clock clock' : ℤ}

namespace AttentionQueue

/-- No active agent is covered by a snooze that has not expired. -/
def Apart (opts : QueueOpts) (q : AttentionQueue) (clock : ℤ) : Prop :=
  ∀ a e s, q.entries.get a = some e → q.snoozed.get (opts.snoozeKey a) = some s → s.expiresAt ≤ clock

/-- An expired snooze whose agent would be restored belongs to the key that covers the
agent, or that key's snooze has expired too. -/
def RestoresUncovered (opts : QueueOpts) (q : AttentionQueue) (now clock : ℤ) : Prop :=
  ∀ p ∈ q.snoozed.entries, p.2.expiresAt ≤ now → p.2.anomaly.isSome → p.2.key = p.2.agentId →
    opts.snoozeKey p.2.agentId = p.1 ∨
      ∀ s ∈ q.snoozed.get (opts.snoozeKey p.2.agentId), s.expiresAt ≤ clock

end AttentionQueue

open AttentionQueue

/-- The step does not leave an active session covered by a snooze. -/
def TimedQueue.Covers (opts : QueueOpts) (s : TimedQueue) : QueueEvent → Prop
  | .snooze a durationMs _ fallback _ =>
    (a ∈ s.queue.entries.keys ∨ fallback.isSome ∨ opts.snoozeKey a ≠ a) → 0 < durationMs →
      ∀ b ∈ s.queue.entries.keys, b ≠ a → opts.snoozeKey b ≠ opts.snoozeKey a
  | .cancelSnooze a restored =>
    ∀ hidden ∈ s.queue.snoozed.get (opts.snoozeKey a), hidden.anomaly.isSome →
      opts.snoozeKey restored = opts.snoozeKey a ∨
        ∀ other ∈ s.queue.snoozed.get (opts.snoozeKey restored), other.expiresAt ≤ s.clock
  | .importSnoozed entries =>
    ∀ clock' ∈ advance s.clock (entries.map Prod.snd), ∀ b ∈ s.queue.entries.keys,
      b ∉ entries.map (fun p => p.1.agentId) →
      ∀ expiresAt ∈ lastOf (fun p : ImportedSnooze × ℤ =>
        if p.1.key = opts.snoozeKey b then some p.1.expiresAt else none) entries, expiresAt ≤ clock'
  | .next now | .getAll now | .respondAndAdvance _ now => RestoresUncovered opts s.queue now now
  | .getDepth asked now => RestoresUncovered opts s.queue (asked.getD now) now
  | _ => True

instance TimedQueue.Covers.decidable (opts : QueueOpts) (s : TimedQueue) : (e : QueueEvent) → Decidable (s.Covers opts e)
  | .snooze .. => inferInstanceAs (Decidable (_ → _))
  | .cancelSnooze .. => inferInstanceAs (Decidable (∀ hidden ∈ _, _))
  | .importSnoozed .. => inferInstanceAs (Decidable (∀ clock' ∈ _, _))
  | .next .. | .getAll .. | .respondAndAdvance .. | .getDepth .. =>
    inferInstanceAs (Decidable (∀ p ∈ s.queue.snoozed.entries, _))
  | .enqueue .. | .skip .. | .remove .. | .purge .. | .purgeTask .. | .peek .. | .expireDue .. | .clear =>
    isTrue trivial

namespace AttentionQueue

theorem Apart.mono (h : q.Apart opts clock) (hle : clock ≤ clock') : q.Apart opts clock' :=
  fun a e s hentry hsnooze => le_trans (h a e s hentry hsnooze) hle

theorem Apart.shrink (h : q.Apart opts clock) (hentries : ∀ a e, q'.entries.get a = some e → ∃ e', q.entries.get a = some e')
    (hsnoozed : ∀ k s, q'.snoozed.get k = some s → ∃ s', q.snoozed.get k = some s' ∧ s.expiresAt = s'.expiresAt) :
    q'.Apart opts clock := by
  intro a e s hentry hsnooze
  obtain ⟨e', he'⟩ := hentries a e hentry
  obtain ⟨s', hs', heq⟩ := hsnoozed _ s hsnooze
  rw [heq]
  exact h a e' s' he' hs'

theorem Apart.set_entry (h : q.Apart opts clock) {a : String} {e : QueueEntry} (hentries : q'.entries = q.entries.set a e)
    (hsnoozed : ∀ k s, q'.snoozed.get k = some s → q.snoozed.get k = some s)
    (hfree : ∀ s, q'.snoozed.get (opts.snoozeKey a) = some s → s.expiresAt ≤ clock) : q'.Apart opts clock := by
  intro b e' s hentry hsnooze
  rw [hentries] at hentry
  rcases OrderedMap.get_set_some hentry with ⟨rfl, -⟩ | ⟨-, hold⟩
  · exact hfree s hsnooze
  · exact h b e' s hold (hsnoozed _ s hsnooze)

theorem enqueue_apart (hkeyed : q.Keyed) (h : q.Apart opts clock) (a : String) (z : Anomaly) {now now' : ℤ}
    (hle : clock ≤ now') : (q.enqueue opts a z now now').Apart opts now' := by
  rcases enqueue_cases hkeyed opts a z now now' with
    ⟨e, -, -, hentries, hsnoozed⟩ | ⟨s, z', hget, -, -, -, hentries, hsnoozed⟩
  · refine (h.mono hle).set_entry hentries ?_ ?_
    · intro k s hs
      rcases hsnoozed with heq | ⟨heq, -⟩
      · rw [heq] at hs
        exact (OrderedMap.get_delete_some hs).2
      · rwa [heq] at hs
    · intro s hs
      rcases hsnoozed with heq | ⟨heq, hdue⟩
      · rw [heq] at hs
        exact absurd rfl (OrderedMap.get_delete_some hs).1
      · rw [heq] at hs
        exact (hdue s hs).2
  · refine (h.mono hle).shrink (fun b e he => ⟨e, hentries ▸ he⟩) fun k s' hs' => ?_
    rw [hsnoozed] at hs'
    rcases OrderedMap.get_set_some hs' with ⟨rfl, rfl⟩ | ⟨-, hold⟩
    · exact ⟨s, hget, rfl⟩
    · exact ⟨s', hold, rfl⟩

variable {now : ℤ}

theorem RestoresUncovered.get (h : q.RestoresUncovered opts now clock) {k : String} {s : SnoozeEntry}
    (hget : q.snoozed.get k = some s) (hdue : s.expiresAt ≤ now) (hanomaly : s.anomaly.isSome)
    (hkey : s.key = s.agentId) : opts.snoozeKey s.agentId = k ∨
      ∀ s', q.snoozed.get (opts.snoozeKey s.agentId) = some s' → s'.expiresAt ≤ clock :=
  h (k, s) ((q.snoozed.get_eq_some_iff k s).1 hget) hdue hanomaly hkey

theorem RestoresUncovered.shrink (h : q.RestoresUncovered opts now clock)
    (hsnoozed : ∀ k s, q'.snoozed.get k = some s → q.snoozed.get k = some s) : q'.RestoresUncovered opts now clock := by
  intro p hp hdue hanomaly hkey
  have hget := hsnoozed p.1 p.2 ((q'.snoozed.get_eq_some_iff p.1 p.2).2 hp)
  rcases h.get hget hdue hanomaly hkey with heq | hother
  · exact .inl heq
  · exact .inr fun s hs => hother s (hsnoozed _ s hs)

theorem restore_apart (h : q.Apart opts clock) (hrestores : q.RestoresUncovered opts now clock) :
    (q.restoreExpiredSnoozes now).Apart opts clock := by
  have hboth : (q.restoreExpiredSnoozes now).Apart opts clock ∧
      (q.restoreExpiredSnoozes now).RestoresUncovered opts now clock := by
    refine restore_induct (P := fun q => q.Apart opts clock ∧ q.RestoresUncovered opts now clock)
      (fun q k s hinv hget hdue => ?_) ⟨h, hrestores⟩
    obtain ⟨hapart, huncovered⟩ := hinv
    have hdelete : ∀ k' s', (q.snoozed.delete k).get k' = some s' → q.snoozed.get k' = some s' :=
      fun k' s' hs' => (OrderedMap.get_delete_some hs').2
    rcases restoreOne_cases q k hdue with ⟨-, heq⟩ | ⟨anomaly, hanomaly, hkey, heq⟩ | ⟨-, -, heq⟩
    · rw [heq]
      exact ⟨hapart.shrink (fun a e he => ⟨e, he⟩) fun k' s' hs' => ⟨s', hdelete k' s' hs', rfl⟩,
        huncovered.shrink hdelete⟩
    · rw [heq]
      refine ⟨hapart.set_entry rfl hdelete fun s' hs' => ?_, huncovered.shrink hdelete⟩
      have hne := (OrderedMap.get_delete_some hs').1
      rcases huncovered.get hget hdue (by rw [hanomaly]; rfl) hkey with hown | hother
      · exact absurd hown.symm hne
      · exact hother s' (hdelete _ s' hs')
    · rw [heq]
      exact ⟨hapart, huncovered⟩
  exact hboth.1

theorem importSnoozed_entries {entries : List (ImportedSnooze × ℤ)} {b : String} {e : QueueEntry}
    (h : (q.importSnoozed entries).entries.get b = some e) : q.entries.get b = some e ∧ b ∉ entries.map fun p => p.1.agentId := by
  induction entries generalizing q with
  | nil => exact ⟨h, not_mem_nil⟩
  | cons p entries ih =>
    obtain ⟨hget, hmem⟩ := ih h
    obtain ⟨hne, hget⟩ := OrderedMap.get_delete_some hget
    refine ⟨hget, fun hmem' => ?_⟩
    rcases mem_cons.1 hmem' with heq | hmem'
    · exact hne heq.symm
    · exact hmem hmem'

/-- A snooze after an import is the last one imported under its key, or was there before. -/
theorem importSnoozed_snoozed {entries : List (ImportedSnooze × ℤ)} {k : String} {s : SnoozeEntry}
    (h : (q.importSnoozed entries).snoozed.get k = some s) :
    lastOf (fun p : ImportedSnooze × ℤ => if p.1.key = k then some p.1.expiresAt else none) entries =
        some s.expiresAt ∨ q.snoozed.get k = some s := by
  induction entries using reverseRecOn with
  | nil => exact .inr h
  | append_singleton entries p ih =>
    rw [lastOf_concat]
    rw [importSnoozed, foldl_append] at h
    rcases OrderedMap.get_set_some h with ⟨hkey, rfl⟩ | ⟨hkey, hold⟩
    · rw [if_pos hkey]
      exact .inl rfl
    · rw [if_neg hkey]
      exact ih hold

theorem mem_keys_of_get {ν : Type} {m : OrderedMap String ν} {k : String} {v : ν} (h : m.get k = some v) : k ∈ m.keys := by
  rw [← OrderedMap.get_isSome_iff, h]
  rfl

theorem snooze_apart (h : q.Apart opts clock) {a : String} {d : ℤ} {reason : Option String}
    {fallback : Option Anomaly} (hle : clock ≤ now)
    (hcovers : TimedQueue.Covers opts ⟨q, clock⟩ (.snooze a d reason fallback now)) :
    (q.snooze opts a d reason fallback now).2.Apart opts now := by
  unfold snooze
  dsimp only
  split
  · exact h.mono hle
  · rename_i hsome
    intro b e s hentry hsnooze
    obtain ⟨hne, hentry⟩ := OrderedMap.get_delete_some hentry
    rcases OrderedMap.get_set_some hsnooze with ⟨hkey, rfl⟩ | ⟨-, hold⟩
    · by_contra hlate
      have hd : 0 < d := by
        dsimp only at hlate
        omega
      refine hcovers ?_ hd b (mem_keys_of_get hentry) (Ne.symm hne) hkey.symm
      by_contra hnone
      simp only [not_or, not_not, Bool.not_eq_true, Option.isSome_eq_false_iff, Option.isNone_iff_eq_none] at hnone
      obtain ⟨hmem, hfallback, hown⟩ := hnone
      rw [← OrderedMap.get_eq_none_iff] at hmem
      exact hsome (by simp [hmem, hfallback, hown])
    · exact le_trans (h b e s hentry hold) hle

theorem cancelSnooze_apart (hkeyed : q.Keyed) (h : q.Apart opts clock) {a restored : String}
    (hcovers : TimedQueue.Covers opts ⟨q, clock⟩ (.cancelSnooze a restored)) :
    (q.cancelSnooze opts a restored).2.Apart opts clock := by
  unfold cancelSnooze
  cases hget : q.snoozed.get (opts.snoozeKey a) with
  | none => exact h
  | some hidden =>
    have hkey := hkeyed.snoozed _ hidden hget
    have hdelete : ∀ k s, (q.snoozed.delete hidden.key).get k = some s → q.snoozed.get k = some s :=
      fun k s hs => (OrderedMap.get_delete_some hs).2
    dsimp only
    cases hanomaly : hidden.anomaly with
    | none => exact h.shrink (fun a e he => ⟨e, he⟩) fun k s hs => ⟨s, hdelete k s hs, rfl⟩
    | some anomaly =>
      refine h.set_entry rfl hdelete fun s hs => ?_
      obtain ⟨hne, hs⟩ := OrderedMap.get_delete_some hs
      rcases hcovers hidden hget (by rw [hanomaly]; rfl) with hsame | hother
      · rw [hkey] at hne
        exact absurd hsame.symm hne
      · exact hother s hs

theorem advance_one (h : advance clock [now] = some clock') : clock ≤ now ∧ now = clock' := by
  simp only [advance] at h
  split_ifs at h with hle
  exact ⟨hle, Option.some.inj h⟩

theorem apply_apart (hkeyed : q.Keyed) (h : q.Apart opts clock) {e : QueueEvent}
    (hclock : advance clock e.readings = some clock') (hcovers : TimedQueue.Covers opts ⟨q, clock⟩ e) :
    (q.apply opts e).Apart opts clock' := by
  have hle := (le_of_advance hclock).1
  cases e with
  | enqueue a z now now' =>
    obtain rfl : now' = clock' := by
      simp only [QueueEvent.readings, advance] at hclock
      split_ifs at hclock
      exact Option.some.inj hclock
    exact enqueue_apart hkeyed h a z hle
  | next now | getAll now | getDepth asked now =>
    obtain ⟨-, rfl⟩ := advance_one hclock
    exact restore_apart (h.mono hle) hcovers
  | respondAndAdvance a now =>
    obtain ⟨-, rfl⟩ := advance_one hclock
    refine restore_apart ((h.mono hle).shrink (fun b e he => ?_) fun k s hs => ⟨s, hs, rfl⟩) hcovers
    exact ⟨e, (OrderedMap.get_delete_some he).2⟩
  | skip a =>
    apply (h.mono hle).shrink _ fun k s hs => ?_
    · intro b e he
      simp only [AttentionQueue.apply, skip] at he
      split at he
      · rename_i entry hentry
        rcases OrderedMap.get_set_some he with ⟨rfl, -⟩ | ⟨-, hold⟩
        · exact ⟨entry, hentry⟩
        · exact ⟨e, hold⟩
      · exact ⟨e, he⟩
    · simp only [AttentionQueue.apply, skip] at hs
      split at hs <;> exact ⟨s, hs, rfl⟩
  | snooze a d reason fallback now =>
    obtain ⟨-, rfl⟩ := advance_one hclock
    exact snooze_apart h hle hcovers
  | cancelSnooze a restored => exact (cancelSnooze_apart hkeyed h hcovers).mono hle
  | remove a =>
    obtain ⟨hentries, hsnoozed⟩ := remove_entries q opts a
    refine (h.mono hle).shrink (fun b e he => ?_) fun k s hs => ?_
    · rw [AttentionQueue.apply, hentries] at he
      exact ⟨e, (OrderedMap.get_delete_some he).2⟩
    · rw [AttentionQueue.apply, hsnoozed] at hs
      exact ⟨s, hs, rfl⟩
  | purge a => exact (h.mono hle).shrink (fun b e he => ⟨e, (OrderedMap.get_delete_some he).2⟩) fun k s hs => ⟨s, hs, rfl⟩
  | purgeTask key => exact (h.mono hle).shrink (fun b e he => ⟨e, he⟩) fun k s hs => ⟨s, (OrderedMap.get_delete_some hs).2, rfl⟩
  | importSnoozed entries =>
    intro b e s hentry hsnooze
    obtain ⟨hentry, hmem⟩ := importSnoozed_entries hentry
    rcases importSnoozed_snoozed hsnooze with hlast | hold
    · exact hcovers clock' hclock b (mem_keys_of_get hentry) hmem s.expiresAt hlast
    · exact le_trans (h b e s hentry hold) hle
  | peek a now => exact h.mono hle
  | expireDue asked now =>
    exact (h.mono hle).shrink (fun b e he => ⟨e, he⟩) fun k s hs => ⟨s, expireDue_snoozed hs, rfl⟩
  | clear => exact (h.mono hle).shrink (fun b e he => by cases he) fun k s hs => by cases hs

theorem getSnoozedUntil_of_apart (hkeyed : q.Keyed) (h : q.Apart opts clock) {x : String × Anomaly}
    (hx : x ∈ q.inspectActive) (hle : clock ≤ now) : q.getSnoozedUntil opts x.1 now = none := by
  obtain ⟨e, hentry, -⟩ := (mem_inspectActive hkeyed).1 hx
  unfold getSnoozedUntil
  cases hget : q.snoozed.get (opts.snoozeKey x.1) with
  | none => rfl
  | some s => exact if_pos (le_trans (h x.1 e s hentry hget) hle)

theorem mem_inspectActive_of_next {x : String × Anomaly} (h : (q.next now).1 = some x) :
    x ∈ (q.restoreExpiredSnoozes now).inspectActive := by
  obtain ⟨e, hhead, hx⟩ := Option.map_eq_some_iff.1 h
  exact mem_map.2 ⟨e, mem_of_mem_head? hhead, hx⟩

/-- As long as no step leaves an active session covered, no agent that is shown is snoozed. -/
theorem snoozed_stays_hidden (opts : QueueOpts) (clock : ℤ) (es : List QueueEvent) (s : TimedQueue)
    (hcovers : StepsMeet (TimedQueue.step opts) (TimedQueue.Covers opts) (.initial clock) es)
    (hrun : exec (TimedQueue.step opts) (.initial clock) es = some s) (now : ℤ) (hnow : s.clock ≤ now) :
    (∀ x ∈ s.queue.inspectActive, s.queue.getSnoozedUntil opts x.1 now = none) ∧
    (s.Covers opts (.getAll now) → ∀ now', now ≤ now' →
      (∀ x ∈ (s.queue.getAll now).1, (s.queue.getAll now).2.getSnoozedUntil opts x.1 now' = none) ∧
      ∀ x ∈ (s.queue.next now).1, (s.queue.next now).2.getSnoozedUntil opts x.1 now' = none) := by
  have hpreserved : ∀ s e s', (s.queue.Keyed ∧ s.queue.Apart opts s.clock) → TimedQueue.Covers opts s e →
      TimedQueue.step opts s e = some s' → s'.queue.Keyed ∧ s'.queue.Apart opts s'.clock := by
    intro s e s' hinv hok hstep
    obtain ⟨hclock, hqueue⟩ := TimedQueue.step_eq_some hstep
    rw [hqueue]
    exact ⟨apply_keyed hinv.1 opts e, apply_apart hinv.1 hinv.2 hclock hok⟩
  have hinitial : (TimedQueue.initial clock).queue.Apart opts clock := by
    intro a e s hentry
    cases hentry
  obtain ⟨hkeyed, hapart⟩ := exec_invariant hpreserved ⟨initial_keyed, hinitial⟩ hcovers hrun
  refine ⟨fun x hx => getSnoozedUntil_of_apart hkeyed hapart hx hnow, fun hcovers now' hnow' => ?_⟩
  have hkeyed' := restore_keyed hkeyed now
  have hapart' : (s.queue.restoreExpiredSnoozes now).Apart opts now := restore_apart (hapart.mono hnow) hcovers
  refine ⟨fun x hx => getSnoozedUntil_of_apart hkeyed' hapart' hx hnow', fun x hx => ?_⟩
  exact getSnoozedUntil_of_apart hkeyed' hapart' (mem_inspectActive_of_next hx) hnow'

/-- A session that starts while its task is snoozed stays hidden with it. -/
theorem later_session_stays_hidden : ∃ s, exec (TimedQueue.step oneTask) (.initial 0)
      [.enqueue "first" (waiting "first") 1 1, .snooze "first" 60000 none none 2,
        .enqueue "second" (waiting "second") 3 3, .getAll 4] = some s ∧ s.queue.getSnoozedUntil oneTask "second" 5 = some 60002 ∧
      ∀ x ∈ s.queue.inspectActive, s.queue.getSnoozedUntil oneTask x.1 5 = none := by
  refine ⟨_, rfl, by decide +kernel, ?_⟩
  exact (snoozed_stays_hidden oneTask 0
    [.enqueue "first" (waiting "first") 1 1, .snooze "first" 60000 none none 2,
      .enqueue "second" (waiting "second") 3 3, .getAll 4] _ (by decide +kernel) rfl 5 (by decide +kernel)).1

/-- Of two active sessions of a task one is snoozed: the other is still shown, and is snoozed
as well. -/
theorem sibling_stays_active : ∃ s, exec (TimedQueue.step oneTask) (.initial 0)
      [.enqueue "first" (waiting "first") 1 1, .enqueue "second" (waiting "second") 2 2,
        .snooze "first" 60000 none none 3] = some s ∧ s.queue.inspectActive = [("second", waiting "second")] ∧
      s.queue.getSnoozedUntil oneTask "second" 4 = some 60003 :=
  ⟨_, rfl, by decide +kernel, by decide +kernel⟩

structure EnqueueCall where
  agentId : String
  anomaly : Anomaly
  now : ℤ
  now' : ℤ

def enqueueAll (opts : QueueOpts) (q : AttentionQueue) (calls : List EnqueueCall) : AttentionQueue :=
  calls.foldl (fun q c => q.enqueue opts c.agentId c.anomaly c.now c.now') q

/-- A critical finding under another fingerprint than the hidden one. -/
def FreshCritical (hidden anomaly : Anomaly) : Prop :=
  anomaly.severity = .critical ∧ anomalyFingerprint anomaly ≠ anomalyFingerprint hidden

/-- Worse than the finding that was snoozed. -/
def WorseThan (finding hidden anomaly : Anomaly) : Prop :=
  anomaly.severity.order < finding.severity.order ∨ FreshCritical hidden anomaly

instance (hidden anomaly : Anomaly) : Decidable (FreshCritical hidden anomaly) := inferInstanceAs (Decidable (_ ∧ _))

instance (finding hidden anomaly : Anomaly) : Decidable (WorseThan finding hidden anomaly) := inferInstanceAs (Decidable (_ ∨ _))

/-- Of the calls, those that are not worse than the finding leave its snooze and the active entries as they are. -/
def OnlyWorseBreaks (opts : QueueOpts) (q : AttentionQueue) (key : String) (finding : Anomaly) (calls : List EnqueueCall) : Prop :=
  ∀ before c after, calls = before ++ c :: after → ∀ standing hidden, (q.enqueueAll opts before).snoozed.get key = some standing →
    standing.anomaly = some hidden → ¬ WorseThan finding hidden c.anomaly →
      ((q.enqueueAll opts before).enqueue opts c.agentId c.anomaly c.now c.now').snoozed.get key ≠ none ∧
        ((q.enqueueAll opts before).enqueue opts c.agentId c.anomaly c.now c.now').entries = (q.enqueueAll opts before).entries

/-- The first anomaly that is worse than the one before it is worse than the finding. -/
def FirstRiseWorse (finding : Anomaly) : Anomaly → List Anomaly → Prop
  | _, [] => True
  | last, anomaly :: rest =>
    if WorseThan last last anomaly then WorseThan finding last anomaly else FirstRiseWorse finding anomaly rest

variable {snooze : SnoozeEntry} {hidden : Anomaly}

theorem shouldWake_iff (hhidden : snooze.anomaly = some hidden) (hwake : snooze.wakeOnChange = false) (anomaly : Anomaly) :
    shouldWakeSnooze snooze anomaly = true ↔ WorseThan hidden hidden anomaly := by
  unfold shouldWakeSnooze hasSameFingerprint
  rw [hhidden, hwake]
  simp only [Bool.false_eq_true, if_false, Bool.or_eq_true, decide_eq_true_eq, Bool.and_eq_true, Bool.not_eq_true', decide_eq_false_iff_not]
  exact or_congr_right (and_congr_right fun _ => not_congr eq_comm)

variable {key : String}

theorem dropExpired_eq (h : ∀ snooze ∈ q.snoozed.get key, now < snooze.expiresAt) : q.dropExpiredForKey key now = q := by
  unfold dropExpiredForKey
  split
  · rename_i snooze hget
    exact if_pos (h snooze hget)
  · rfl

variable {c : EnqueueCall}

theorem enqueue_standing (hget : q.snoozed.get key = some snooze)
    (hhidden : snooze.anomaly = some hidden) (hwake : snooze.wakeOnChange = false)
    (hkey : opts.snoozeKey c.agentId = key) (hnow : c.now < snooze.expiresAt) (hnow' : c.now' < snooze.expiresAt) :
    (WorseThan hidden hidden c.anomaly ∧ (q.enqueue opts c.agentId c.anomaly c.now c.now').snoozed.get key = none) ∨
      ¬ WorseThan hidden hidden c.anomaly ∧ (q.enqueue opts c.agentId c.anomaly c.now c.now').entries = q.entries ∧
        ∃ hidden', hidden'.SameFinding c.anomaly ∧
          (q.enqueue opts c.agentId c.anomaly c.now c.now').snoozed.get key = some { snooze with anomaly := some hidden' } := by
  have hdrop : ({ q with lastRemoved := q.lastRemoved.delete c.agentId }).dropExpiredForKey key c.now =
      { q with lastRemoved := q.lastRemoved.delete c.agentId } := by
    refine dropExpired_eq fun snooze' hsnooze' => ?_
    obtain rfl : snooze = snooze' := Option.some.inj (hget.symm.trans hsnooze')
    exact hnow
  have henqueue : q.enqueue opts c.agentId c.anomaly c.now c.now' =
      enqueueSnoozed { q with lastRemoved := q.lastRemoved.delete c.agentId } key c.agentId c.anomaly snooze := by
    unfold enqueue
    simp only
    rw [hkey, hdrop]
    rw [hget]
    simp only
    rw [if_pos hnow']
  rw [henqueue]
  unfold enqueueSnoozed
  by_cases hworse : WorseThan hidden hidden c.anomaly
  · rw [if_pos ((shouldWake_iff hhidden hwake c.anomaly).2 hworse)]
    refine .inl ⟨hworse, ?_⟩
    rw [OrderedMap.get_delete, if_pos rfl]
  · rw [if_neg fun h => hworse ((shouldWake_iff hhidden hwake c.anomaly).1 h)]
    refine .inr ⟨hworse, rfl, _, ?_, OrderedMap.get_set_self _ _ _⟩
    rw [hhidden]
    simp only
    split
    · rfl
    · rfl

theorem enqueue_awake (hget : q.snoozed.get key = none) (hkey : opts.snoozeKey c.agentId = key) :
    (q.enqueue opts c.agentId c.anomaly c.now c.now').snoozed.get key = none := by
  have hdrop : ({ q with lastRemoved := q.lastRemoved.delete c.agentId }).dropExpiredForKey key c.now =
      { q with lastRemoved := q.lastRemoved.delete c.agentId } := by
    refine dropExpired_eq fun snooze hsnooze => ?_
    have hsome : q.snoozed.get key = some snooze := hsnooze
    rw [hget] at hsome
    cases hsome
  unfold enqueue
  simp only
  rw [hkey, hdrop]
  rw [hget]
  simp only
  unfold enqueueActive
  split
  · split
    · exact hget
    · exact hget
  · exact hget

variable {calls : List EnqueueCall}

theorem enqueueAll_awake (hget : q.snoozed.get key = none)
    (hkeys : ∀ c ∈ calls, opts.snoozeKey c.agentId = key) : (q.enqueueAll opts calls).snoozed.get key = none := by
  induction calls generalizing q with
  | nil => exact hget
  | cons c calls ih => exact ih (enqueue_awake hget (hkeys c mem_cons_self)) fun c' hc' => hkeys c' (mem_cons_of_mem _ hc')

theorem onlyWorseBreaks_cons {finding : Anomaly} : OnlyWorseBreaks opts q key finding (c :: calls) ↔
      (∀ standing hidden, q.snoozed.get key = some standing → standing.anomaly = some hidden → ¬ WorseThan finding hidden c.anomaly →
        (q.enqueue opts c.agentId c.anomaly c.now c.now').snoozed.get key ≠ none ∧
          (q.enqueue opts c.agentId c.anomaly c.now c.now').entries = q.entries) ∧
      OnlyWorseBreaks opts (q.enqueue opts c.agentId c.anomaly c.now c.now') key finding calls := by
  constructor
  · exact fun h => ⟨h [] c calls rfl, fun before c' after heq => h (c :: before) c' after (by rw [heq]; rfl)⟩
  · rintro ⟨hfirst, hrest⟩ before c' after heq
    cases before with
    | nil =>
      cases heq
      exact hfirst
    | cons c'' before =>
      cases heq
      exact hrest before c' after rfl

/-- What is compared is the last finding, whenever it was first seen. -/
theorem firstRise_iff {finding last : Anomaly}
    (hget : q.snoozed.get key = some snooze) (hhidden : snooze.anomaly = some hidden) (hlast : hidden.SameFinding last)
    (hwake : snooze.wakeOnChange = false) (hkeys : ∀ c ∈ calls, opts.snoozeKey c.agentId = key)
    (hbefore : ∀ c ∈ calls, c.now < snooze.expiresAt ∧ c.now' < snooze.expiresAt) :
    OnlyWorseBreaks opts q key finding calls ↔ FirstRiseWorse finding last (calls.map EnqueueCall.anomaly) := by
  induction calls generalizing q snooze hidden last with
  | nil => exact ⟨fun _ => trivial, fun _ before c after heq => by cases before <;> cases heq⟩
  | cons c calls ih =>
    have hkeys' : ∀ c' ∈ calls, opts.snoozeKey c'.agentId = key := fun c' hc' => hkeys c' (mem_cons_of_mem _ hc')
    have hbefore' := fun c' hc' => hbefore c' (mem_cons_of_mem c hc')
    have hworse : ∀ above, WorseThan above last c.anomaly ↔ WorseThan above hidden c.anomaly := by
      intro above
      rw [← hlast]
      exact Iff.rfl
    have hrise : WorseThan last last c.anomaly ↔ WorseThan hidden hidden c.anomaly := by
      rw [← hlast]
      exact Iff.rfl
    obtain ⟨hnow, hnow'⟩ := hbefore c mem_cons_self
    rw [onlyWorseBreaks_cons, map_cons]
    unfold FirstRiseWorse
    rcases enqueue_standing hget hhidden hwake (hkeys c mem_cons_self) hnow hnow' with
      ⟨hwakes, hgone⟩ | ⟨hhides, hentries, hidden', hsame, hget'⟩
    · rw [if_pos (hrise.2 hwakes), hworse]
      constructor
      · intro h
        by_contra hnot
        exact (h.1 snooze hidden hget hhidden hnot).1 hgone
      · refine fun h => ⟨fun standing hidden' hstanding hhidden' hnot => ?_, ?_⟩
        · rw [hget] at hstanding
          cases hstanding
          rw [hhidden] at hhidden'
          cases hhidden'
          exact absurd h hnot
        · -- the snooze is gone for the rest
          intro before c' after heq standing hidden' hstanding
          have hkeyed : ∀ c'' ∈ before, opts.snoozeKey c''.agentId = key :=
            fun c'' hc'' => hkeys' c'' (by rw [heq]; exact mem_append_left _ hc'')
          rw [enqueueAll_awake hgone hkeyed] at hstanding
          cases hstanding
    · rw [if_neg fun h => hhides (hrise.1 h), ← ih hget' rfl hsame hwake hkeys' hbefore']
      refine ⟨And.right, fun h => ⟨fun standing hidden'' _ _ _ => ⟨?_, hentries⟩, h⟩⟩
      rw [hget']
      exact Option.some_ne_none _

/-- A snooze of a finding is broken by nothing but what is worse, exactly where the first finding that is worse than the one
before it is worse than the one that was snoozed. -/
theorem only_worse_breaks_iff (opts : QueueOpts) (q : AttentionQueue) (key : String) (snooze : SnoozeEntry) (finding : Anomaly)
    (calls : List EnqueueCall) (hget : q.snoozed.get key = some snooze) (hfinding : snooze.anomaly = some finding)
    (hwake : snooze.wakeOnChange = false) (hkeys : ∀ c ∈ calls, opts.snoozeKey c.agentId = key)
    (hbefore : ∀ c ∈ calls, c.now < snooze.expiresAt ∧ c.now' < snooze.expiresAt) :
    OnlyWorseBreaks opts q key finding calls ↔ FirstRiseWorse finding finding (calls.map EnqueueCall.anomaly) :=
  firstRise_iff hget hfinding rfl hwake hkeys hbefore

def oneSnoozed : AttentionQueue :=
  ((AttentionQueue.initial.enqueue oneTask "first" (waiting "first") 1 1).snooze oneTask "first" 60000 none none 2).2

def idle : Anomaly := { waiting "first" with type := .staleAgent, severity := .info, explanation := "no output" }

def overloaded : Anomaly := { waiting "first" with type := .apiError, severity := .critical, explanation := "overloaded" }

theorem only_worse_breaks_overloaded : OnlyWorseBreaks oneTask oneSnoozed "task" (waiting "first")
    [⟨"first", idle, 3, 3⟩, ⟨"first", overloaded, 4, 4⟩] :=
  (only_worse_breaks_iff oneTask oneSnoozed "task" _ (waiting "first") _ rfl rfl rfl (by decide +kernel) (by decide +kernel)).2
    (by simp only [map_cons, map_nil, FirstRiseWorse]; decide +kernel)

/-- Behind a weaker finding, the finding that was snoozed wakes its own snooze. -/
theorem snoozed_finding_surfaces : ¬ OnlyWorseBreaks oneTask oneSnoozed "task" (waiting "first")
    [⟨"first", idle, 3, 3⟩, ⟨"first", waiting "first", 4, 4⟩] := by
  intro h
  have hget : (oneSnoozed.enqueueAll oneTask [⟨"first", idle, 3, 3⟩]).snoozed.get "task" =
      some ⟨"first", "task", .finding, some idle, 60002, 2, none, none, false⟩ := by decide +kernel
  have hstays := (h [⟨"first", idle, 3, 3⟩] ⟨"first", waiting "first", 4, 4⟩ [] rfl _ idle hget rfl (by decide +kernel)).1
  exact hstays (by decide +kernel)

end AttentionQueue

end Kookr.Core
