import Kookr.Lib.Exec
import Kookr.Lib.History
import Kookr.Sanity.Server.DeliverySteps
import Mathlib.Order.Bounds.Defs

/-! A hook line confirms one delivery and a delivery is confirmed once, what is settled stays settled, and as many
deliveries of a text are confirmed as can be given a prompt of their own. -/

namespace Kookr.Server

open Kookr.Lib DeliveryLog UserInputDeliverySnapshot List

namespace DeliveryLog

/-- The delivery and the hook line that confirms it. -/
def confirmation : DeliveryLog → Option (String × String)
  | .prompted hookLineId _ (some deliveryId) => some (deliveryId, hookLineId)
  | _ => none

def hookLine : DeliveryLog → Option String
  | .prompted hookLineId _ _ => some hookLineId
  | _ => none

end DeliveryLog

def confirmations (log : List DeliveryLog) : List (String × String) := log.filterMap confirmation

/-- A prompt confirms a delivery of its text that was created before. -/
def AnswersDelivery (before : List DeliveryLog) : DeliveryLog → Prop
  | .prompted _ prompt (some deliveryId) => ∃ text, .created deliveryId text ∈ before ∧ normalizePrompt text = normalizePrompt prompt
  | _ => True

variable {log : List DeliveryLog} {entry : DeliveryLog}

theorem confirmations_concat (log : List DeliveryLog) (entry : DeliveryLog) :
    confirmations (log ++ [entry]) = confirmations log ++ entry.confirmation.toList := by
  unfold confirmations
  rw [filterMap_append, filterMap_cons]
  cases entry.confirmation <;> rfl

theorem hookLines_concat (log : List DeliveryLog) (entry : DeliveryLog) :
    (log ++ [entry]).filterMap hookLine = log.filterMap hookLine ++ entry.hookLine.toList := by
  rw [filterMap_append, filterMap_cons]
  cases entry.hookLine <;> rfl

theorem confirmations_lines (log : List DeliveryLog) : ((confirmations log).map Prod.snd).Sublist (log.filterMap hookLine) := by
  induction log with
  | nil => exact List.Sublist.refl _
  | cons entry log ih =>
    cases entry with
    | created => exact ih
    | prompted hookLineId prompt confirms =>
      cases confirms with
      | none => exact ih.cons _
      | some deliveryId => exact ih.cons_cons _

namespace UserInputDeliveryService

variable {s s' : UserInputDeliveryService} {delivery : UserInputDeliverySnapshot} {e : DeliveryEvent} {retry : Option UserInputDeliveryRetry}
  {text : String}

/-- What the log says of the deliveries. -/
structure Reported (s : UserInputDeliveryService) : Prop where
  sound : Sound s
  created : ∀ deliveryId text, .created deliveryId text ∈ s.log → ∃ delivery ∈ s.deliveries, delivery.deliveryId = deliveryId ∧ delivery.text = text
  recorded : ∀ delivery ∈ s.deliveries, .created delivery.deliveryId delivery.text ∈ s.log
  lines : s.log.filterMap hookLine = s.observedHookIds
  linesNodup : s.observedHookIds.Nodup
  confirmed : ∀ deliveryId hookLineId, (deliveryId, hookLineId) ∈ confirmations s.log ↔
    ∃ delivery ∈ s.deliveries, delivery.deliveryId = deliveryId ∧ delivery.submittedHookLineId = some hookLineId
  once : ((confirmations s.log).map Prod.fst).Nodup
  answers : Along AnswersDelivery s.log

theorem Sound.step (h : Sound s) (hstep : DeliveryStep s e s') : Sound s' := by
  cases hstep with
  | created delivery hqueued haccepted hhook hnew =>
    have hfree : delivery.deliveryId ∉ s.sending.map deliveryId := by
      intro hmem
      obtain ⟨waiting, hwaiting, heq⟩ := mem_map.1 hmem
      obtain ⟨other, hother, hid, -⟩ := h.sending waiting hwaiting
      exact hnew other hother (hid.trans heq)
    have hmem : ∀ {other : UserInputDeliverySnapshot}, other ∈ s.deliveries ++ [delivery] → other ∈ s.deliveries ∨ other = delivery :=
      fun hother => (mem_append.1 hother).imp_right mem_singleton.1
    constructor
    · rw [map_append, nodup_append]
      refine ⟨h.ids, nodup_singleton _, fun a ha b hb => ?_⟩
      obtain ⟨other, hother, rfl⟩ := mem_map.1 ha
      rw [mem_singleton.1 hb]
      exact hnew other hother
    · rw [map_append]
      exact nodup_concat h.sendingIds hfree
    · intro waiting hwaiting
      rcases mem_append.1 hwaiting with hold | hnew
      · obtain ⟨other, hother, hrest⟩ := h.sending waiting hold
        exact ⟨other, mem_append_left _ hother, hrest⟩
      · obtain rfl := mem_singleton.1 hnew
        exact ⟨waiting, mem_append_right _ hnew, rfl, rfl, rfl, haccepted, hhook, haccepted⟩
    · intro other hother
      rcases hmem hother with hold | rfl
      · exact h.confirmed other hold
      · simp [hqueued, hhook]
    · intro other hother hsubmitted
      rcases hmem hother with hold | rfl
      · exact h.accepted other hold hsubmitted
      · rw [hqueued] at hsubmitted
        cases hsubmitted
  | evolved f sending sweeps swept hf hsending =>
    constructor
    · have hids : (s.deliveries.map f).map deliveryId = s.deliveries.map deliveryId := by
        rw [map_map]
        exact map_congr_left fun delivery hdelivery => (hf delivery hdelivery).deliveryId
      rw [hids]
      exact h.ids
    · exact h.sendingIds.sublist (hsending.map _)
    · intro waiting hwaiting
      obtain ⟨delivery, hdelivery, hid, htext, hcreated, haccepted, hrest⟩ := h.sending waiting (hsending.subset hwaiting)
      have hevolves := hf delivery hdelivery
      refine ⟨f delivery, mem_map_of_mem hdelivery, hevolves.deliveryId.trans hid, hevolves.text.trans htext, hevolves.createdAt.trans hcreated, ?_, hrest⟩
      rcases hevolves.accepted with hsame | hfree
      · exact hsame.trans haccepted
      · exact absurd hid.symm (hfree waiting hwaiting)
    · intro other hother
      obtain ⟨delivery, hdelivery, rfl⟩ := mem_map.1 hother
      have hevolves := hf delivery hdelivery
      have hconfirmed := h.confirmed delivery hdelivery
      by_cases hsubmitted : delivery.status = .submittedByAgent
      · rwa [hevolves.submitted hsubmitted]
      · rw [hevolves.hook, ← hconfirmed]
        exact ⟨fun hs => absurd hs (hevolves.unconfirmed hsubmitted), fun hs => absurd hs hsubmitted⟩
    · intro other hother hsubmitted
      obtain ⟨delivery, hdelivery, rfl⟩ := mem_map.1 hother
      have hevolves := hf delivery hdelivery
      have hbefore : delivery.status = .submittedByAgent := by
        by_contra hnot
        exact hevolves.unconfirmed hnot hsubmitted
      rw [hevolves.submitted hbefore]
      exact h.accepted delivery hdelivery hbefore
  | confirmed delivery prompt hookLineId observedAtMs now hdelivery hconfirms =>
    simp only [confirms, Bool.and_eq_true, decide_eq_true_eq] at hconfirms
    obtain ⟨⟨⟨⟨-, hpty⟩, -⟩, -⟩, -⟩ := hconfirms
    constructor
    · have hids : (s.deliveries.map (exchange delivery.deliveryId { delivery with
          status := .submittedByAgent, submittedHookLineId := some hookLineId, updatedAt := now })).map deliveryId =
          s.deliveries.map deliveryId := by
        rw [map_map]
        refine map_congr_left fun other _ => ?_
        simp only [Function.comp_apply, exchange]
        split_ifs with hid
        · exact hid.symm
        · rfl
      rw [hids]
      exact h.ids
    · exact h.sendingIds
    · intro waiting hwaiting
      obtain ⟨other, hother, hid, htext, hcreated, haccepted, hrest⟩ := h.sending waiting hwaiting
      have hne : other.deliveryId ≠ delivery.deliveryId := by
        intro heq
        obtain rfl := eq_of_deliveryId h.ids hdelivery hother heq
        rw [haccepted] at hpty
        cases hpty
      refine ⟨other, ?_, hid, htext, hcreated, haccepted, hrest⟩
      exact mem_map.2 ⟨other, hother, if_neg hne⟩
    · intro other hother
      obtain ⟨before, hbefore, rfl⟩ := mem_map.1 hother
      simp only [exchange]
      split_ifs
      · simp
      · exact h.confirmed before hbefore
    · intro other hother hsubmitted
      obtain ⟨before, hbefore, rfl⟩ := mem_map.1 hother
      simp only [exchange] at hsubmitted ⊢
      split_ifs at hsubmitted ⊢
      · exact hpty
      · exact h.accepted before hbefore hsubmitted
  | missed => exact ⟨h.ids, h.sendingIds, h.sending, h.confirmed, h.accepted⟩

theorem mem_map_evolves {f : UserInputDeliverySnapshot → UserInputDeliverySnapshot} {sending : List UserInputDeliverySnapshot}
    (hf : ∀ delivery ∈ s.deliveries, Evolves sending delivery (f delivery)) {hookLineId deliveryId : String} :
    (∃ delivery ∈ s.deliveries.map f, delivery.deliveryId = deliveryId ∧ delivery.submittedHookLineId = some hookLineId) ↔
      ∃ delivery ∈ s.deliveries, delivery.deliveryId = deliveryId ∧ delivery.submittedHookLineId = some hookLineId := by
  simp only [mem_map, exists_exists_and_eq_and]
  refine exists_congr fun delivery => and_congr_right fun hdelivery => ?_
  rw [(hf delivery hdelivery).deliveryId, (hf delivery hdelivery).hook]

/-- What the confirmation of a delivery leaves: the delivery with its hook line, and the others. -/
theorem exists_exchange {hookLineId line deliveryId : String} {now : ℕ} (hdelivery : delivery ∈ s.deliveries) (hhook : delivery.submittedHookLineId = none)
    (hids : (s.deliveries.map UserInputDeliverySnapshot.deliveryId).Nodup) :
    (∃ other ∈ s.deliveries.map (exchange delivery.deliveryId
        { delivery with status := .submittedByAgent, submittedHookLineId := some hookLineId, updatedAt := now }),
      other.deliveryId = deliveryId ∧ other.submittedHookLineId = some line) ↔
    (∃ other ∈ s.deliveries, other.deliveryId = deliveryId ∧ other.submittedHookLineId = some line) ∨ deliveryId = delivery.deliveryId ∧ line = hookLineId := by
  simp only [mem_map, exists_exists_and_eq_and]
  constructor
  · rintro ⟨other, hother, hid, hline⟩
    simp only [exchange] at hid hline
    split_ifs at hid hline
    · exact .inr ⟨hid.symm, (Option.some.inj hline).symm⟩
    · exact .inl ⟨other, hother, hid, hline⟩
  · rintro (⟨other, hother, rfl, hline⟩ | ⟨rfl, rfl⟩)
    · have hne : other.deliveryId ≠ delivery.deliveryId := by
        intro heq
        rw [eq_of_deliveryId hids hdelivery hother heq, hhook] at hline
        cases hline
      exact ⟨other, hother, by rw [exchange, if_neg hne], by rw [exchange, if_neg hne, hline]⟩
    · exact ⟨delivery, hdelivery, by rw [exchange, if_pos rfl], by rw [exchange, if_pos rfl]⟩

section

variable (h : Reported s)
include h

theorem Reported.step (hstep : DeliveryStep s e s') : Reported s' := by
  have hsound := h.sound.step hstep
  cases hstep with
  | created delivery hqueued haccepted hhook hnew =>
    have hconfirmations : confirmations (s.log ++ [.created delivery.deliveryId delivery.text]) = confirmations s.log := by
      rw [confirmations_concat]
      exact append_nil _
    refine ⟨hsound, ?_, ?_, ?_, h.linesNodup, ?_, ?_, h.answers.concat trivial⟩
    · intro deliveryId text hcreated
      rcases mem_concat_cases hcreated with hold | hnew
      · obtain ⟨other, hother, hrest⟩ := h.created deliveryId text hold
        exact ⟨other, mem_append_left _ hother, hrest⟩
      · obtain ⟨rfl, rfl⟩ := created.inj hnew
        exact ⟨delivery, mem_append_right _ (mem_singleton_self _), rfl, rfl⟩
    · intro other hother
      rcases mem_concat_cases hother with hold | rfl
      · exact mem_append_left _ (h.recorded other hold)
      · exact mem_append_right _ (mem_singleton_self _)
    · rw [hookLines_concat, h.lines]
      exact append_nil _
    · intro deliveryId hookLineId
      rw [hconfirmations, h.confirmed]
      constructor
      · rintro ⟨other, hother, hrest⟩
        exact ⟨other, mem_append_left _ hother, hrest⟩
      · rintro ⟨other, hother, hid, hline⟩
        rcases mem_concat_cases hother with hold | rfl
        · exact ⟨other, hold, hid, hline⟩
        · rw [hhook] at hline
          cases hline
    · rw [hconfirmations]
      exact h.once
  | evolved f sending sweeps swept hf hsending =>
    refine ⟨hsound, ?_, ?_, h.lines, h.linesNodup, fun deliveryId hookLineId => ?_, h.once, h.answers⟩
    · intro deliveryId text hcreated
      obtain ⟨delivery, hdelivery, hid, htext⟩ := h.created deliveryId text hcreated
      exact ⟨f delivery, mem_map_of_mem hdelivery, (hf delivery hdelivery).deliveryId.trans hid, (hf delivery hdelivery).text.trans htext⟩
    · intro other hother
      obtain ⟨delivery, hdelivery, rfl⟩ := mem_map.1 hother
      rw [(hf delivery hdelivery).deliveryId, (hf delivery hdelivery).text]
      exact h.recorded delivery hdelivery
    · exact (h.confirmed deliveryId hookLineId).trans (mem_map_evolves hf).symm
  | confirmed delivery prompt hookLineId observedAtMs now hdelivery hconfirms hnew =>
    simp only [confirms, Bool.and_eq_true, decide_eq_true_eq, Option.isNone_iff_eq_none] at hconfirms
    obtain ⟨⟨⟨⟨-, -⟩, hhook⟩, -⟩, htext⟩ := hconfirms
    refine ⟨hsound, ?_, ?_, ?_, ?_, ?_, ?_, h.answers.concat ⟨delivery.text, h.recorded delivery hdelivery, htext⟩⟩
    · intro deliveryId text hcreated
      rcases mem_concat_cases hcreated with hold | hnew
      · obtain ⟨other, hother, hid, hsame⟩ := h.created deliveryId text hold
        refine ⟨_, mem_map_of_mem hother, ?_⟩
        unfold exchange
        split_ifs with heq
        · obtain rfl := eq_of_deliveryId h.sound.ids hdelivery hother heq
          exact ⟨hid, hsame⟩
        · exact ⟨hid, hsame⟩
      · cases hnew
    · intro other hother
      obtain ⟨before, hbefore, rfl⟩ := mem_map.1 hother
      refine mem_append_left _ ?_
      unfold exchange
      split_ifs
      · exact h.recorded delivery hdelivery
      · exact h.recorded before hbefore
    · rw [hookLines_concat, h.lines]
      rfl
    · exact nodup_concat h.linesNodup hnew
    · intro deliveryId line
      rw [confirmations_concat, mem_append, h.confirmed, exists_exchange hdelivery hhook h.sound.ids]
      simp [confirmation]
    · rw [confirmations_concat, map_append, nodup_append]
      refine ⟨h.once, nodup_singleton _, fun a ha b hb heq => ?_⟩
      rw [mem_singleton.1 hb] at heq
      obtain ⟨⟨deliveryId, line⟩, hpair, rfl⟩ := mem_map.1 ha
      obtain ⟨other, hother, hid, hline⟩ := (h.confirmed deliveryId line).1 hpair
      obtain rfl := eq_of_deliveryId h.sound.ids hdelivery hother (hid.trans heq)
      rw [hhook] at hline
      cases hline
  | missed prompt hookLineId observedAtMs now hnone hnew =>
    have hconfirmations : confirmations (s.log ++ [.prompted hookLineId prompt none]) = confirmations s.log := by
      rw [confirmations_concat]
      exact append_nil _
    refine ⟨hsound, ?_, fun other hother => mem_append_left _ (h.recorded other hother), ?_, ?_, ?_, ?_, h.answers.concat trivial⟩
    · intro deliveryId text hcreated
      rcases mem_concat_cases hcreated with hold | hnew
      · exact h.created deliveryId text hold
      · cases hnew
    · rw [hookLines_concat, h.lines]
      rfl
    · exact nodup_concat h.linesNodup hnew
    · intro deliveryId line
      rw [hconfirmations]
      exact h.confirmed deliveryId line
    · rw [hconfirmations]
      exact h.once

omit h in
theorem settled_step {deliveryId : String} (h : ∃ delivery ∈ s.deliveries, delivery.deliveryId = deliveryId ∧ delivery.status ≠ .queued)
    (hstep : DeliveryStep s e s') : ∃ delivery ∈ s'.deliveries, delivery.deliveryId = deliveryId ∧ delivery.status ≠ .queued := by
  obtain ⟨delivery, hdelivery, hid, hstatus⟩ := h
  cases hstep with
  | created => exact ⟨delivery, mem_append_left _ hdelivery, hid, hstatus⟩
  | evolved f sending sweeps swept hf =>
    have hevolves := hf delivery hdelivery
    refine ⟨f delivery, mem_map_of_mem hdelivery, hevolves.deliveryId.trans hid, ?_⟩
    cases hcase : delivery.status with
    | queued => exact absurd hcase hstatus
    | submittedByAgent => rwa [hevolves.submitted hcase]
    | failed => simp [hevolves.failed hcase]
  | confirmed other =>
    refine ⟨_, mem_map_of_mem hdelivery, ?_⟩
    unfold exchange
    split_ifs with heq
    · exact ⟨heq.symm.trans hid, by simp⟩
    · exact ⟨hid, hstatus⟩
  | missed => exact ⟨delivery, hdelivery, hid, hstatus⟩

/-- A prompt is observed after the creation of what it may confirm. -/
def ObservedLater (s : UserInputDeliveryService) : DeliveryEvent → Prop
  | .observeProviderUserPrompt _ _ observedAtMs _ => ∀ delivery ∈ s.deliveries, delivery.createdAt < observedAtMs
  | _ => True

/-- Where a new prompt confirms nothing, no delivery of its text waits for the adapter to accept it. -/
def Acknowledged (s : UserInputDeliveryService) : DeliveryEvent → Prop
  | .observeProviderUserPrompt prompt hookLineId observedAtMs _ => hookLineId ∉ s.observedHookIds →
      (∃ delivery ∈ s.deliveries, confirms prompt observedAtMs delivery) ∨
        ∀ delivery ∈ s.deliveries, delivery.status = .queued → normalizePrompt delivery.text = normalizePrompt prompt → delivery.ptyAcceptedAt.isSome
  | _ => True

instance (s : UserInputDeliveryService) : (e : DeliveryEvent) → Decidable (s.ObservedLater e)
  | .observeProviderUserPrompt _ _ observedAtMs _ => inferInstanceAs (Decidable (∀ delivery ∈ s.deliveries, delivery.createdAt < observedAtMs))
  | .submitMessage .. | .inputResolved .. | .inputRejected .. | .finalizeSession .. | .sweepUnsubmittedDeliveries .. | .paneCaptured ..
  | .enterSent .. => isTrue trivial

instance (s : UserInputDeliveryService) : (e : DeliveryEvent) → Decidable (s.Acknowledged e)
  | .observeProviderUserPrompt prompt hookLineId observedAtMs _ => inferInstanceAs (Decidable (hookLineId ∉ s.observedHookIds →
      (∃ delivery ∈ s.deliveries, confirms prompt observedAtMs delivery) ∨
        ∀ delivery ∈ s.deliveries, delivery.status = .queued → normalizePrompt delivery.text = normalizePrompt prompt → delivery.ptyAcceptedAt.isSome))
  | .submitMessage .. | .inputResolved .. | .inputRejected .. | .finalizeSession .. | .sweepUnsubmittedDeliveries .. | .paneCaptured ..
  | .enterSent .. => isTrue trivial

/-- Up to some moment no delivery of the text waits, and since then every prompt of it has confirmed one. -/
def Balanced (s : UserInputDeliveryService) (text : String) : Prop :=
  ∃ early late, s.log = early ++ late ∧
    (∀ hookLineId prompt confirms, .prompted hookLineId prompt confirms ∈ late → normalizePrompt prompt = normalizePrompt text → confirms.isSome) ∧
    ∀ deliveryId created, .created deliveryId created ∈ early → normalizePrompt created = normalizePrompt text →
      ∀ delivery ∈ s.deliveries, delivery.deliveryId = deliveryId →
        delivery.status = .failed ∨ ∃ hookLineId, delivery.submittedHookLineId = some hookLineId ∧ ∀ prompt confirms, .prompted hookLineId prompt confirms ∉ late

theorem Reported.seen {hookLineId : String} (hdelivery : delivery ∈ s.deliveries) (hhook : delivery.submittedHookLineId = some hookLineId) :
    hookLineId ∈ s.observedHookIds := by
  have hpair := (h.confirmed delivery.deliveryId hookLineId).2 ⟨delivery, hdelivery, rfl, hhook⟩
  rw [← h.lines]
  exact (confirmations_lines s.log).subset (mem_map_of_mem (f := Prod.snd) hpair)

omit h in
theorem Balanced.step (h : Balanced s text) (hreported : Reported s) (hlater : ObservedLater s e) (hacknowledged : Acknowledged s e)
    (hstep : DeliveryStep s e s') : Balanced s' text := by
  obtain ⟨early, late, hlog, hlate, hearly⟩ := h
  have hfresh : ∀ {line hookLineId : String} {prompt prompt' : String} {confirms confirms' : Option String} {delivery : UserInputDeliverySnapshot},
      delivery ∈ s.deliveries → delivery.submittedHookLineId = some line → hookLineId ∉ s.observedHookIds →
      prompted line prompt confirms ∉ late → prompted line prompt confirms ∉ late ++ [.prompted hookLineId prompt' confirms'] := by
    intro line hookLineId prompt prompt' confirms confirms' delivery hdelivery hline hnew hold hmem
    rcases mem_concat_cases hmem with hmem | hmem
    · exact hold hmem
    · obtain ⟨rfl, -⟩ := prompted.inj hmem
      exact hnew (hreported.seen hdelivery hline)
  cases hstep with
  | created delivery hqueued haccepted hhook hnew =>
    refine ⟨early, late ++ [.created delivery.deliveryId delivery.text], by simp [hlog], ?_, ?_⟩
    · intro hookLineId prompt confirms hmem
      exact hlate hookLineId prompt confirms (by simpa using hmem)
    · intro deliveryId created hcreated htext other hother hid
      rcases mem_concat_cases hother with hold | rfl
      · obtain hfailed | ⟨hookLineId, hline, hfree⟩ := hearly deliveryId created hcreated htext other hold hid
        · exact .inl hfailed
        · exact .inr ⟨hookLineId, hline, by simpa using hfree⟩
      · obtain ⟨before, hbefore, heq, -⟩ := hreported.created deliveryId created (by rw [hlog]; exact mem_append_left _ hcreated)
        exact absurd (heq.trans hid.symm) (hnew before hbefore)
  | evolved f sending sweeps swept hf =>
    refine ⟨early, late, hlog, hlate, fun deliveryId created hcreated htext other hother hid => ?_⟩
    obtain ⟨delivery, hdelivery, rfl⟩ := mem_map.1 hother
    have hevolves := hf delivery hdelivery
    rw [hevolves.hook]
    exact (hearly deliveryId created hcreated htext delivery hdelivery (hevolves.deliveryId.symm.trans hid)).imp_left hevolves.failed
  | confirmed delivery prompt hookLineId observedAtMs now hdelivery hconfirms hnew =>
    simp only [confirms, Bool.and_eq_true, decide_eq_true_eq, Option.isNone_iff_eq_none] at hconfirms
    obtain ⟨⟨⟨⟨hqueued, -⟩, hhook⟩, -⟩, -⟩ := hconfirms
    refine ⟨early, late ++ [.prompted hookLineId prompt (some delivery.deliveryId)], by simp [hlog], ?_, ?_⟩
    · intro line prompt' confirms hmem htext
      rcases mem_concat_cases hmem with hmem | hmem
      · exact hlate line prompt' confirms hmem htext
      · obtain ⟨-, -, rfl⟩ := prompted.inj hmem
        rfl
    · intro deliveryId created hcreated htext other hother hid
      obtain ⟨before, hbefore, rfl⟩ := mem_map.1 hother
      unfold exchange at hid ⊢
      split_ifs at hid ⊢ with heq
      · -- it was queued, so it is not of those before the moment
        obtain hfailed | ⟨line, hline, -⟩ := hearly deliveryId created hcreated htext delivery hdelivery hid
        · rw [hqueued] at hfailed
          cases hfailed
        · rw [hhook] at hline
          cases hline
      · obtain hfailed | ⟨line, hline, hfree⟩ := hearly deliveryId created hcreated htext before hbefore hid
        · exact .inl hfailed
        · exact .inr ⟨line, hline, fun prompt confirms => hfresh hbefore hline hnew (hfree prompt confirms)⟩
  | missed prompt hookLineId observedAtMs now hnone hnew =>
    by_cases hsame : normalizePrompt prompt = normalizePrompt text
    · refine ⟨s.log ++ [.prompted hookLineId prompt none], [], by simp, by simp, ?_⟩
      intro deliveryId created hcreated htext delivery hdelivery hid
      obtain ⟨other, hother, hid', hcreatedText⟩ := hreported.created deliveryId created (by simpa using hcreated)
      obtain rfl := eq_of_deliveryId hreported.sound.ids hdelivery hother (hid'.trans hid.symm)
      cases hstatus : other.status with
      | queued =>
        have hnohook : other.submittedHookLineId = none := by
          rw [← Option.not_isSome_iff_eq_none, ← hreported.sound.confirmed other hother, hstatus]
          simp
        have htext' : normalizePrompt other.text = normalizePrompt prompt := by rw [hcreatedText, htext, hsame]
        rcases hacknowledged hnew with ⟨confirmed, hmem, hconfirms⟩ | haccepted
        · rw [hnone confirmed hmem] at hconfirms
          cases hconfirms
        · have hconfirms := hnone other hother
          simp [confirms, hstatus, haccepted other hother hstatus htext', hnohook, hlater other hother, htext'] at hconfirms
      | submittedByAgent =>
        obtain ⟨line, hline⟩ := Option.isSome_iff_exists.1 ((hreported.sound.confirmed other hother).1 hstatus)
        exact .inr ⟨line, hline, by simp⟩
      | failed => exact .inl rfl
    · refine ⟨early, late ++ [.prompted hookLineId prompt none], by simp [hlog], ?_, ?_⟩
      · intro line prompt' confirms hmem htext
        rcases mem_concat_cases hmem with hmem | hmem
        · exact hlate line prompt' confirms hmem htext
        · obtain ⟨-, rfl, -⟩ := prompted.inj hmem
          exact absurd htext hsame
      · intro deliveryId created hcreated htext other hother hid
        obtain hfailed | ⟨line, hline, hfree⟩ := hearly deliveryId created hcreated htext other hother hid
        · exact .inl hfailed
        · exact .inr ⟨line, hline, fun prompt confirms => hfresh hother hline hnew (hfree prompt confirms)⟩

def confirmedOf (s : UserInputDeliveryService) (text : String) : List UserInputDeliverySnapshot :=
  s.deliveries.filter fun delivery => delivery.status = .submittedByAgent && normalizePrompt delivery.text = normalizePrompt text

/-- The delivery is one of the text that has not failed, and the hook line reports the text after its creation. -/
def MayConfirm (s : UserInputDeliveryService) (text : String) (pair : String × String) : Prop :=
  ∃ before prompt confirms after created, s.log = before ++ .prompted pair.2 prompt confirms :: after ∧ .created pair.1 created ∈ before ∧
    normalizePrompt prompt = normalizePrompt text ∧ normalizePrompt created = normalizePrompt text ∧
    ∀ delivery ∈ s.deliveries, delivery.deliveryId = pair.1 → delivery.status ≠ .failed

/-- The deliveries of the text that are confirmed, with their hook lines. -/
def confirmedPairs (s : UserInputDeliveryService) (text : String) : List (String × String) :=
  (s.confirmedOf text).map fun delivery => (delivery.deliveryId, delivery.submittedHookLineId.getD "")

omit h in
theorem mem_confirmations {deliveryId hookLineId : String} (h : (deliveryId, hookLineId) ∈ confirmations log) :
    ∃ prompt, .prompted hookLineId prompt (some deliveryId) ∈ log := by
  obtain ⟨entry, hentry, heq⟩ := mem_filterMap.1 h
  cases entry with
  | created => cases heq
  | prompted line prompt confirms =>
    cases confirms with
    | none => cases heq
    | some id =>
      obtain ⟨rfl, rfl⟩ := Prod.mk.inj (Option.some.inj heq)
      exact ⟨prompt, hentry⟩

theorem mem_confirmedPairs {text deliveryId hookLineId : String} : (deliveryId, hookLineId) ∈ s.confirmedPairs text ↔
    ∃ delivery ∈ s.deliveries, delivery.deliveryId = deliveryId ∧ delivery.submittedHookLineId = some hookLineId ∧
      normalizePrompt delivery.text = normalizePrompt text := by
  simp only [confirmedPairs, confirmedOf, mem_map, mem_filter, Bool.and_eq_true, decide_eq_true_eq, Prod.mk.injEq]
  constructor
  · rintro ⟨delivery, ⟨hdelivery, hstatus, htext⟩, hid, hline⟩
    obtain ⟨line, hsome⟩ := Option.isSome_iff_exists.1 ((h.sound.confirmed delivery hdelivery).1 hstatus)
    rw [hsome] at hline
    exact ⟨delivery, hdelivery, hid, hline ▸ hsome, htext⟩
  · rintro ⟨delivery, hdelivery, hid, hline, htext⟩
    have hstatus := (h.sound.confirmed delivery hdelivery).2 (by rw [hline]; rfl)
    exact ⟨delivery, ⟨hdelivery, hstatus, htext⟩, hid, by rw [hline, Option.getD_some]⟩

theorem Reported.pair {pair : String × String} (hpair : pair ∈ s.confirmedPairs text) : pair ∈ confirmations s.log := by
  obtain ⟨deliveryId, hookLineId⟩ := pair
  obtain ⟨delivery, hdelivery, hid, hline, -⟩ := (mem_confirmedPairs h).1 hpair
  exact (h.confirmed deliveryId hookLineId).2 ⟨delivery, hdelivery, hid, hline⟩

theorem Reported.linesOnce : ((confirmations s.log).map Prod.snd).Nodup := by
  have hlines := h.linesNodup
  rw [← h.lines] at hlines
  exact hlines.sublist (confirmations_lines s.log)

theorem Reported.confirmedPairs_isPairing (text : String) : IsPairing (s.confirmedPairs text).toFinset := by
  constructor
  · intro p hp q hq heq
    simp only [coe_toFinset, Set.mem_ofPred_eq] at hp hq
    exact inj_on_of_nodup_map h.once (h.pair hp) (h.pair hq) heq
  · intro p hp q hq heq
    simp only [coe_toFinset, Set.mem_ofPred_eq] at hp hq
    exact inj_on_of_nodup_map h.linesOnce (h.pair hp) (h.pair hq) heq

theorem Reported.card_confirmedPairs (text : String) : (s.confirmedPairs text).toFinset.card = (s.confirmedOf text).length := by
  have hnodup : (s.confirmedPairs text).Nodup := by
    refine List.Nodup.of_map Prod.fst ?_
    rw [confirmedPairs, map_map]
    exact h.sound.ids.sublist (filter_sublist.map _)
  rw [toFinset_card_of_nodup hnodup, confirmedPairs, length_map]

theorem Reported.mayConfirm {pair : String × String} (hpair : pair ∈ s.confirmedPairs text) : s.MayConfirm text pair := by
  obtain ⟨deliveryId, hookLineId⟩ := pair
  obtain ⟨delivery, hdelivery, rfl, hline, htext⟩ := (mem_confirmedPairs h).1 hpair
  obtain ⟨prompt, hprompted⟩ := mem_confirmations (h.pair hpair)
  obtain ⟨before, after, hlog⟩ := append_of_mem hprompted
  obtain ⟨created, hcreated, hsame⟩ := h.answers before _ after hlog
  have hcreatedText : created = delivery.text := by
    obtain ⟨other, hother, hid, rfl⟩ := h.created delivery.deliveryId created (by rw [hlog]; exact mem_append_left _ hcreated)
    rw [eq_of_deliveryId h.sound.ids hdelivery hother hid]
  subst hcreatedText
  refine ⟨before, prompt, _, after, delivery.text, hlog, hcreated, hsame.symm.trans htext, htext, fun other hother hid => ?_⟩
  obtain rfl := eq_of_deliveryId h.sound.ids hdelivery hother hid
  rw [(h.sound.confirmed other hother).2 (by rw [hline]; rfl)]
  simp

end

theorem Balanced.cover (h : Balanced s text) (hreported : Reported s) {pairs : Finset (String × String)} (hpairing : IsPairing pairs)
    (hmay : ∀ pair ∈ pairs, s.MayConfirm text pair) : pairs.card ≤ (s.confirmedPairs text).toFinset.card := by
  obtain ⟨early, late, hlog, hlate, hearly⟩ := h
  refine hpairing.card_le (fun line => ∃ prompt confirms, prompted line prompt confirms ∈ late) fun pair hpair => ?_
  obtain ⟨before, prompt, confirms, after, created, hsplit, hcreated, hprompt, htext, hfailed⟩ := hmay pair hpair
  rw [hlog, append_eq_append_iff] at hsplit
  have hmem : .created pair.1 created ∈ early ∨ .prompted pair.2 prompt confirms ∈ late := by
    rcases hsplit with ⟨middle, -, rfl⟩ | ⟨middle, rfl, -⟩
    · exact .inr (mem_append_right _ mem_cons_self)
    · exact .inl (mem_append_left _ hcreated)
  rcases hmem with hcreated | hprompted
  · obtain ⟨delivery, hdelivery, hid, hsame⟩ := hreported.created pair.1 created (by rw [hlog]; exact mem_append_left _ hcreated)
    obtain ⟨line, hline, hfree⟩ := (hearly pair.1 created hcreated htext delivery hdelivery hid).resolve_left (hfailed delivery hdelivery hid)
    refine ⟨(pair.1, line), ?_, .inl ⟨?_, rfl⟩⟩
    · exact mem_toFinset.2 ((mem_confirmedPairs hreported).2 ⟨delivery, hdelivery, hid, hline, by rw [hsame, htext]⟩)
    · rintro ⟨prompt, confirms, hmem⟩
      exact hfree prompt confirms hmem
  · obtain ⟨deliveryId, rfl⟩ := Option.isSome_iff_exists.1 (hlate _ _ _ hprompted hprompt)
    have hin : .prompted pair.2 prompt (some deliveryId) ∈ s.log := by rw [hlog]; exact mem_append_right _ hprompted
    obtain ⟨delivery, hdelivery, hid, hline⟩ := (hreported.confirmed deliveryId pair.2).1 (mem_filterMap.2 ⟨_, hin, rfl⟩)
    obtain ⟨before, after, hlog'⟩ := append_of_mem hin
    obtain ⟨text', hcreated', hsame⟩ := hreported.answers before _ after hlog'
    obtain ⟨other, hother, hid', rfl⟩ := hreported.created deliveryId text' (by rw [hlog']; exact mem_append_left _ hcreated')
    obtain rfl := eq_of_deliveryId hreported.sound.ids hdelivery hother (hid'.trans hid.symm)
    refine ⟨(deliveryId, pair.2), ?_, .inr ⟨⟨prompt, _, hprompted⟩, rfl⟩⟩
    exact mem_toFinset.2 ((mem_confirmedPairs hreported).2 ⟨other, hother, hid, hline, hsame.trans hprompt⟩)

theorem reported_create : Reported create := by
  constructor <;> simp [create, confirmations, along_nil]
  constructor <;> simp

/-- In every run a hook line confirms one delivery and a delivery is confirmed once, and what is settled is not queued
again. Where no prompt finds only deliveries of its text that wait to be accepted, as many deliveries of a text are
confirmed as can be given, each, a prompt that was observed after it was created. -/
theorem prompts_confirm {events : List DeliveryEvent} (hlater : StepsMeet (step retry) ObservedLater create events)
    (hrun : exec (step retry) create events = some s) :
    ((confirmations s.log).map Prod.fst).Nodup ∧ ((confirmations s.log).map Prod.snd).Nodup ∧
      (∀ before after s₁, events = before ++ after → exec (step retry) create before = some s₁ → ∀ delivery ∈ s₁.deliveries,
        delivery.status ≠ .queued → ∀ delivery' ∈ s.deliveries, delivery'.deliveryId = delivery.deliveryId → delivery'.status ≠ .queued) ∧
      (StepsMeet (step retry) Acknowledged create events → ∀ text,
        IsGreatest {n | ∃ pairs : Finset (String × String), IsPairing pairs ∧ (∀ pair ∈ pairs, s.MayConfirm text pair) ∧ pairs.card = n}
          (s.confirmedOf text).length) := by
  have hkeeps : ∀ (s : UserInputDeliveryService) (e : DeliveryEvent) (s' : UserInputDeliveryService), Reported s → step retry s e = some s' → Reported s' :=
    fun s e s' h hstep => h.step (step_cases h.sound hstep)
  have h : Reported s := exec_preserves hkeeps reported_create hrun
  refine ⟨h.once, h.linesOnce, ?_, ?_⟩
  · rintro before after s₁ rfl hbefore delivery hdelivery hstatus delivery' hdelivery' hid
    have hafter : exec (step retry) s₁ after = some s := by
      obtain ⟨s₂, hs₂, hrest⟩ := exec_append_eq_some.1 hrun
      rwa [Option.some.inj (hbefore.symm.trans hs₂)]
    have hstays : ∀ (s : UserInputDeliveryService) (e : DeliveryEvent) (s' : UserInputDeliveryService),
        (Reported s ∧ ∃ other ∈ s.deliveries, other.deliveryId = delivery.deliveryId ∧ other.status ≠ .queued) → step retry s e = some s' →
        Reported s' ∧ ∃ other ∈ s'.deliveries, other.deliveryId = delivery.deliveryId ∧ other.status ≠ .queued :=
      fun s e s' hs hstep => ⟨hkeeps s e s' hs.1 hstep, settled_step hs.2 (step_cases hs.1.sound hstep)⟩
    obtain ⟨-, other, hother, heq, hne⟩ :=
      exec_preserves hstays ⟨exec_preserves hkeeps reported_create hbefore, delivery, hdelivery, rfl, hstatus⟩ hafter
    rwa [eq_of_deliveryId h.sound.ids hother hdelivery' (hid.trans heq.symm)]
  · intro hacknowledged text
    have hstays : ∀ (s : UserInputDeliveryService) (e : DeliveryEvent) (s' : UserInputDeliveryService), Reported s ∧ Balanced s text →
        ObservedLater s e ∧ Acknowledged s e → step retry s e = some s' → Reported s' ∧ Balanced s' text :=
      fun s e s' hs hok hstep => ⟨hkeeps s e s' hs.1 hstep, hs.2.step hs.1 hok.1 hok.2 (step_cases hs.1.sound hstep)⟩
    have hbalanced := exec_invariant hstays ⟨reported_create, [], [], rfl, by simp, by simp⟩ (hlater.and hacknowledged) hrun
    refine ⟨⟨_, h.confirmedPairs_isPairing text, fun pair hpair => h.mayConfirm (mem_toFinset.1 hpair), h.card_confirmedPairs text⟩, ?_⟩
    rintro n ⟨pairs, hpairing, hmay, rfl⟩
    rw [← h.card_confirmedPairs text]
    exact hbalanced.2.cover h hpairing hmay

def acceptedThenPrompted : List DeliveryEvent :=
  [.submitMessage "d1" "hi" .respond 1000, .inputResolved "d1" 1010, .observeProviderUserPrompt "hi\n" "h1" 1020 1021, .finalizeSession 2000]

theorem prompts_confirm_acceptedThenPrompted : ∃ s, exec (step none) create acceptedThenPrompted = some s ∧
    IsGreatest {n | ∃ pairs : Finset (String × String), IsPairing pairs ∧ (∀ pair ∈ pairs, s.MayConfirm "hi" pair) ∧ pairs.card = n}
      (s.confirmedOf "hi").length := by
  obtain ⟨s, hrun⟩ : ∃ s, exec (step none) create acceptedThenPrompted = some s := Option.isSome_iff_exists.1 (by decide +kernel)
  exact ⟨s, hrun, (prompts_confirm (by decide +kernel) hrun).2.2.2 (by decide +kernel) "hi"⟩

def promptedThenAccepted : List DeliveryEvent :=
  [.submitMessage "d1" "hi" .respond 1000, .observeProviderUserPrompt "hi" "h1" 1010 1011, .inputResolved "d1" 1020]

theorem promptedThenAccepted_run : (exec (step none) create promptedThenAccepted).map (fun s => (s.deliveries, s.sending, s.log)) =
    some ([⟨"d1", 1, .respond, "hi", .queued, 1000, 1020, some 1020, none, none, none, none, none⟩], [],
      [.created "d1" "hi"] ++ .prompted "h1" "hi" none :: []) := by decide +kernel

/-- Every input has settled, and the delivery that its prompt could have confirmed is still queued. -/
theorem prompted_left_queued : ∃ s, exec (step none) create promptedThenAccepted = some s ∧ StepsMeet (step none) ObservedLater create promptedThenAccepted ∧
    s.sending = [] ∧ (s.confirmedOf "hi").length = 0 ∧
    ¬ IsGreatest {n | ∃ pairs : Finset (String × String), IsPairing pairs ∧ (∀ pair ∈ pairs, s.MayConfirm "hi" pair) ∧ pairs.card = n}
      (s.confirmedOf "hi").length := by
  obtain ⟨s, hrun, hstate⟩ := Option.map_eq_some_iff.1 promptedThenAccepted_run
  simp only [Prod.mk.injEq] at hstate
  obtain ⟨hdeliveries, hsending, hlog⟩ := hstate
  have hnone : (s.confirmedOf "hi").length = 0 := by simp [confirmedOf, hdeliveries]
  refine ⟨s, hrun, by decide +kernel, hsending, hnone, fun hgreatest => ?_⟩
  have hone : 1 ≤ (s.confirmedOf "hi").length := by
    refine hgreatest.2 ⟨{("d1", "h1")}, ⟨by simp, by simp⟩, fun pair hpair => ?_, rfl⟩
    obtain rfl := Finset.mem_singleton.1 hpair
    exact ⟨_, "hi", none, [], "hi", hlog, mem_singleton_self _, rfl, rfl, by simp [hdeliveries]⟩
  omega

end UserInputDeliveryService

end Kookr.Server
