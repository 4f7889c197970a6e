import Mathlib.Data.List.Nodup
import Kookr.Lib.ListAt
import Kookr.Spec.Server.UserInputDeliveryService

/-! What one step does with the deliveries of a session. -/

namespace Kookr.Server

open Kookr.Lib List

/-- What a delivery becomes where no prompt confirms it. -/
structure Evolves (sending : List UserInputDeliverySnapshot) (delivery delivery' : UserInputDeliverySnapshot) : Prop where
  deliveryId : delivery'.deliveryId = delivery.deliveryId
  text : delivery'.text = delivery.text
  createdAt : delivery'.createdAt = delivery.createdAt
  submitted : delivery.status = .submittedByAgent → delivery' = delivery
  failed : delivery.status = .failed → delivery'.status = .failed
  unconfirmed : delivery.status ≠ .submittedByAgent → delivery'.status ≠ .submittedByAgent
  hook : delivery'.submittedHookLineId = delivery.submittedHookLineId
  accepted : delivery'.ptyAcceptedAt = delivery.ptyAcceptedAt ∨ ∀ waiting ∈ sending, waiting.deliveryId ≠ delivery.deliveryId

theorem Evolves.rfl {sending : List UserInputDeliverySnapshot} {delivery : UserInputDeliverySnapshot} : Evolves sending delivery delivery :=
  ⟨by rfl, by rfl, by rfl, fun _ => by rfl, id, id, by rfl, .inl (by rfl)⟩

namespace UserInputDeliveryService

/-- The deliveries have ids of their own, and those whose input has not settled are not accepted. -/
structure Sound (s : UserInputDeliveryService) : Prop where
  ids : (s.deliveries.map UserInputDeliverySnapshot.deliveryId).Nodup
  sendingIds : (s.sending.map UserInputDeliverySnapshot.deliveryId).Nodup
  sending : ∀ waiting ∈ s.sending, ∃ delivery ∈ s.deliveries, delivery.deliveryId = waiting.deliveryId ∧ delivery.text = waiting.text ∧
    delivery.createdAt = waiting.createdAt ∧ delivery.ptyAcceptedAt = none ∧ waiting.submittedHookLineId = none ∧ waiting.ptyAcceptedAt = none
  confirmed : ∀ delivery ∈ s.deliveries, delivery.status = .submittedByAgent ↔ delivery.submittedHookLineId.isSome
  accepted : ∀ delivery ∈ s.deliveries, delivery.status = .submittedByAgent → delivery.ptyAcceptedAt.isSome

variable {s s' : UserInputDeliveryService} {delivery delivery' next : UserInputDeliverySnapshot} {deliveryId : String} {e : DeliveryEvent}
  {retry : Option UserInputDeliveryRetry} {waiting : UserInputDeliverySnapshot}

theorem getDelivery_mem (h : s.getDelivery deliveryId = some delivery) : delivery ∈ s.deliveries ∧ delivery.deliveryId = deliveryId :=
  ⟨mem_of_find?_eq_some h, by simpa using find?_some h⟩

theorem eq_of_deliveryId (h : (s.deliveries.map UserInputDeliverySnapshot.deliveryId).Nodup) (hmem : delivery ∈ s.deliveries)
    (hmem' : delivery' ∈ s.deliveries) (heq : delivery'.deliveryId = delivery.deliveryId) : delivery' = delivery :=
  inj_on_of_nodup_map h hmem' hmem heq

/-- A replacement of one delivery, said of all of them. -/
def exchange (deliveryId : String) (next delivery : UserInputDeliverySnapshot) : UserInputDeliverySnapshot :=
  if delivery.deliveryId = deliveryId then next else delivery

theorem replaceDelivery_eq (h : (s.deliveries.map UserInputDeliverySnapshot.deliveryId).Nodup) (deliveryId : String) (next : UserInputDeliverySnapshot) :
    s.replaceDelivery deliveryId next = { s with deliveries := s.deliveries.map (exchange deliveryId next) } := by
  unfold replaceDelivery
  cases hfind : s.deliveries.findIdx? fun delivery => delivery.deliveryId = deliveryId with
  | none =>
    have hnone : ∀ delivery ∈ s.deliveries, exchange deliveryId next delivery = delivery := fun delivery hdelivery =>
      if_neg (by simpa using findIdx?_eq_none_iff.1 hfind delivery hdelivery)
    rw [map_congr_left hnone, map_id']
  | some index =>
    obtain ⟨hlt, hid, -⟩ := findIdx?_eq_some_iff_getElem.1 hfind
    rw [decide_eq_true_eq] at hid
    have hset : s.deliveries.set index next = s.deliveries.map (exchange deliveryId next) := by
      refine ext_getElem (by simp) fun i hi hi' => ?_
      rw [getElem_set, getElem_map]
      split_ifs with heq
      · subst heq
        exact (if_pos hid).symm
      · refine (if_neg fun hid' => heq ?_).symm
        have hlt' : index < (s.deliveries.map UserInputDeliverySnapshot.deliveryId).length := by simpa using hlt
        have hi' : i < (s.deliveries.map UserInputDeliverySnapshot.deliveryId).length := by simpa using hi
        have hsame : (s.deliveries.map UserInputDeliverySnapshot.deliveryId)[index] =
            (s.deliveries.map UserInputDeliverySnapshot.deliveryId)[i] := by
          simp only [getElem_map]
          rw [hid, hid']
        exact (List.Nodup.getElem_inj_iff h).1 hsame
    simp only [hset]

/-- What a step does with the deliveries and with the log. -/
inductive DeliveryStep (s : UserInputDeliveryService) : DeliveryEvent → UserInputDeliveryService → Prop
  | created (delivery : UserInputDeliverySnapshot) {e : DeliveryEvent} (hqueued : delivery.status = .queued) (haccepted : delivery.ptyAcceptedAt = none)
      (hhook : delivery.submittedHookLineId = none) (hnew : ∀ other ∈ s.deliveries, other.deliveryId ≠ delivery.deliveryId) (nextSeq : ℕ) :
      DeliveryStep s e { s with
        deliveries := s.deliveries ++ [delivery], nextSeq, sending := s.sending ++ [delivery],
        log := s.log ++ [.created delivery.deliveryId delivery.text] }
  | evolved (f : UserInputDeliverySnapshot → UserInputDeliverySnapshot) (sending : List UserInputDeliverySnapshot) (sweeps : List RetrySweep) (swept : ℕ)
      {e : DeliveryEvent} (hf : ∀ delivery ∈ s.deliveries, Evolves sending delivery (f delivery)) (hsending : sending.Sublist s.sending) :
      DeliveryStep s e { s with deliveries := s.deliveries.map f, sending, sweeps, swept }
  | confirmed (delivery : UserInputDeliverySnapshot) (prompt hookLineId : String) (observedAtMs now : ℕ) (hdelivery : delivery ∈ s.deliveries)
      (hconfirms : confirms prompt observedAtMs delivery) (hnew : hookLineId ∉ s.observedHookIds) :
      DeliveryStep s (.observeProviderUserPrompt prompt hookLineId observedAtMs now) { s with
        deliveries := s.deliveries.map (exchange delivery.deliveryId
          { delivery with status := .submittedByAgent, submittedHookLineId := some hookLineId, updatedAt := now })
        observedHookIds := s.observedHookIds ++ [hookLineId]
        log := s.log ++ [.prompted hookLineId prompt (some delivery.deliveryId)] }
  | missed (prompt hookLineId : String) (observedAtMs now : ℕ) (hnone : ∀ delivery ∈ s.deliveries, confirms prompt observedAtMs delivery = false)
      (hnew : hookLineId ∉ s.observedHookIds) :
      DeliveryStep s (.observeProviderUserPrompt prompt hookLineId observedAtMs now) { s with
        observedHookIds := s.observedHookIds ++ [hookLineId], log := s.log ++ [.prompted hookLineId prompt none] }

theorem DeliveryStep.same (sending : List UserInputDeliverySnapshot) (sweeps : List RetrySweep) (swept : ℕ) (hsending : sending.Sublist s.sending) :
    DeliveryStep s e { s with sending, sweeps, swept } := by
  have hsame := DeliveryStep.evolved (s := s) (e := e) id sending sweeps swept (fun _ _ => .rfl) hsending
  rwa [map_id] at hsame

section

variable (h : Sound s)
include h

theorem DeliveryStep.one (hdelivery : delivery ∈ s.deliveries) {sending : List UserInputDeliverySnapshot} (hnext : Evolves sending delivery next)
    (sweeps : List RetrySweep) (hsending : sending.Sublist s.sending) :
    DeliveryStep s e { s with deliveries := s.deliveries.map (exchange delivery.deliveryId next), sending, sweeps } := by
  refine .evolved (exchange delivery.deliveryId next) sending sweeps s.swept (fun other hother => ?_) hsending
  unfold exchange
  split_ifs with hid
  · obtain rfl := eq_of_deliveryId h.ids hdelivery hother hid
    exact hnext
  · exact .rfl

theorem Sound.settled (hfind : s.sending.find? (fun delivery => delivery.deliveryId = deliveryId) = some waiting) :
    waiting ∈ s.sending ∧ waiting.deliveryId = deliveryId ∧ (s.settleInput deliveryId).sending.Sublist s.sending ∧
      ∀ other ∈ (s.settleInput deliveryId).sending, other.deliveryId ≠ deliveryId := by
  have hid : waiting.deliveryId = deliveryId := by simpa using find?_some hfind
  refine ⟨mem_of_find?_eq_some hfind, hid, eraseP_sublist, fun other hother => ?_⟩
  obtain ⟨before, after, hsplit, herase⟩ := eraseP_of_find? hfind
  have hnodup := h.sendingIds
  rw [hsplit, map_append, map_cons, nodup_middle, nodup_cons, ← map_append, hid] at hnodup
  rw [settleInput, herase] at hother
  rintro rfl
  exact hnodup.1 (mem_map_of_mem hother)

theorem DeliveryStep.accept (acceptedAt : ℕ)
    (hfind : s.sending.find? (fun delivery => delivery.deliveryId = deliveryId) = some waiting) :
    DeliveryStep s e ((s.settleInput deliveryId).inputResolved waiting acceptedAt) := by
  obtain ⟨-, hid, hsublist, hfree⟩ := h.settled hfind
  have hsame : DeliveryStep s e (s.settleInput deliveryId) := .same _ s.sweeps s.swept hsublist
  simp only [inputResolved]
  cases hget : (s.settleInput deliveryId).getDelivery waiting.deliveryId with
  | none => exact hsame
  | some current =>
    obtain ⟨hmem, hcurrent⟩ := getDelivery_mem hget
    dsimp only
    split_ifs with hsettled
    · exact hsame
    · rw [not_or, not_not] at hsettled
      rw [replaceDelivery_eq (s := s.settleInput deliveryId) h.ids, ← hcurrent]
      refine .one h hmem ?_ s.sweeps hsublist
      refine ⟨rfl, rfl, rfl, fun hs => ?_, fun hf => ?_, fun _ => by simp, rfl, .inr fun other hother => ?_⟩
      · rw [hsettled.1] at hs
        cases hs
      · rw [hsettled.1] at hf
        cases hf
      · rw [hcurrent, hid]
        exact hfree other hother

theorem DeliveryStep.reject (error : String) (failedAt : ℕ)
    (hfind : s.sending.find? (fun delivery => delivery.deliveryId = deliveryId) = some waiting) :
    DeliveryStep s e ((s.settleInput deliveryId).inputRejected waiting error failedAt) := by
  obtain ⟨hwaiting, hid, hsublist, -⟩ := h.settled hfind
  obtain ⟨delivery, hdelivery, heq, htext, hcreated, haccepted, hhook, hpty⟩ := h.sending waiting hwaiting
  have hunconfirmed : delivery.status ≠ .submittedByAgent := fun hs => by
    have hsome := h.accepted delivery hdelivery hs
    rw [haccepted] at hsome
    cases hsome
  have hnohook : delivery.submittedHookLineId = none := by
    rw [← Option.not_isSome_iff_eq_none]
    exact fun hsome => hunconfirmed ((h.confirmed delivery hdelivery).2 hsome)
  rw [inputRejected, replaceDelivery_eq (s := s.settleInput deliveryId) h.ids, ← heq]
  refine .one h hdelivery ?_ s.sweeps hsublist
  exact ⟨rfl, htext.symm, hcreated.symm, fun hs => absurd hs hunconfirmed, fun _ => rfl, fun _ => by simp,
    hhook.trans hnohook.symm, .inl (hpty.trans haccepted.symm)⟩

theorem DeliveryStep.observe (prompt hookLineId : String) (observedAtMs now : ℕ) :
    DeliveryStep s (.observeProviderUserPrompt prompt hookLineId observedAtMs now) (s.observeProviderUserPrompt prompt hookLineId observedAtMs now) := by
  unfold observeProviderUserPrompt
  split_ifs with hseen
  · exact .same s.sending s.sweeps s.swept (List.Sublist.refl _)
  · dsimp only
    cases hfind : s.deliveries.find? (confirms prompt observedAtMs) with
    | none => exact .missed prompt hookLineId observedAtMs now (fun delivery hdelivery => by simpa using find?_eq_none.1 hfind delivery hdelivery) hseen
    | some delivery =>
      dsimp only
      rw [replaceDelivery_eq (s := { s with observedHookIds := s.observedHookIds ++ [hookLineId] }) h.ids]
      exact .confirmed delivery prompt hookLineId observedAtMs now (mem_of_find?_eq_some hfind) (find?_some hfind) hseen

theorem DeliveryStep.enter (number : ℕ) (deliveryId : String) (succeeded : Bool) (now : ℕ) :
    DeliveryStep s e (s.enterSent number deliveryId succeeded now) := by
  have hsame : DeliveryStep s e (s.setSweep number none) := .same s.sending _ s.swept (List.Sublist.refl _)
  simp only [enterSent]
  split_ifs
  · exact hsame
  · cases hget : (s.setSweep number none).getDelivery deliveryId with
    | none => exact hsame
    | some afterEnter =>
      obtain ⟨hmem, rfl⟩ := getDelivery_mem hget
      dsimp only
      split_ifs with hsettled
      · exact hsame
      · rw [not_not] at hsettled
        rw [replaceDelivery_eq (s := s.setSweep number none) h.ids]
        refine .one h hmem ?_ _ (List.Sublist.refl _)
        refine ⟨rfl, rfl, rfl, fun hs => ?_, fun hf => ?_, fun hu => hu, rfl, .inl rfl⟩
        · rw [hsettled] at hs
          cases hs
        · rw [hsettled] at hf
          cases hf

theorem step_cases (hstep : step retry s e = some s') : DeliveryStep s e s' := by
  have hsweeps : ∀ (sweeps : List RetrySweep) (swept : ℕ), DeliveryStep s e { s with sweeps, swept } :=
    fun sweeps swept => .same s.sending sweeps swept (List.Sublist.refl _)
  cases e with
  | submitMessage deliveryId text source now =>
    simp only [step] at hstep
    split_ifs at hstep with hused
    cases hstep
    refine .created ⟨deliveryId, s.nextSeq, source, text, .queued, now, now, none, none, none, none, none, none⟩ rfl rfl rfl (fun other hother => ?_) _
    rw [Bool.not_eq_true, Option.isSome_eq_false_iff, Option.isNone_iff_eq_none] at hused
    simpa using find?_eq_none.1 hused other hother
  | inputResolved deliveryId now =>
    obtain ⟨waiting, hwaiting, rfl⟩ := Option.map_eq_some_iff.1 hstep
    exact .accept h now hwaiting
  | inputRejected deliveryId error now =>
    obtain ⟨waiting, hwaiting, rfl⟩ := Option.map_eq_some_iff.1 hstep
    exact .reject h error now hwaiting
  | observeProviderUserPrompt prompt hookLineId observedAtMs now =>
    cases hstep
    exact .observe h prompt hookLineId observedAtMs now
  | finalizeSession now =>
    cases hstep
    refine .evolved _ s.sending s.sweeps s.swept (fun delivery _ => ?_) (List.Sublist.refl _)
    split_ifs with hqueued
    · refine ⟨rfl, rfl, rfl, fun hs => ?_, fun _ => rfl, fun _ => by simp, rfl, .inl rfl⟩
      rw [hqueued] at hs
      cases hs
    · exact .rfl
  | sweepUnsubmittedDeliveries now =>
    cases hstep
    unfold sweepUnsubmittedDeliveries
    cases retry with
    | none => exact hsweeps s.sweeps s.swept
    | some retry =>
      dsimp only
      split_ifs
      · exact hsweeps s.sweeps s.swept
      · exact hsweeps _ _
  | paneCaptured number pane =>
    obtain ⟨sweep, -, hstep⟩ := Option.bind_eq_some_iff.1 hstep
    split at hstep
    · cases hstep
      unfold paneCaptured
      cases pane with
      | none => exact hsweeps _ _
      | some pane =>
        dsimp only
        split_ifs <;> exact hsweeps _ _
    · cases hstep
  | enterSent number succeeded now =>
    obtain ⟨sweep, -, hstep⟩ := Option.bind_eq_some_iff.1 hstep
    split at hstep
    · cases hstep
    · cases hstep
      exact .enter h number _ succeeded now

end

end UserInputDeliveryService

end Kookr.Server
