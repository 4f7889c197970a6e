import Kookr.Sanity.Relay.SocketLoops

/-! Every open client is in its node's set of subscribers as long as no close handler takes another set from the map. -/

namespace Kookr.Relay

open Kookr.Lib ClientRelay ClientRelay List Option

variable {s s' : ClientRelay} {c : ℕ} {sub : RelayClient} {reads : RelayReads} {event : ClientRelayEvent} {frame : RelayFrame}

/-- Every client that is open is in the set of its node. -/
def NoneLost (s : ClientRelay) : Prop := ∀ c sub, s.clients[c]? = some sub → sub.isOpen = true → c ∈ s.subscribed sub.nodeId

theorem noneLost_start : NoneLost .start := by
  intro c sub hsub
  cases hsub

def NoOpen (s : ClientRelay) (nodeId : String) : Prop :=
  ∀ (c : ℕ) (sub : RelayClient), s.clients[c]? = some sub → sub.isOpen = true → sub.nodeId ≠ nodeId

/-- A close handler whose set is the node's, or is not empty, or that is left alone with its node. -/
def Spares (s : ClientRelay) : ClientRelayEvent → Prop
  | .closeEvent _ c => ∀ sub, s.clients[c]? = some sub → sub.isOpen = false → sub.isGone = false →
    s.subscribers.get sub.nodeId = some sub.set ∨ (s.members sub.set).erase c ≠ [] ∨ NoOpen s sub.nodeId
  | _ => True

theorem mem_subscribed {nodeId : String} : c ∈ s.subscribed nodeId ↔ ∃ set, s.subscribers.get nodeId = some set ∧ c ∈ s.members set := by
  unfold subscribed
  cases s.subscribers.get nodeId with
  | none | some set => simp

theorem NoneLost.calm (h : NoneLost s) (hcalm : Calm s s') : NoneLost s' := by
  intro c sub hsub hopen
  obtain ⟨keep, sub₀, hsub₀, rfl⟩ := hcalm.client hsub
  have hopen₀ : sub₀.isOpen = true := by
    simp only [Bool.and_eq_true] at hopen
    exact hopen.1
  obtain ⟨set, hset, hmem⟩ := mem_subscribed.1 (h c sub₀ hsub₀ hopen₀)
  have hmem' := hcalm.stays set c hmem ((isOpen_of hsub).trans hopen)
  rcases hcalm.subscribers sub₀.nodeId with heq | ⟨_, set', hset', hempty⟩
  · exact mem_subscribed.2 ⟨set, heq ▸ hset, hmem'⟩
  · obtain rfl := some.inj (hset.symm.trans hset')
    rw [hempty] at hmem'
    cases hmem'

/-- The sets, and what the log says of the sockets. -/
structure Sockets (s : ClientRelay) : Prop where
  logged : Logged s
  known : Known s

theorem Sockets.calm (h : Sockets s) (hcalm : Calm s s') : Sockets s' := ⟨hcalm.logged h.logged, h.known.calm hcalm⟩

theorem Sockets.start : Sockets .start where
  logged := ⟨fun c hc => (by obtain ⟨_, _, hmem⟩ := hc; cases hmem), along_nil⟩
  known _ _ h := by cases h

theorem connect_calm (s : ClientRelay) (reads : RelayReads) (nodeId : String) (auth : RelayClientAuth) (terminal : Option RelayTerminal)
    (transportAllowed : Bool) : Calm (s.register nodeId auth terminal transportAllowed) (s.connect reads nodeId auth terminal transportAllowed) := by
  unfold connect
  generalize s.clients.length = c
  generalize s.register nodeId auth terminal transportAllowed = registered
  have hreplayed : Calm registered (registered.replayTo reads nodeId c) := (loop_replayTo registered reads nodeId c).toCalm
  have hrow : ∀ s : ClientRelay, Calm s { s with presence := s.presence ++ [(nodeId, c, auth.invitationId)] } :=
    fun s => .of_fields rfl rfl rfl fun h => ⟨h.closed, h.along⟩
  have hpresence : ∀ s : ClientRelay, Calm s (s.recordPresence reads nodeId c auth.invitationId) :=
    fun s => (hrow s).trans (loop_broadcastPresence _ reads nodeId).toCalm
  exact (hreplayed.trans (hpresence _)).trans (loop_deliverShareState reads _ c).toCalm

theorem getElem?_register (s : ClientRelay) (nodeId : String) (auth : RelayClientAuth) (terminal : Option RelayTerminal)
    (transportAllowed : Bool) (h : (s.register nodeId auth terminal transportAllowed).clients[c]? = some sub) :
    s.clients[c]? = some sub ∨ c = s.clients.length ∧ sub.nodeId = nodeId := by
  unfold register at h
  rcases Nat.lt_trichotomy c s.clients.length with hlt | heq | hgt
  · rw [getElem?_append_left hlt] at h
    exact .inl h
  · subst heq
    rw [getElem?_append_right le_rfl, Nat.sub_self] at h
    exact .inr ⟨rfl, (some.inj h) ▸ rfl⟩
  · rw [getElem?_eq_none (by rw [length_append]; exact hgt)] at h
    cases h

theorem mem_members_register (s : ClientRelay) (nodeId : String) (auth : RelayClientAuth) (terminal : Option RelayTerminal)
    (transportAllowed : Bool) (set : ℕ) : c ∈ (s.register nodeId auth terminal transportAllowed).members set ↔
      c ∈ s.members set ∨ set = (s.subscribers.get nodeId).getD s.newSet ∧ c = s.clients.length := by
  unfold register
  simp only [Function.update_apply]
  split
  · rename_i heq
    rw [heq]
    simp
  · rename_i hne
    simp [hne]

theorem Sockets.register (h : Sockets s) (nodeId : String) (auth : RelayClientAuth) (terminal : Option RelayTerminal)
    (transportAllowed : Bool) : Sockets (s.register nodeId auth terminal transportAllowed) := by
  have hlength : (s.register nodeId auth terminal transportAllowed).clients.length = s.clients.length + 1 := by simp [ClientRelay.register]
  refine ⟨⟨fun c hclosed => ?_, h.logged.along⟩, fun set c hmem => ?_⟩
  · obtain ⟨hnot, hlt⟩ := h.logged.closed c hclosed
    refine ⟨?_, by omega⟩
    unfold ClientRelay.isOpen ClientRelay.register at *
    rwa [getElem?_append_left hlt]
  · rw [hlength]
    rcases (mem_members_register s nodeId auth terminal transportAllowed set).1 hmem with hold | ⟨_, rfl⟩
    · exact Nat.lt_succ_of_lt (h.known set c hold)
    · exact Nat.lt_succ_self _

theorem NoneLost.register (h : NoneLost s) (nodeId : String) (auth : RelayClientAuth) (terminal : Option RelayTerminal)
    (transportAllowed : Bool) : NoneLost (s.register nodeId auth terminal transportAllowed) := by
  have hget : ∀ nodeId', (s.register nodeId auth terminal transportAllowed).subscribers.get nodeId' =
      if nodeId = nodeId' then some ((s.subscribers.get nodeId).getD s.newSet) else s.subscribers.get nodeId' :=
    fun nodeId' => OrderedMap.get_set ..
  intro c sub hsub hopen
  rw [mem_subscribed, hget]
  rcases getElem?_register s nodeId auth terminal transportAllowed hsub with hold | ⟨rfl, rfl⟩
  · obtain ⟨set, hset, hmem⟩ := mem_subscribed.1 (h c sub hold hopen)
    refine ⟨set, ?_, (mem_members_register ..).2 (.inl hmem)⟩
    split
    · rename_i heq
      rw [heq, hset, getD_some]
    · exact hset
  · exact ⟨_, if_pos rfl, (mem_members_register ..).2 (.inr ⟨rfl, rfl⟩)⟩

theorem isOpen_markGone (s : ClientRelay) (c c' : ℕ) : (s.markGone c).isOpen c' = s.isOpen c' := by
  unfold isOpen markGone
  simp only [getElem?_modify]
  cases s.clients[c']? with
  | none => rfl
  | some sub => by_cases hc : c = c' <;> simp [hc]

theorem Logged.markGone (h : Logged s) (c : ℕ) : Logged (s.markGone c) := by
  have hrow : SentOpen s.log (.gone c) := trivial
  exact h.concat (fun _ _ _ h => by cases h) hrow rfl (fun c' h => isOpen_markGone s c c' ▸ h) (length_modify ..)

theorem Sockets.markGone (h : Sockets s) (c : ℕ) : Sockets (s.markGone c) := by
  refine ⟨h.logged.markGone c, fun set c' hmem => ?_⟩
  exact (length_modify ..).symm ▸ h.known set c' hmem

theorem getElem?_markGone {c' : ℕ} (h : (s.markGone c).clients[c']? = some sub) :
    ∃ sub₀, s.clients[c']? = some sub₀ ∧ sub.isOpen = sub₀.isOpen ∧ sub.nodeId = sub₀.nodeId := by
  unfold markGone at h
  simp only [getElem?_modify] at h
  cases hsub : s.clients[c']? with
  | none =>
    rw [hsub] at h
    cases h
  | some sub₀ =>
    rw [hsub] at h
    by_cases hc : c = c'
    · obtain rfl : { sub₀ with isGone := true } = sub := by simpa [hc] using h
      exact ⟨sub₀, rfl, rfl, rfl⟩
    · obtain rfl : sub₀ = sub := by simpa [hc] using h
      exact ⟨sub₀, rfl, rfl, rfl⟩

theorem NoneLost.markGone (h : NoneLost s) (c : ℕ) : NoneLost (s.markGone c) := by
  intro c' sub hsub hopen
  obtain ⟨sub₀, hsub₀, hopen₀, hnode⟩ := getElem?_markGone hsub
  rw [hnode]
  exact h c' sub₀ hsub₀ (hopen₀ ▸ hopen)

theorem noneLost_dropEmptySet_iff (h : NoneLost s) (nodeId : String) (set : ℕ) :
    NoneLost (s.dropEmptySet nodeId set) ↔ s.subscribers.get nodeId = some set ∨ s.members set ≠ [] ∨ NoOpen s nodeId := by
  by_cases hset : s.subscribers.get nodeId = some set
  · have hdrop : Loop (fun _ _ => False) s (s.dropEmptySet nodeId set) :=
      Loop.dropEmptySet s fun set' hset' => some.inj (hset'.symm.trans hset)
    exact ⟨fun _ => .inl hset, fun _ => h.calm hdrop.toCalm⟩
  by_cases hempty : s.members set = []
  · have hget : ∀ nodeId', (s.dropEmptySet nodeId set).subscribers.get nodeId' = if nodeId = nodeId' then none else s.subscribers.get nodeId' := by
      intro nodeId'
      unfold dropEmptySet
      rw [if_pos hempty]
      exact OrderedMap.get_delete ..
    have hclients : (s.dropEmptySet nodeId set).clients = s.clients ∧ (s.dropEmptySet nodeId set).members = s.members := by
      unfold dropEmptySet
      rw [if_pos hempty]
      exact ⟨rfl, rfl⟩
    constructor
    · intro hafter
      refine .inr (.inr fun c sub hsub hopen hnode => ?_)
      obtain ⟨set', hset', _⟩ := mem_subscribed.1 (hafter c sub (hclients.1 ▸ hsub) hopen)
      rw [hget, if_pos hnode.symm] at hset'
      cases hset'
    · rintro (hyes | hyes | hnone) c sub hsub hopen
      · exact absurd hyes hset
      · exact absurd hempty hyes
      · rw [hclients.1] at hsub
        rw [mem_subscribed, hget, if_neg (Ne.symm (hnone c sub hsub hopen)), hclients.2]
        exact mem_subscribed.1 (h c sub hsub hopen)
  · have hsame : s.dropEmptySet nodeId set = s := by
      unfold dropEmptySet
      rw [if_neg hempty]
    rw [hsame]
    exact ⟨fun _ => .inr (.inl hempty), fun _ => h⟩

/-- The close handler up to the presence. -/
def dropped (s : ClientRelay) (c : ℕ) (sub : RelayClient) : ClientRelay :=
  ((s.markGone c).leaveSet sub.set c).dropEmptySet sub.nodeId sub.set

theorem leaves_calm (s : ClientRelay) (hnot : s.isOpen c = false) (set : ℕ) : Calm (s.markGone c) ((s.markGone c).leaveSet set c) := by
  have hleave : Loop (fun _ _ => False) (s.markGone c) ((s.markGone c).leaveSet set c) := Loop.leaveSet _ set (by rw [isOpen_markGone, hnot])
  exact hleave.toCalm

theorem Sockets.dropped (h : Sockets s) (hnot : s.isOpen c = false) (sub : RelayClient) : Sockets (dropped s c sub) := by
  have hleft : Sockets ((s.markGone c).leaveSet sub.set c) := (h.markGone c).calm (leaves_calm s hnot sub.set)
  unfold Relay.dropped dropEmptySet
  split
  · exact ⟨⟨hleft.logged.closed, hleft.logged.along⟩, hleft.known⟩
  · exact hleft

theorem noOpen_markGone (s : ClientRelay) (c : ℕ) (nodeId : String) : NoOpen (s.markGone c) nodeId ↔ NoOpen s nodeId := by
  constructor
  · intro h c' sub hsub hopen
    have hsome : ((s.markGone c).clients[c']?).isSome = true := by simp [markGone, getElem?_modify, hsub]
    obtain ⟨sub', hsub'⟩ := isSome_iff_exists.1 hsome
    obtain ⟨sub₀, hsub₀, hopen₀, hnode⟩ := getElem?_markGone hsub'
    obtain rfl := some.inj (hsub.symm.trans hsub₀)
    exact hnode ▸ h c' sub' hsub' (hopen₀.trans hopen)
  · intro h c' sub hsub hopen
    obtain ⟨sub₀, hsub₀, hopen₀, hnode⟩ := getElem?_markGone hsub
    rw [hnode]
    exact h c' sub₀ hsub₀ (hopen₀ ▸ hopen)

theorem noneLost_dropped_iff (h : NoneLost s) (hnot : s.isOpen c = false) (sub : RelayClient) : NoneLost (dropped s c sub) ↔
      s.subscribers.get sub.nodeId = some sub.set ∨ (s.members sub.set).erase c ≠ [] ∨ NoOpen s sub.nodeId := by
  unfold dropped
  rw [noneLost_dropEmptySet_iff ((h.markGone c).calm (leaves_calm s hnot sub.set))]
  have hmembers : ((s.markGone c).leaveSet sub.set c).members sub.set = (s.members sub.set).erase c := Function.update_self ..
  have hopen : NoOpen ((s.markGone c).leaveSet sub.set c) sub.nodeId ↔ NoOpen s sub.nodeId := noOpen_markGone s c sub.nodeId
  rw [hmembers, hopen]
  rfl

theorem removePresence_calm (s : ClientRelay) (reads : RelayReads) (nodeId : String) (c : ℕ) :
    Calm (s.forgetRecipients c) ((s.forgetRecipients c).removePresence reads nodeId c) := by
  unfold removePresence
  split
  · refine Calm.trans ?_ (loop_broadcastPresence _ reads nodeId).toCalm
    exact .of_fields rfl rfl rfl fun h => ⟨h.closed, h.along⟩
  · exact .refl _

theorem closeHandler_calm (s : ClientRelay) (reads : RelayReads) (c : ℕ) (sub : RelayClient) :
    Calm (dropped s c sub) (s.closeHandler reads c sub) := by
  have hforget : Calm (dropped s c sub) ((dropped s c sub).forgetRecipients c) := .of_fields rfl rfl rfl fun h => ⟨h.closed, h.along⟩
  exact hforget.trans (removePresence_calm _ reads sub.nodeId c)

/-- Who is lost stays so: a node without a set has no presence to send. -/
theorem closeHandler_noneLost_iff (h : NoneLost s) (hnot : s.isOpen c = false) (reads : RelayReads) (sub : RelayClient) :
    NoneLost (s.closeHandler reads c sub) ↔ NoneLost (dropped s c sub) := by
  refine ⟨fun hafter => ?_, fun hbefore => hbefore.calm (closeHandler_calm s reads c sub)⟩
  rw [noneLost_dropped_iff h hnot]
  by_contra hlost
  push Not at hlost
  obtain ⟨hset, hempty, hsome⟩ := hlost
  unfold NoOpen at hsome
  push Not at hsome
  obtain ⟨c', sub', hsub', hopen', hnode'⟩ := hsome
  have hempty' : ((s.markGone c).leaveSet sub.set c).members sub.set = [] := (Function.update_self ..).trans hempty
  have hnone : (dropped s c sub).subscribers.get sub.nodeId = none := by
    unfold dropped dropEmptySet
    rw [if_pos hempty']
    exact (OrderedMap.get_delete ..).trans (if_pos rfl)
  have hquiet : ∀ t : ClientRelay, t.subscribers.get sub.nodeId = none → t.broadcastPresence reads sub.nodeId = t := by
    intro t ht
    unfold broadcastPresence broadcast subscribed
    rw [ht]
    rfl
  have hsame : (s.closeHandler reads c sub).clients = (dropped s c sub).clients ∧
      (s.closeHandler reads c sub).subscribers = (dropped s c sub).subscribers := by
    have hunfold : s.closeHandler reads c sub = ((dropped s c sub).forgetRecipients c).removePresence reads sub.nodeId c := rfl
    rw [hunfold]
    unfold removePresence
    split
    · rw [hquiet]
      · exact ⟨rfl, rfl⟩
      · exact hnone
    · exact ⟨rfl, rfl⟩
  have hthere : (dropped s c sub).clients = (s.markGone c).clients := by
    unfold dropped dropEmptySet
    rw [if_pos hempty']
    rfl
  have hnot' : NoOpen (s.closeHandler reads c sub) sub.nodeId := by
    intro c'' sub'' hsub'' hopen'' hnode''
    obtain ⟨set, hset', _⟩ := mem_subscribed.1 (hafter c'' sub'' hsub'' hopen'')
    rw [hsame.2, hnode'', hnone] at hset'
    cases hset'
  have hnot'' : NoOpen (s.markGone c) sub.nodeId := by
    intro c'' sub'' hsub''
    exact hnot' c'' sub'' (by rwa [hsame.1, hthere])
  exact (noOpen_markGone s c sub.nodeId).1 hnot'' c' sub' hsub' hopen' hnode'

theorem appendAudit_calm (s : ClientRelay) {row : RelayOutput} (hsent : SentOpen s.log row) (hrow : ∀ c code reason, row ≠ .closes c code reason) :
    Calm s (s.appendAudit row) := .row rfl rfl rfl rfl hsent hrow

theorem sendCommandReject_calm (s : ClientRelay) (n c : ℕ) (reason : String) (outcome : AuditOutcome) :
    Calm s (s.sendCommandReject n c reason outcome) := by
  have hrow : Calm s (s.appendAudit (.audit n outcome (some reason))) := appendAudit_calm s trivial nofun
  have hanswer : Loop (fun _ _ => True) (s.appendAudit (.audit n outcome (some reason))) (s.sendCommandReject n c reason outcome) :=
    Loop.send _ trivial
  exact hrow.trans hanswer.toCalm

theorem handleCommand_calm (s : ClientRelay) (reads : CommandReads) (command : RemoteCommand) (h : s.clients[c]? = some sub) :
    Calm s (s.handleCommand reads c sub command) := by
  have hissue : ∀ handed, Calm s (s.issueCommand reads c sub command handed) := fun _ => .of_fields rfl rfl rfl fun h => ⟨h.closed, h.along⟩
  have hforwarded : ∀ handed, Calm s ((s.issueCommand reads c sub command handed).appendAudit (.audit s.commands.length .forwarded none)) :=
    fun handed => (hissue handed).trans (appendAudit_calm _ trivial nofun)
  unfold handleCommand
  split
  · have hclose : Loop (fun _ _ => True) (s.issueCommand reads c sub command false) _ :=
      Loop.closeSocket _ 1008 "command node mismatch" (List.getElem?_eq_some_iff.1 h).1
    exact (hissue false).trans hclose.toCalm
  · exact (hissue false).trans (sendCommandReject_calm _ _ _ _ _)
  · exact (hforwarded false).trans (sendCommandReject_calm _ _ _ _ _)
  · refine (hforwarded true).trans (Calm.trans ?_ (appendAudit_calm _ trivial nofun))
    exact .of_fields rfl rfl rfl fun h => ⟨h.closed, h.along⟩

theorem sendResult_calm (s : ClientRelay) (reads : RelayReads) (n : ℕ) (nodeId commandId outcome : String) (reason : Option String) :
    Calm s (s.sendResult reads n nodeId commandId outcome reason) := by
  unfold sendResult
  split
  · rename_i recipient _
    have hforget : Calm s (s.forgetCommandRecipient nodeId commandId) := .of_fields rfl rfl rfl fun h => ⟨h.closed, h.along⟩
    have hturn : Loop (fun _ _ => True) (s.forgetCommandRecipient nodeId commandId) ((s.forgetCommandRecipient nodeId commandId).turn
        reads.now nodeId (fun s c => s.send c (.commandResult n outcome reason)) recipient) :=
      Loop.turn _ reads.now nodeId fun s _ => Loop.send s trivial
    exact hforget.trans hturn.toCalm
  · have howners : Loop (fun _ _ => True) s (s.broadcast reads.now nodeId (deliverResult n outcome reason)) := by
      refine Loop.broadcast _ _ _ fun s c _ => ?_
      unfold deliverResult
      split
      · exact Loop.send s trivial
      · exact Loop.refl s
    exact howners.toCalm

theorem routeCommandResult_calm (s : ClientRelay) (reads : RelayReads) (n : ℕ) (command : IssuedCommand) (outcome : String)
    (reason : Option String) : Calm s (s.routeCommandResult reads n command outcome reason) := by
  have hsent : SentOpen s.log (.resultAudit n outcome) := trivial
  have hanswer : Calm s (s.answer n outcome) := .row rfl rfl rfl rfl hsent nofun
  unfold routeCommandResult
  simp only
  split
  · exact hanswer
  · exact hanswer.trans (sendResult_calm _ reads n _ _ outcome reason)

/-- The steps besides those that add a client and that run a close handler. -/
theorem step_calm (h : Sockets s) (hstep : s.step event = some s')
    (hconnect : ∀ reads nodeId auth terminal allowed, event ≠ .connect reads nodeId auth terminal allowed)
    (hclose : ∀ reads c, event ≠ .closeEvent reads c) : Calm s s' := by
  cases event with
  | connect reads nodeId auth terminal allowed => exact absurd rfl (hconnect reads nodeId auth terminal allowed)
  | closeEvent reads c => exact absurd rfl (hclose reads c)
  | command reads c command =>
    obtain ⟨sub, hsub, _, rfl⟩ := command_eq hstep
    exact handleCommand_calm s reads command hsub
  | result reads n outcome reason =>
    obtain ⟨issued, _, _, rfl⟩ := result_eq hstep
    exact routeCommandResult_calm s reads n issued outcome reason
  | _ => exact (loop_step h.known rfl hstep).toCalm

theorem Sockets.step (h : Sockets s) (hstep : s.step event = some s') : Sockets s' := by
  cases event with
  | connect reads nodeId auth terminal allowed =>
    cases hstep
    exact (h.register nodeId auth terminal allowed).calm (connect_calm s reads nodeId auth terminal allowed)
  | closeEvent reads c =>
    obtain ⟨sub, hsub, hnot, _, rfl⟩ := closeEvent_eq hstep
    exact (h.dropped ((isOpen_of hsub).trans hnot) sub).calm (closeHandler_calm s reads c sub)
  | _ => exact h.calm (step_calm h hstep (fun _ _ _ _ _ heq => by cases heq) fun _ _ heq => by cases heq)

/-- A step keeps all clients, unless it runs a close handler that does not spare the others. -/
theorem NoneLost.step_iff (h : NoneLost s) (hsockets : Sockets s) (hstep : s.step event = some s') :
    NoneLost s' ↔ Spares s event := by
  cases event with
  | connect reads nodeId auth terminal allowed =>
    cases hstep
    exact iff_of_true ((h.register nodeId auth terminal allowed).calm (connect_calm s reads nodeId auth terminal allowed)) trivial
  | closeEvent reads c =>
    obtain ⟨sub, hsub, hnot, hgone, rfl⟩ := closeEvent_eq hstep
    have hnot' : s.isOpen c = false := (isOpen_of hsub).trans hnot
    rw [closeHandler_noneLost_iff h hnot', noneLost_dropped_iff h hnot']
    refine ⟨fun hspared sub' hsub' _ _ => ?_, fun hspared => hspared sub hsub hnot hgone⟩
    obtain rfl := some.inj (hsub.symm.trans hsub')
    exact hspared
  | _ => exact iff_of_true (h.calm (step_calm hsockets hstep (fun _ _ _ _ _ heq => by cases heq) fun _ _ heq => by cases heq)) trivial

def Sends (s s' : ClientRelay) (c : ℕ) (frame : RelayFrame) : Prop := ∃ news, s'.log = s.log ++ news ∧ .sent c frame ∈ news

theorem Sends.within {t t' : ClientRelay} (h : Sends t t' c frame) (hbefore : s.log <+: t.log) (hafter : t'.log <+: s'.log) :
    Sends s s' c frame := by
  obtain ⟨news, hlog, hmem⟩ := h
  obtain ⟨first, hfirst⟩ := hbefore
  obtain ⟨last, hlast⟩ := hafter
  refine ⟨first ++ news ++ last, ?_, by simp [hmem]⟩
  rw [← hlast, hlog, ← hfirst]
  simp

theorem Calm.client_open (h : Calm s s') (hsub : s'.clients[c]? = some sub) (hopen : sub.isOpen = true) : s.clients[c]? = some sub := by
  obtain ⟨keep, sub₀, hsub₀, rfl⟩ := h.client hsub
  cases sub₀
  simp_all

theorem send_sends (h : s.clients[c]? = some sub) (hopen : sub.isOpen = true) : Sends s (s.send c frame) c frame := by
  refine ⟨[.sent c frame], ?_, mem_singleton_self _⟩
  unfold send
  rw [if_pos ((isOpen_of h).trans hopen)]

/-- The client's grant stands, as the loops check it. -/
def RelayClientAuth.inTime (auth : RelayClientAuth) (now : ℤ) : Bool := auth.isOwner || auth.expiresAt.all fun expiresAt => now < expiresAt

/-- A loop over the subscribers of a node comes to every client that is open. -/
theorem broadcast_reaches {frames : ℕ → RelayFrame → Prop} {deliver : ClientRelay → ℕ → ClientRelay} {now : ℤ}
    {P : ClientRelay → Prop} (h : NoneLost s) (hdeliver : ∀ s, ∀ c < s.clients.length, Loop frames s (deliver s c)) (hs : P s)
    (hturn : ∀ t c', P t → P (t.turn now sub.nodeId deliver c'))
    (hreach : ∀ t, P t → t.clients[c]? = some sub → (deliver t c).clients[c]? = some sub → Sends t (deliver t c) c frame)
    (hsub : (s.broadcast now sub.nodeId deliver).clients[c]? = some sub) (hopen : sub.isOpen = true) (htime : sub.auth.inTime now = true) :
    Sends s (s.broadcast now sub.nodeId deliver) c frame := by
  have hloop : ∀ (cs : List ℕ) t, Loop frames t (cs.foldl (turn now sub.nodeId deliver) t) :=
    fun cs t => Loop.foldl fun t c' _ => Loop.turn t now sub.nodeId fun t => hdeliver t c'
  have hP : ∀ (cs : List ℕ) t, P t → P (cs.foldl (turn now sub.nodeId deliver) t) := by
    intro cs
    induction cs with
    | nil => exact fun _ ht => ht
    | cons c' cs ih => exact fun t ht => ih _ (hturn t c' ht)
  have hmem : c ∈ s.subscribed sub.nodeId := h c sub ((hloop _ s).toCalm.client_open hsub hopen) hopen
  obtain ⟨before, after, hsplit⟩ := append_of_mem hmem
  unfold broadcast at hsub ⊢
  rw [hsplit, foldl_append] at hsub ⊢
  generalize ht : before.foldl (turn now sub.nodeId deliver) s = t at hsub ⊢
  have hgrown : s.log <+: t.log := ht ▸ (hloop before s).grows
  have hturned : (t.turn now sub.nodeId deliver c).clients[c]? = some sub := (hloop after _).toCalm.client_open hsub hopen
  have hhere : t.clients[c]? = some sub := (Loop.turn t now sub.nodeId fun t => hdeliver t c).toCalm.client_open hturned hopen
  have hyes : t.turn now sub.nodeId deliver c = deliver t c := by
    unfold RelayClientAuth.inTime at htime
    unfold turn subscriptionStillAuthorized
    rw [hhere]
    simp only [htime, if_true]
  rw [hyes] at hturned
  have hsends := hreach t (ht ▸ hP before s hs) hhere hturned
  rw [← hyes] at hsends
  exact hsends.within hgrown (hloop after _).grows

def eventAllowed (reads : RelayReads) (nodeEpoch : Option String) (event : RemoteControlEvent) (auth : RelayClientAuth) : Bool :=
  auth.isOwner ||
    match event.payload with
    | .taskProjection invitationId projectionNodeId taskId =>
      projectionAuthStillAuthorized reads event.nodeId auth invitationId projectionNodeId taskId
    | .sessionProjection envelope => shareSessionProjectionAuthStillAuthorized reads nodeEpoch event.nodeId auth envelope
    | .other => false

/-- The client may see the frames of the terminal, and watches it. -/
def terminalAllowed (reads : RelayReads) (event : TerminalStreamEvent) (sub : RelayClient) : Bool :=
  authAllowsTerminalStream reads sub.auth && event.allowedFor sub.auth &&
    sub.terminal.any fun terminal => terminal.sessionId = event.sessionId && terminal.sessionEpoch = event.sessionEpoch

/-- The frame that an event has for a client that is authorised for it. -/
def frameFor (s : ClientRelay) (sub : RelayClient) : ClientRelayEvent → Option RelayFrame
  | .controlEvent reads event =>
    if event.nodeId = sub.nodeId ∧ sub.auth.inTime reads.now ∧ eventAllowed reads (s.nodeEpochs event.nodeId) event sub.auth then
      some (.control event)
    else none
  | .terminalEvent reads event terminalBlock _ =>
    if terminalBlock = none ∧ event.nodeId = sub.nodeId ∧ sub.auth.inTime reads.now ∧ terminalAllowed reads event sub then
      some (.terminal event.seq)
    else none
  | .connect reads nodeId _ _ _ => if nodeId = sub.nodeId ∧ sub.auth.inTime reads.now then some .presence else none
  | .closeEvent reads c =>
    (s.clients[c]?).bind fun left =>
      if left.nodeId = sub.nodeId ∧ (s.presence.any fun row => row.1 = left.nodeId) ∧ sub.auth.inTime reads.now then some .presence else none
  | _ => none

theorem presence_reaches (h : NoneLost s) (hsub : (s.broadcastPresence reads sub.nodeId).clients[c]? = some sub)
    (hopen : sub.isOpen = true) (htime : sub.auth.inTime reads.now = true) :
    Sends s (s.broadcastPresence reads sub.nodeId) c .presence := by
  have hsend : ∀ s : ClientRelay, ∀ c < s.clients.length, Loop (fun _ frame => frame = .presence) s (s.send c .presence) :=
    fun s _ _ => Loop.send s rfl
  exact broadcast_reaches (P := fun _ => True) h hsend trivial (fun _ _ _ => trivial) (fun _ _ hthere _ => send_sends hthere hopen)
    hsub hopen htime

theorem recordPresence_sends {c' : ℕ} {invitationId : Option String} (h : NoneLost s)
    (hsub : (s.recordPresence reads sub.nodeId c' invitationId).clients[c]? = some sub) (hopen : sub.isOpen = true)
    (htime : sub.auth.inTime reads.now = true) : Sends s (s.recordPresence reads sub.nodeId c' invitationId) c .presence := by
  have hlost : NoneLost { s with presence := s.presence ++ [(sub.nodeId, c', invitationId)] } := h
  exact presence_reaches hlost hsub hopen htime

@[simp] theorem nodeEpochs_send (s : ClientRelay) (c : ℕ) (frame : RelayFrame) : (s.send c frame).nodeEpochs = s.nodeEpochs := by
  unfold send
  split <;> rfl

theorem nodeEpochs_deliverEvent (reads : RelayReads) (event : RemoteControlEvent) (s : ClientRelay) (c : ℕ) :
    (deliverEvent reads event s c).nodeEpochs = s.nodeEpochs := by
  have hcan : (s.canSendEvent reads event c).2.nodeEpochs = s.nodeEpochs := by
    unfold canSendEvent
    repeat' split
    all_goals rfl
  unfold deliverEvent
  simp only
  split
  · rw [nodeEpochs_send, hcan]
  · exact hcan

theorem nodeEpochs_leaveNode (s : ClientRelay) (nodeId : String) (c : ℕ) : (s.leaveNode nodeId c).nodeEpochs = s.nodeEpochs := by
  unfold leaveNode dropEmptySet
  repeat' split
  all_goals rfl

theorem nodeEpochs_turn {deliver : ClientRelay → ℕ → ClientRelay} (hdeliver : ∀ s c, (deliver s c).nodeEpochs = s.nodeEpochs)
    (s : ClientRelay) (now : ℤ) (nodeId : String) (c : ℕ) : (s.turn now nodeId deliver c).nodeEpochs = s.nodeEpochs := by
  have hauth : (s.subscriptionStillAuthorized now nodeId c).2.nodeEpochs = s.nodeEpochs := by
    unfold subscriptionStillAuthorized
    split
    · rfl
    split
    · rfl
    · exact nodeEpochs_leaveNode _ _ _
  unfold turn
  simp only
  split
  · rw [hdeliver, hauth]
  · exact hauth

theorem nodeEpochs_closeWatchers (s : ClientRelay) (nodeId : String) (p : String → Bool) (reason : String) :
    (s.closeWatchers nodeId p reason).nodeEpochs = s.nodeEpochs := by
  have hevict : ∀ set code reason (cs : List ℕ) (s : ClientRelay), (cs.foldl (evict set code reason) s).nodeEpochs = s.nodeEpochs := by
    intro set code reason cs
    induction cs with
    | nil => exact fun _ => rfl
    | cons c cs ih => exact fun s => ih _
  unfold closeWatchers
  split
  · rfl
  · exact hevict _ _ _ _ _

theorem nodeEpochs_projectEvent (s : ClientRelay) (event : RemoteControlEvent) : (s.projectEvent event).nodeEpochs = s.nodeEpochs := by
  unfold projectEvent
  split
  · unfold replaceProjection
    simp only
    split
    · exact nodeEpochs_closeWatchers ..
    · rfl
  · rfl

theorem canSendEvent_of_allowed {event : RemoteControlEvent} (hsub : s.clients[c]? = some sub)
    (hallowed : eventAllowed reads (s.nodeEpochs event.nodeId) event sub.auth = true) : s.canSendEvent reads event c = (true, s) := by
  unfold eventAllowed at hallowed
  unfold canSendEvent
  rw [hsub]
  simp only
  split
  · rfl
  · rename_i hmember
    simp only [Bool.not_eq_true] at hmember
    rw [hmember, Bool.false_or] at hallowed
    cases hpayload : event.payload with
    | taskProjection invitationId projectionNodeId taskId =>
      rw [hpayload] at hallowed
      simp only [hallowed, if_true]
    | sessionProjection envelope =>
      rw [hpayload] at hallowed
      simp only [hallowed]
    | other =>
      rw [hpayload] at hallowed
      cases hallowed

theorem control_reaches {event : RemoteControlEvent} (hlost : NoneLost s) (hknown : Known s)
    (hnode : event.nodeId = sub.nodeId) (hsub : (s.routeControlEvent reads event).clients[c]? = some sub) (hopen : sub.isOpen = true)
    (htime : sub.auth.inTime reads.now = true) (hallowed : eventAllowed reads (s.nodeEpochs event.nodeId) event sub.auth = true) :
    Sends s (s.routeControlEvent reads event) c (.control event) := by
  have hremembered : Loop (fun _ frame => frame = .control event) s ((s.projectEvent event).rememberEvent event) := loop_remembered hknown event
  have hepochs : ((s.projectEvent event).rememberEvent event).nodeEpochs = s.nodeEpochs := nodeEpochs_projectEvent s event
  unfold routeControlEvent at hsub ⊢
  rw [hnode] at hsub ⊢
  refine Sends.within (broadcast_reaches (P := fun t => t.nodeEpochs = s.nodeEpochs) (hlost.calm hremembered.toCalm)
    (fun t c _ => loop_deliverEvent reads event t c) hepochs (fun t c' ht => ?_) (fun t ht hthere _ => ?_) hsub hopen htime)
    hremembered.grows (prefix_refl _)
  · rw [nodeEpochs_turn (nodeEpochs_deliverEvent reads event), ht]
  · rw [← ht] at hallowed
    unfold deliverEvent
    rw [canSendEvent_of_allowed hthere hallowed]
    exact send_sends hthere hopen

theorem terminal_reaches {event : TerminalStreamEvent} {terminalBlock : Option String} {congested : ℕ → Bool}
    (hlost : NoneLost s) (hnode : event.nodeId = sub.nodeId) (hblock : terminalBlock = none)
    (hsub : (s.routeTerminalStreamEvent reads event terminalBlock congested).clients[c]? = some sub) (hopen : sub.isOpen = true)
    (htime : sub.auth.inTime reads.now = true) (hallowed : terminalAllowed reads event sub = true) :
    Sends s (s.routeTerminalStreamEvent reads event terminalBlock congested) c (.terminal event.seq) := by
  subst hblock
  unfold routeTerminalStreamEvent at hsub ⊢
  rw [hnode] at hsub ⊢
  refine broadcast_reaches (P := fun _ => True) hlost (fun t c hc => loop_deliverStream reads event congested t c hc) trivial
    (fun _ _ _ => trivial) (fun t _ hthere hafter => ?_) hsub hopen htime
  unfold terminalAllowed at hallowed
  unfold deliverStream at hafter ⊢
  rw [hthere] at hafter ⊢
  simp only [any_some, hallowed, if_true] at hafter ⊢
  split
  · -- A socket that is closed for its buffer is not open behind the loop.
    rename_i hcongested
    rw [if_pos hcongested] at hafter
    have hclosed := isOpen_of hafter
    rw [Loop.isOpen_closeSocket, hopen] at hclosed
    simp at hclosed
  · exact send_sends hthere hopen

theorem step_sends (hlost : NoneLost s) (hsockets : Sockets s) (hspares : Spares s event)
    (hstep : s.step event = some s') (hsub : s'.clients[c]? = some sub) (hopen : sub.isOpen = true) (hframe : frameFor s sub event = some frame) :
    Sends s s' c frame := by
  cases event with
  | controlEvent reads event =>
    cases hstep
    simp only [frameFor, ite_none_right_eq_some, some.injEq] at hframe
    obtain ⟨⟨hnode, htime, hallowed⟩, rfl⟩ := hframe
    exact control_reaches hlost hsockets.known hnode hsub hopen htime hallowed
  | terminalEvent reads event terminalBlock congested =>
    cases hstep
    simp only [frameFor, ite_none_right_eq_some, some.injEq] at hframe
    obtain ⟨⟨hblock, hnode, htime, hallowed⟩, rfl⟩ := hframe
    exact terminal_reaches hlost hnode hblock hsub hopen htime hallowed
  | connect reads nodeId auth terminal allowed =>
    cases hstep
    simp only [frameFor, ite_none_right_eq_some, some.injEq] at hframe
    obtain ⟨⟨rfl, htime⟩, rfl⟩ := hframe
    have hreplayed := loop_replayTo (s.register sub.nodeId auth terminal allowed) reads sub.nodeId s.clients.length
    have hshare := loop_deliverShareState reads
      (((s.register sub.nodeId auth terminal allowed).replayTo reads sub.nodeId s.clients.length).recordPresence reads sub.nodeId
        s.clients.length auth.invitationId) s.clients.length
    have hthere := hshare.toCalm.client_open hsub hopen
    have hlost' : NoneLost ((s.register sub.nodeId auth terminal allowed).replayTo reads sub.nodeId s.clients.length) :=
      (hlost.register sub.nodeId auth terminal allowed).calm hreplayed.toCalm
    exact (recordPresence_sends hlost' hthere hopen htime).within hreplayed.grows hshare.grows
  | closeEvent reads c' =>
    obtain ⟨left, hleft, hnot, hgone, rfl⟩ := closeEvent_eq hstep
    simp only [frameFor, hleft, bind_some, ite_none_right_eq_some, some.injEq] at hframe
    obtain ⟨⟨hnode, hpresence, htime⟩, rfl⟩ := hframe
    have hlost' : NoneLost (dropped s c' left) := (noneLost_dropped_iff hlost ((isOpen_of hleft).trans hnot) left).2 (hspares left hleft hnot hgone)
    have hlog : (dropped s c' left).log = s.log ++ [.gone c'] ∧ (dropped s c' left).presence = s.presence := by
      unfold dropped dropEmptySet
      split <;> exact ⟨rfl, rfl⟩
    have hhandler : s.closeHandler reads c' left = ((dropped s c' left).forgetRecipients c').removePresence reads left.nodeId c' := rfl
    rw [hhandler] at hsub ⊢
    unfold removePresence at hsub ⊢
    have hany : (((dropped s c' left).forgetRecipients c').presence.any fun row => row.1 = left.nodeId) = true := by
      rw [← hpresence, ← hlog.2]
      rfl
    rw [if_pos hany, hnode] at hsub ⊢
    refine (presence_reaches ?_ hsub hopen htime).within ?_ (prefix_refl _)
    · exact hlost'
    · exact ⟨[.gone c'], hlog.1.symm⟩
  | _ => cases hframe

/-- Every open client is in the set of its node behind the step, and gets what the event has for it. -/
def ServesClients (s : ClientRelay) (event : ClientRelayEvent) : Prop :=
  ∀ s', s.step event = some s' → NoneLost s' ∧ ∀ (c : ℕ) (sub : RelayClient) (frame : RelayFrame),
    s'.clients[c]? = some sub → sub.isOpen = true → frameFor s sub event = some frame → Sends s s' c frame

theorem serves_iff (hlost : NoneLost s) (hsockets : Sockets s) (event : ClientRelayEvent) : ServesClients s event ↔ Spares s event := by
  constructor
  · intro hserves
    cases hstep : s.step event with
    | some s' => exact (hlost.step_iff hsockets hstep).1 (hserves s' hstep).1
    | none =>
      cases event with
      | closeEvent reads c =>
        intro sub hsub hnot hgone
        simp [step, hsub, hnot, hgone] at hstep
      | _ => trivial
  · intro hspares s' hstep
    refine ⟨(hlost.step_iff hsockets hstep).2 hspares, fun c sub frame hsub hopen hframe => ?_⟩
    exact step_sends hlost hsockets hspares hstep hsub hopen hframe

/-- Along a run every open client gets what is for it if and only if every close handler spares the other clients of its node. A socket
whose close was asked for gets no frame in any run. -/
theorem open_clients_served_iff (events : List ClientRelayEvent) :
    (StepsMeet step ServesClients .start events ↔ StepsMeet step Spares .start events) ∧
      ∀ s, exec step .start events = some s → Along SentOpen s.log := by
  constructor
  · have hstart : NoneLost .start ∧ Sockets .start := ⟨noneLost_start, Sockets.start⟩
    have hkept : ∀ s e s', NoneLost s ∧ Sockets s → Spares s e → step s e = some s' → NoneLost s' ∧ Sockets s' :=
      fun s e s' hinv hspares hstep => ⟨(hinv.1.step_iff hinv.2 hstep).2 hspares, Sockets.step hinv.2 hstep⟩
    exact StepsMeet.iff_of_invariant (fun s e hinv => serves_iff hinv.1 hinv.2 e) hkept hstart
  · intro s hrun
    have hsockets : Sockets s := exec_preserves (fun s e s' h hstep => Sockets.step h hstep) Sockets.start hrun
    exact hsockets.logged.along

def memberOf (invitationId : String) : RelayClientAuth where
  isOwner := false
  actorId := ""
  grants := [.view]
  grantId := invitationId
  memberId := none
  deviceId := none
  invitationId := some invitationId
  expiresAt := none

def quietReads : RelayReads where
  now := 0
  invitations := []
  nodeKnown := false

/-- The first viewer's invitation is revoked, a second one connects, and the first one's close event comes. -/
def lateClose : List ClientRelayEvent := [
  .connect quietReads "node" (memberOf "first") none false,
  .revoke "node" "first",
  .connect quietReads "node" (memberOf "second") none false,
  .closeEvent quietReads 0]

/-- The close handler of the first takes the second one's set from the map. -/
theorem late_close_loses_viewer : ¬ StepsMeet step ServesClients .start lateClose := by
  have hlost : ((exec step .start lateClose).map fun s =>
      (s.clients[1]?.map fun sub => (sub.isOpen, sub.nodeId), s.subscribed "node")) = some (some (true, "node"), []) := by decide
  obtain ⟨s, hrun, heq⟩ := map_eq_some_iff.1 hlost
  obtain ⟨hsome, hnone⟩ := Prod.mk.inj heq
  obtain ⟨sub, hsub, hpair⟩ := map_eq_some_iff.1 hsome
  obtain ⟨hopen, hnode⟩ := Prod.mk.inj hpair
  intro hserves
  have hkept : NoneLost s := exec_invariant (fun s e s' _ hserves hstep => (hserves s' hstep).1) noneLost_start hserves hrun
  have hmem := hkept 1 sub hsub hopen
  rw [hnode, hnone] at hmem
  cases hmem

end Kookr.Relay
