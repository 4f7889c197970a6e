import Kookr.Spec.Relay.ClientSockets

/-! What the loops over the subscribers of a node do: they send frames and close sockets, and who leaves a set is not open. -/

namespace Kookr.Relay

open Kookr.Lib ClientRelay ClientRelay List Option

variable {s s' : ClientRelay} {c : ℕ} {sub : RelayClient} (reads : RelayReads)

def CloseAsked (log : List RelayOutput) (c : ℕ) : Prop := ∃ code reason, .closes c code reason ∈ log

/-- A frame goes to a client whose close was not asked for before. -/
def SentOpen (before : List RelayOutput) : RelayOutput → Prop
  | .sent c _ => ¬ CloseAsked before c
  | _ => True

/-- Closed sockets are those that are not open, and get no frame. -/
structure Logged (s : ClientRelay) : Prop where
  closed : ∀ c, CloseAsked s.log c → s.isOpen c = false ∧ c < s.clients.length
  along : Along SentOpen s.log

theorem CloseAsked.of_concat {log : List RelayOutput} {x : RelayOutput} (h : CloseAsked (log ++ [x]) c) :
    CloseAsked log c ∨ ∃ code reason, x = .closes c code reason := by
  obtain ⟨code, reason, hmem⟩ := h
  rcases mem_append.1 hmem with hmem | hmem
  · exact .inl ⟨code, reason, hmem⟩
  · exact .inr ⟨code, reason, (mem_singleton.1 hmem).symm⟩

theorem Logged.concat (h : Logged s) {x : RelayOutput} (hx : ∀ c code reason, x ≠ .closes c code reason) (hsent : SentOpen s.log x)
    (hlog : s'.log = s.log ++ [x]) (hopen : ∀ c, s'.isOpen c = true → s.isOpen c = true) (hlength : s'.clients.length = s.clients.length) :
    Logged s' := by
  refine ⟨fun c hclosed => ?_, by rw [hlog]; exact h.along.concat hsent⟩
  rw [hlog] at hclosed
  rcases hclosed.of_concat with hclosed | ⟨code, reason, heq⟩
  · obtain ⟨hnot, hlt⟩ := h.closed c hclosed
    refine ⟨?_, hlength ▸ hlt⟩
    by_contra hyes
    rw [hopen c (by simpa using hyes)] at hnot
    cases hnot
  · exact absurd heq (hx c code reason)

/-- Sockets are at most closed. Who is taken from a set is not open, and a set that is taken from the map is empty. -/
structure Calm (s s' : ClientRelay) : Prop where
  clients : ∀ c : ℕ, ∃ keep : Bool, s'.clients[c]? = (s.clients[c]?).map fun (sub : RelayClient) => { sub with isOpen := sub.isOpen && keep }
  members : ∀ set, (s'.members set).Sublist (s.members set)
  stays : ∀ set, ∀ c ∈ s.members set, s'.isOpen c = true → c ∈ s'.members set
  subscribers : ∀ nodeId, s'.subscribers.get nodeId = s.subscribers.get nodeId ∨
    s'.subscribers.get nodeId = none ∧ ∃ set, s.subscribers.get nodeId = some set ∧ s'.members set = []
  logged : Logged s → Logged s'

/-- Frames of a kind go out and sockets are closed. -/
structure Loop (frames : ℕ → RelayFrame → Prop) (s s' : ClientRelay) : Prop extends Calm s s' where
  log : ∃ news, s'.log = s.log ++ news ∧ ∀ x ∈ news, (∃ c frame, x = .sent c frame ∧ frames c frame) ∨ ∃ c code reason, x = .closes c code reason
  recipients : s'.commandRecipients = s.commandRecipients
  commands : s'.commands = s.commands

namespace Calm

theorem refl (s : ClientRelay) : Calm s s where
  clients c := ⟨true, by simp⟩
  members set := List.Sublist.refl _
  stays _ _ h _ := h
  subscribers _ := .inl rfl
  logged := id

theorem isOpen (h : Calm s s') (hopen : s'.isOpen c = true) : s.isOpen c = true := by
  obtain ⟨keep, hc⟩ := h.clients c
  unfold ClientRelay.isOpen at hopen ⊢
  rw [hc] at hopen
  cases hsub : s.clients[c]? with
  | none =>
    rw [hsub] at hopen
    cases hopen
  | some sub =>
    rw [hsub] at hopen
    simp at hopen
    simp [hopen.1]

theorem trans {s'' : ClientRelay} (h : Calm s s') (h' : Calm s' s'') : Calm s s'' where
  clients c := by
    obtain ⟨keep, hc⟩ := h.clients c
    obtain ⟨keep', hc'⟩ := h'.clients c
    refine ⟨keep && keep', ?_⟩
    rw [hc', hc, Option.map_map]
    congr 1
    funext sub
    simp [Bool.and_assoc]
  members set := (h'.members set).trans (h.members set)
  stays set c hc hopen := h'.stays set c (h.stays set c hc (h'.isOpen hopen)) hopen
  subscribers nodeId := by
    rcases h'.subscribers nodeId with heq | ⟨hnone, set, hset, hempty⟩
    · rcases h.subscribers nodeId with heq' | ⟨hnone', set, hset, hempty⟩
      · exact .inl (heq.trans heq')
      · exact .inr ⟨heq.trans hnone', set, hset, sublist_nil.1 (hempty ▸ h'.members set)⟩
    · rcases h.subscribers nodeId with heq' | ⟨hnone', _⟩
      · exact .inr ⟨hnone, set, heq' ▸ hset, hempty⟩
      · rw [hnone'] at hset
        cases hset
  logged := h'.logged ∘ h.logged

theorem length (h : Calm s s') : s'.clients.length = s.clients.length := by
  refine le_antisymm ?_ ?_
  · by_contra hlt
    obtain ⟨keep, hc⟩ := h.clients s.clients.length
    rw [getElem?_eq_none le_rfl, map_none, getElem?_eq_none_iff] at hc
    exact hlt hc
  · by_contra hlt
    obtain ⟨keep, hc⟩ := h.clients s'.clients.length
    rw [getElem?_eq_none le_rfl, eq_comm, map_eq_none_iff, getElem?_eq_none_iff] at hc
    exact hlt hc

theorem of_fields (hclients : s'.clients = s.clients) (hmembers : s'.members = s.members) (hsubscribers : s'.subscribers = s.subscribers)
    (hlogged : Logged s → Logged s') : Calm s s' where
  clients c := ⟨true, by simp [hclients]⟩
  members set := by rw [hmembers]
  stays set c hc _ := by rwa [hmembers]
  subscribers nodeId := .inl (by rw [hsubscribers])
  logged := hlogged

theorem row {x : RelayOutput} (hclients : s'.clients = s.clients) (hmembers : s'.members = s.members)
    (hsubscribers : s'.subscribers = s.subscribers) (hlog : s'.log = s.log ++ [x]) (hsent : SentOpen s.log x)
    (hx : ∀ c code reason, x ≠ .closes c code reason) : Calm s s' :=
  of_fields hclients hmembers hsubscribers fun hlogged =>
    hlogged.concat hx hsent hlog (fun c => by unfold ClientRelay.isOpen; rw [hclients]; exact id) (by rw [hclients])

end Calm

namespace Loop

variable {frames : ℕ → RelayFrame → Prop} {deliver : ClientRelay → ℕ → ClientRelay}

theorem refl (s : ClientRelay) : Loop frames s s := ⟨.refl s, ⟨[], by simp, fun _ h => nomatch h⟩, rfl, rfl⟩

theorem trans {s'' : ClientRelay} (h : Loop frames s s') (h' : Loop frames s' s'') : Loop frames s s'' := by
  refine ⟨h.toCalm.trans h'.toCalm, ?_, h'.recipients.trans h.recipients, h'.commands.trans h.commands⟩
  obtain ⟨news, hlog, hnews⟩ := h.log
  obtain ⟨news', hlog', hnews'⟩ := h'.log
  refine ⟨news ++ news', by rw [hlog', hlog, append_assoc], fun x hx => ?_⟩
  exact (mem_append.1 hx).elim (hnews x) (hnews' x)

theorem of_fields (hclients : s'.clients = s.clients) (hmembers : s'.members = s.members) (hsubscribers : s'.subscribers = s.subscribers)
    (hlog : s'.log = s.log) (hrecipients : s'.commandRecipients = s.commandRecipients) (hcommands : s'.commands = s.commands) :
    Loop frames s s' := by
  refine ⟨.of_fields hclients hmembers hsubscribers fun h => ?_, ⟨[], by simp [hlog], fun _ h => nomatch h⟩, hrecipients, hcommands⟩
  refine ⟨fun c hc => ?_, by rw [hlog]; exact h.along⟩
  unfold isOpen
  rw [hclients]
  rw [hlog] at hc
  exact h.closed c hc

theorem foldl_calm {α : Type*} {f : ClientRelay → α → ClientRelay} {xs : List α} (h : ∀ t, Calm s t → ∀ x ∈ xs, Loop frames t (f t x)) :
    Loop frames s (xs.foldl f s) := by
  induction xs generalizing s with
  | nil => exact refl s
  | cons x xs ih =>
    have hfirst := h s (.refl s) x mem_cons_self
    exact hfirst.trans (ih fun t ht y hy => h t (hfirst.toCalm.trans ht) y (mem_cons_of_mem _ hy))

theorem foldl {α : Type*} {f : ClientRelay → α → ClientRelay} {xs : List α} (h : ∀ s, ∀ x ∈ xs, Loop frames s (f s x)) :
    Loop frames s (xs.foldl f s) := foldl_calm fun t _ => h t

theorem mono {frames' : ℕ → RelayFrame → Prop} (h : Loop frames s s') (himp : ∀ c frame, frames c frame → frames' c frame) : Loop frames' s s' := by
  refine ⟨h.toCalm, ?_, h.recipients, h.commands⟩
  obtain ⟨news, hlog, hnews⟩ := h.log
  refine ⟨news, hlog, fun x hx => ?_⟩
  rcases hnews x hx with ⟨c, frame, heq, hframe⟩ | hclose
  · exact .inl ⟨c, frame, heq, himp c frame hframe⟩
  · exact .inr hclose

theorem grows (h : Loop frames s s') : s.log <+: s'.log := by
  obtain ⟨news, hlog, _⟩ := h.log
  exact ⟨news, hlog.symm⟩

theorem send (s : ClientRelay) {frame : RelayFrame} (hframe : frames c frame) : Loop frames s (s.send c frame) := by
  unfold ClientRelay.send
  split
  · rename_i hopen
    refine ⟨.of_fields rfl rfl rfl fun hlogged => ?_, ⟨[.sent c frame], rfl, fun x hx => .inl ⟨c, frame, mem_singleton.1 hx, hframe⟩⟩, rfl, rfl⟩
    have hsent : SentOpen s.log (.sent c frame) := by
      intro hclosed
      rw [(hlogged.closed c hclosed).1] at hopen
      cases hopen
    exact hlogged.concat (fun _ _ _ h => by cases h) hsent rfl (fun _ h => h) rfl
  · exact refl s

theorem isOpen_closeSocket (s : ClientRelay) (c code : ℕ) (reason : String) (c' : ℕ) :
    (s.closeSocket c code reason).isOpen c' = (s.isOpen c' && !decide (c = c')) := by
  unfold isOpen closeSocket
  simp only [getElem?_modify]
  cases s.clients[c']? with
  | none => rfl
  | some sub =>
    by_cases hc : c = c'
    · simp [hc]
    · simp [hc]

theorem closeSocket (s : ClientRelay) (code : ℕ) (reason : String) (h : c < s.clients.length) : Loop frames s (s.closeSocket c code reason) := by
  refine ⟨⟨fun c' => ⟨!decide (c = c'), ?_⟩, fun set => List.Sublist.refl _, fun _ _ h _ => h, fun _ => .inl rfl,
    fun hlogged => ⟨fun c' hclosed => ?_, ?_⟩⟩, ⟨[.closes c code reason], rfl, fun x hx => .inr ⟨c, code, reason, mem_singleton.1 hx⟩⟩, rfl, rfl⟩
  · unfold ClientRelay.closeSocket
    simp only [getElem?_modify]
    cases s.clients[c']? with
    | none => rfl
    | some sub =>
      by_cases hc : c = c'
      · simp [hc]
      · simp [hc]
  · have hlength : (s.closeSocket c code reason).clients.length = s.clients.length := length_modify ..
    rw [isOpen_closeSocket, hlength]
    rcases CloseAsked.of_concat hclosed with hclosed | ⟨_, _, heq⟩
    · obtain ⟨hnot, hlt⟩ := hlogged.closed c' hclosed
      exact ⟨by rw [hnot]; rfl, hlt⟩
    · cases heq
      exact ⟨by simp, h⟩
  · exact hlogged.along.concat trivial

theorem leaveSet (s : ClientRelay) (set : ℕ) (h : s.isOpen c = false) : Loop frames s (s.leaveSet set c) := by
  have hmembers : ∀ set', (s.leaveSet set c).members set' = if set' = set then (s.members set).erase c else s.members set' := by
    intro set'
    unfold ClientRelay.leaveSet
    simp only [Function.update_apply]
  refine ⟨⟨fun c => ⟨true, by simp [ClientRelay.leaveSet]⟩, fun set' => ?_, fun set' c' hc' hopen => ?_, fun _ => .inl rfl,
    fun hlogged => ⟨hlogged.closed, hlogged.along⟩⟩, ⟨[], by simp [ClientRelay.leaveSet], fun _ h => nomatch h⟩, rfl, rfl⟩
  · rw [hmembers]
    split
    · rename_i heq
      rw [heq]
      exact erase_sublist
    · exact List.Sublist.refl _
  · rw [hmembers]
    split
    · rename_i heq
      rw [heq] at hc'
      refine (mem_erase_of_ne fun hsame => ?_).2 hc'
      have hopen' : s.isOpen c' = true := hopen
      rw [hsame, h] at hopen'
      cases hopen'
    · exact hc'

theorem dropEmptySet (s : ClientRelay) {nodeId : String} {set : ℕ} (h : ∀ set', s.subscribers.get nodeId = some set' → set' = set) :
    Loop frames s (s.dropEmptySet nodeId set) := by
  unfold ClientRelay.dropEmptySet
  split
  · rename_i hempty
    refine ⟨⟨fun c => ⟨true, by simp⟩, fun set => List.Sublist.refl _, fun _ _ h _ => h, fun nodeId' => ?_,
      fun hlogged => ⟨hlogged.closed, hlogged.along⟩⟩, ⟨[], by simp, fun _ h => nomatch h⟩, rfl, rfl⟩
    simp only [OrderedMap.get_delete]
    split
    · rename_i heq
      subst heq
      cases hset : s.subscribers.get nodeId with
      | none => exact .inl rfl
      | some set' => exact .inr ⟨rfl, set', rfl, h set' hset ▸ hempty⟩
    · exact .inl rfl
  · exact refl s

theorem leaveNode (s : ClientRelay) (nodeId : String) (h : s.isOpen c = false) : Loop frames s (s.leaveNode nodeId c) := by
  unfold ClientRelay.leaveNode
  split
  · rename_i set hset
    exact (leaveSet s set h).trans (dropEmptySet _ fun set' hset' => some.inj (hset'.symm.trans hset))
  · exact refl s

theorem evict (s : ClientRelay) (set code : ℕ) (reason : String) (h : c < s.clients.length) : Loop frames s (evict set code reason s c) := by
  refine (closeSocket s code reason h).trans (leaveSet _ set ?_)
  rw [isOpen_closeSocket]
  simp

/-- The clients of a list of numbers that are known are taken from a set one after the other. -/
theorem evictAll (s : ClientRelay) (set code : ℕ) (reason : String) {cs : List ℕ} (h : ∀ c ∈ cs, c < s.clients.length) :
    Loop frames s (cs.foldl (ClientRelay.evict set code reason) s) := by
  induction cs generalizing s with
  | nil => exact refl s
  | cons c cs ih =>
    have hfirst : Loop frames s (ClientRelay.evict set code reason s c) := evict s set code reason (h c mem_cons_self)
    refine hfirst.trans (ih _ fun c' hc' => ?_)
    rw [hfirst.toCalm.length]
    exact h c' (mem_cons_of_mem _ hc')

theorem subscriptionStillAuthorized (s : ClientRelay) (now : ℤ) (nodeId : String) (c : ℕ) :
    Loop frames s (s.subscriptionStillAuthorized now nodeId c).2 := by
  unfold ClientRelay.subscriptionStillAuthorized
  cases hsub : s.clients[c]? with
  | none => exact refl s
  | some sub =>
    simp only
    split
    · exact refl s
    · have hlt : c < s.clients.length := (List.getElem?_eq_some_iff.1 hsub).1
      have hclosed : Loop frames s (s.closeSocket c 4002 "grant expired") := closeSocket s _ _ hlt
      have hnot : (s.closeSocket c 4002 "grant expired").isOpen c = false := by
        rw [isOpen_closeSocket]
        simp
      exact (hclosed.trans (leaveNode _ nodeId hnot)).trans (of_fields rfl rfl rfl rfl rfl rfl)

theorem turn_calm (s : ClientRelay) (now : ℤ) (nodeId : String)
    (hdeliver : ∀ t, Calm s t → c < t.clients.length → Loop frames t (deliver t c)) : Loop frames s (s.turn now nodeId deliver c) := by
  have hauth : Loop frames s (s.subscriptionStillAuthorized now nodeId c).2 := subscriptionStillAuthorized s now nodeId c
  unfold ClientRelay.turn
  simp only
  split
  · rename_i hyes
    refine hauth.trans (hdeliver _ hauth.toCalm ?_)
    rw [hauth.toCalm.length]
    unfold ClientRelay.subscriptionStillAuthorized at hyes
    cases hsub : s.clients[c]? with
    | none =>
      rw [hsub] at hyes
      cases hyes
    | some sub => exact (List.getElem?_eq_some_iff.1 hsub).1
  · exact hauth

theorem turn (s : ClientRelay) (now : ℤ) (nodeId : String)
    (hdeliver : ∀ s, c < s.clients.length → Loop frames s (deliver s c)) : Loop frames s (s.turn now nodeId deliver c) :=
  turn_calm s now nodeId fun t _ => hdeliver t

theorem broadcast_calm (s : ClientRelay) (now : ℤ) (nodeId : String)
    (hdeliver : ∀ t, Calm s t → ∀ c < t.clients.length, Loop frames t (deliver t c)) : Loop frames s (s.broadcast now nodeId deliver) :=
  foldl_calm fun t ht c _ => turn_calm t now nodeId fun t' ht' => hdeliver t' (ht.trans ht') c

theorem broadcast (s : ClientRelay) (now : ℤ) (nodeId : String)
    (hdeliver : ∀ s, ∀ c < s.clients.length, Loop frames s (deliver s c)) : Loop frames s (s.broadcast now nodeId deliver) :=
  broadcast_calm s now nodeId fun t _ => hdeliver t

end Loop

theorem isOpen_of (h : s.clients[c]? = some sub) : s.isOpen c = sub.isOpen := by
  unfold isOpen
  rw [h]
  rfl

theorem Calm.client (h : Calm s s') (hsub : s'.clients[c]? = some sub) :
    ∃ keep sub₀, s.clients[c]? = some sub₀ ∧ sub = { sub₀ with isOpen := sub₀.isOpen && keep } := by
  obtain ⟨keep, hc⟩ := h.clients c
  rw [hc] at hsub
  obtain ⟨sub₀, hsub₀, rfl⟩ := map_eq_some_iff.1 hsub
  exact ⟨keep, sub₀, hsub₀, rfl⟩

theorem closeEvent_eq {reads : RelayReads} (h : s.step (.closeEvent reads c) = some s') :
    ∃ sub, s.clients[c]? = some sub ∧ sub.isOpen = false ∧ sub.isGone = false ∧ s' = s.closeHandler reads c sub := by
  simp only [step] at h
  split at h
  · rename_i sub hsub
    split at h
    · cases h
    · rename_i hnot
      simp only [Bool.or_eq_true, not_or, Bool.not_eq_true] at hnot
      exact ⟨sub, hsub, hnot.1, hnot.2, (some.inj h).symm⟩
  · cases h

theorem command_eq {reads : CommandReads} {command : RemoteCommand} (h : s.step (.command reads c command) = some s') :
    ∃ sub, s.clients[c]? = some sub ∧ sub.isGone = false ∧ s' = s.handleCommand reads c sub command := by
  simp only [step] at h
  split at h
  · rename_i sub hsub
    split at h
    · cases h
    · rename_i hgone
      exact ⟨sub, hsub, by simpa using hgone, (some.inj h).symm⟩
  · cases h

theorem result_eq {reads : RelayReads} {n : ℕ} {outcome : String} {reason : Option String} (h : s.step (.result reads n outcome reason) = some s') :
    ∃ issued, s.commands[n]? = some issued ∧ (issued.handed && issued.echoed && !issued.answered) = true ∧
      s' = s.routeCommandResult reads n issued outcome reason := by
  simp only [step] at h
  split at h
  · rename_i issued hissued
    split at h
    · rename_i hout
      exact ⟨issued, hissued, hout, (some.inj h).symm⟩
    · cases h
  · cases h

theorem loop_broadcastPresence (s : ClientRelay) (reads : RelayReads) (nodeId : String) :
    Loop (fun _ frame => frame = .presence) s (s.broadcastPresence reads nodeId) :=
  Loop.broadcast s _ _ fun s _ _ => Loop.send s rfl

theorem loop_deliverShareState (s : ClientRelay) (c : ℕ) :
    Loop (fun _ frame => frame = .memberShareState) s (deliverShareState reads s c) := by
  unfold deliverShareState
  split
  · exact Loop.send s rfl
  · exact Loop.refl s

theorem loop_deliverEvent (event : RemoteControlEvent) (s : ClientRelay) (c : ℕ) :
    Loop (fun _ frame => frame = .control event) s (deliverEvent reads event s c) := by
  have hcan : Loop (fun _ frame => frame = .control event) s (s.canSendEvent reads event c).2 := by
    unfold canSendEvent
    cases hsub : s.clients[c]? with
    | none => exact Loop.refl s
    | some sub =>
      have hlt : c < s.clients.length := (List.getElem?_eq_some_iff.1 hsub).1
      simp only
      split
      · exact Loop.refl s
      split
      · split
        · exact Loop.refl s
        split
        · exact Loop.refl s
        split
        · exact Loop.closeSocket s _ _ hlt
        split
        · exact Loop.closeSocket s _ _ hlt
        · exact Loop.refl s
      · exact Loop.refl s
      · exact Loop.refl s
  unfold deliverEvent
  simp only
  split
  · exact hcan.trans (Loop.send _ rfl)
  · exact hcan

theorem loop_deliverStream (event : TerminalStreamEvent) (congested : ℕ → Bool) (s : ClientRelay) (c : ℕ)
    (h : c < s.clients.length) : Loop (fun _ frame => frame = .terminal event.seq) s (deliverStream reads event congested s c) := by
  unfold deliverStream
  split
  · split
    · exact Loop.closeSocket s _ _ h
    · exact Loop.send s rfl
  · exact Loop.refl s

theorem loop_replayTo (s : ClientRelay) (reads : RelayReads) (nodeId : String) (c : ℕ) :
    Loop (fun _ frame => ∃ event, frame = .control event) s (s.replayTo reads nodeId c) :=
  Loop.foldl fun s event _ =>
    (Loop.turn s reads.now nodeId fun s _ => loop_deliverEvent reads event s c).mono fun _ _ hframe => ⟨event, hframe⟩

/-- Who is in a set is a client. -/
def Known (s : ClientRelay) : Prop := ∀ set, ∀ c ∈ s.members set, c < s.clients.length

section

variable (h : Known s)
include h

theorem Known.calm (hcalm : Calm s s') : Known s' := by
  intro set c hc
  rw [hcalm.length]
  exact h set c ((hcalm.members set).subset hc)

variable {frames : ℕ → RelayFrame → Prop}

theorem loop_closeWatchers (nodeId : String) (p : String → Bool) (reason : String) :
    Loop frames s (s.closeWatchers nodeId p reason) := by
  unfold closeWatchers
  split
  · exact Loop.refl s
  · exact Loop.evictAll s _ _ _ fun c hc => h _ c (mem_filter.1 hc).1

theorem loop_replaceProjection (nodeId : String) (envelope : ShareSessionProjection) :
    Loop frames s (s.replaceProjection nodeId envelope) := by
  unfold replaceProjection
  simp only
  have hset : Loop frames s { s with
      shareSessionProjections := Function.update s.shareSessionProjections (nodeId, envelope.projectionId) (some envelope) } :=
    Loop.of_fields rfl rfl rfl rfl rfl rfl
  split
  · exact hset.trans (loop_closeWatchers (h.calm hset.toCalm) _ _ _)
  · exact hset

theorem loop_remembered (event : RemoteControlEvent) :
    Loop frames s ((s.projectEvent event).rememberEvent event) := by
  have hproject : Loop frames s (s.projectEvent event) := by
    unfold projectEvent
    split
    · exact loop_replaceProjection h _ _
    · exact Loop.refl s
  exact hproject.trans (Loop.of_fields rfl rfl rfl rfl rfl rfl)

theorem loop_routeControlEvent (reads : RelayReads) (event : RemoteControlEvent) :
    Loop (fun _ frame => frame = .control event) s (s.routeControlEvent reads event) :=
  (loop_remembered h event).trans (Loop.broadcast _ _ _ fun s c _ => loop_deliverEvent reads event s c)

theorem loop_acceptNode (reads : RelayReads) (nodeId nodeEpoch : String) :
    Loop (fun _ frame => frame = .memberShareState) s (s.acceptNode reads nodeId nodeEpoch) := by
  have hgreet : Loop (fun _ frame => frame = .memberShareState) s (s.greetNode nodeId nodeEpoch) := Loop.of_fields rfl rfl rfl rfl rfl rfl
  exact (hgreet.trans (loop_closeWatchers (h.calm hgreet.toCalm) _ _ _)).trans
    (Loop.broadcast _ _ _ fun s c _ => loop_deliverShareState reads s c)

omit h in
theorem evictAll_subscribers (set code : ℕ) (reason : String) (cs : List ℕ) (s : ClientRelay) :
    (cs.foldl (evict set code reason) s).subscribers = s.subscribers := by
  induction cs generalizing s with
  | nil => rfl
  | cons c cs ih => exact ih _

/-- The clients of a set that satisfy a condition are closed, and the set is dropped if it is empty. -/
theorem loop_closeSome {nodeId : String} {set : ℕ}
    (hset : ∀ set', s.subscribers.get nodeId = some set' → set' = set) (p : ℕ → Bool) (code : ℕ) (reason : String) :
    Loop frames s ((((s.members set).filter p).foldl (evict set code reason) s).dropEmptySet nodeId set) := by
  have hevict : Loop frames s (((s.members set).filter p).foldl (evict set code reason) s) :=
    Loop.evictAll s _ _ _ fun c hc => h _ c (mem_filter.1 hc).1
  refine hevict.trans (Loop.dropEmptySet _ fun set' hset' => ?_)
  rw [evictAll_subscribers] at hset'
  exact hset set' hset'

theorem loop_closeRevokedSubscribers (nodeId invitationId : String) :
    Loop frames s (s.closeRevokedSubscribers nodeId invitationId) := by
  unfold closeRevokedSubscribers
  split
  · exact Loop.refl s
  · rename_i set hset
    exact loop_closeSome h (fun set' hset' => some.inj (hset'.symm.trans hset)) _ _ _

theorem loop_closeTenant (tenantNode : String → Bool) (reason : String) :
    Loop frames s (s.closeTenantTerminalSubscribers tenantNode reason) := by
  unfold closeTenantTerminalSubscribers
  have hentries : ∀ entry ∈ s.subscribers.entries, ∀ set', s.subscribers.get entry.1 = some set' → set' = entry.2 := by
    intro entry hmem set' hset'
    rw [(OrderedMap.get_eq_some_iff _ entry.1 entry.2).2 hmem] at hset'
    exact (some.inj hset').symm
  generalize s.subscribers.entries = entries at hentries
  induction entries generalizing s with
  | nil => exact Loop.refl s
  | cons entry entries ih =>
    have hfirst : Loop frames s (closeNodeTerminals tenantNode reason s entry) := by
      unfold closeNodeTerminals
      split
      · exact loop_closeSome h (hentries entry mem_cons_self) _ _ _
      · exact Loop.refl s
    refine hfirst.trans (ih (h.calm hfirst.toCalm) fun entry' hmem set' hset' => ?_)
    rcases hfirst.subscribers entry'.1 with heq | ⟨hnone, _⟩
    · exact hentries entry' (mem_cons_of_mem _ hmem) set' (heq ▸ hset')
    · rw [hnone] at hset'
      cases hset'

end

theorem loop_routeTerminalStreamEvent (event : TerminalStreamEvent) (terminalBlock : Option String)
    (congested : ℕ → Bool) (s : ClientRelay) :
    Loop (fun _ frame => frame = .terminal event.seq) s (s.routeTerminalStreamEvent reads event terminalBlock congested) := by
  unfold routeTerminalStreamEvent
  split
  · exact Loop.refl s
  · exact Loop.broadcast _ _ _ fun s c hc => loop_deliverStream reads event congested s c hc

theorem loop_peerCloses {frames : ℕ → RelayFrame → Prop} (s : ClientRelay) (c : ℕ) :
    Loop frames s { s with clients := s.clients.modify c fun client => { client with isOpen := false } } := by
  have hclients : ∀ c' : ℕ, (s.clients.modify c fun client => { client with isOpen := false })[c']? =
      (s.clients[c']?).map fun (sub : RelayClient) => { sub with isOpen := sub.isOpen && !decide (c = c') } := by
    intro c'
    rw [getElem?_modify]
    cases s.clients[c']? with
    | none => rfl
    | some sub => by_cases hc : c = c' <;> simp [hc]
  refine ⟨⟨fun c' => ⟨_, hclients c'⟩, fun set => List.Sublist.refl _, fun _ _ h _ => h, fun _ => .inl rfl,
    fun hlogged => ⟨fun c' hclosed => ?_, hlogged.along⟩⟩, ⟨[], by simp, fun _ h => nomatch h⟩, rfl, rfl⟩
  obtain ⟨hnot, hlt⟩ := hlogged.closed c' hclosed
  refine ⟨?_, by rw [length_modify]; exact hlt⟩
  unfold isOpen at hnot ⊢
  rw [hclients]
  cases hsub : s.clients[c']? with
  | none => rfl
  | some sub =>
    rw [hsub] at hnot
    simp only [any_some] at hnot
    simp [hnot]

/-- The events that make the relay send frames and close sockets, and nothing else. -/
def ClientRelayEvent.loops : ClientRelayEvent → Bool
  | .connect .. | .closeEvent .. | .command .. | .result .. => false
  | _ => true

theorem loop_step (hknown : Known s) {event : ClientRelayEvent} (hevent : event.loops = true) (hstep : s.step event = some s') :
    Loop (fun _ frame => ∀ n outcome reason, frame ≠ .commandResult n outcome reason) s s' := by
  cases event with
  | connect => cases hevent
  | peerCloses c =>
    cases hstep
    exact loop_peerCloses s c
  | violates c code reason =>
    simp only [step] at hstep
    split at hstep
    · rename_i hany
      cases hstep
      refine Loop.closeSocket s code reason ?_
      by_contra hge
      rw [getElem?_eq_none (Nat.le_of_not_lt hge)] at hany
      cases hany
    · cases hstep
  | closeEvent => cases hevent
  | controlEvent reads event =>
    cases hstep
    exact (loop_routeControlEvent hknown reads event).mono fun _ _ heq _ _ _ h => by cases heq.symm.trans h
  | terminalEvent reads event terminalBlock congested =>
    cases hstep
    exact (loop_routeTerminalStreamEvent reads event terminalBlock congested s).mono fun _ _ heq _ _ _ h => by cases heq.symm.trans h
  | shareState reads nodeId =>
    cases hstep
    exact (Loop.broadcast s _ _ fun s c _ => loop_deliverShareState reads s c).mono fun _ _ heq _ _ _ h => by cases heq.symm.trans h
  | nodeHello reads nodeId nodeEpoch =>
    cases hstep
    exact (loop_acceptNode hknown reads nodeId nodeEpoch).mono fun _ _ heq _ _ _ h => by cases heq.symm.trans h
  | revoke nodeId invitationId =>
    cases hstep
    exact loop_closeRevokedSubscribers hknown _ _
  | killTenant tenantNode reason =>
    cases hstep
    exact loop_closeTenant hknown _ _
  | command | result => cases hevent

end Kookr.Relay
