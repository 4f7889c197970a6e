import Kookr.Lib.ListAt
import Kookr.Proofs.Relay.OpenClients

/-! Results of commands go to who issued them and the audit tells what was handed on, as long as the clients' commands are kept apart. -/

namespace Kookr.Relay

open Kookr.Lib ClientRelay ClientRelay List Option

variable {s s' : ClientRelay} {c n : ℕ} {sub : RelayClient} {issued : IssuedCommand}

def isOwner (s : ClientRelay) (c : ℕ) : Prop := ∃ sub, s.clients[c]? = some sub ∧ sub.auth.isOwner = true

/-- An answer goes to who issued the command, and to owners once that client is gone. -/
def AnswersIssuer (s : ClientRelay) (before : List RelayOutput) : RelayOutput → Prop
  | .sent c (.commandResult n _ _) => ∃ issued, s.commands[n]? = some issued ∧ (c = issued.client ∨ .gone issued.client ∈ before ∧ isOwner s c)
  | _ => True

def about (n : ℕ) : RelayOutput → Bool
  | .audit m _ _ | .handed m _ => m = n
  | _ => false

/-- What the audit and the node have of the command. -/
def trail (log : List RelayOutput) (n : ℕ) : List RelayOutput := log.filter (about n)

/-- The command was forwarded and handed to the node, or it has one other row. -/
def Told (log : List RelayOutput) (n : ℕ) : Prop :=
  (∃ forwarded, trail log n = [.audit n .forwarded none, .handed n forwarded]) ∨
    ∃ outcome reason, outcome ≠ .forwarded ∧ trail log n = [.audit n outcome (some reason)]

/-- Answers go where they belong and every command is told of. -/
structure RoutesCommands (s : ClientRelay) : Prop where
  answers : Along (AnswersIssuer s) s.log
  told : ∀ n < s.commands.length, Told s.log n

namespace IssuedCommand

def key (issued : IssuedCommand) : String := commandRecipientKey issued.nodeId issued.commandId

def outstanding (issued : IssuedCommand) : Bool := issued.handed && issued.echoed && !issued.answered

end IssuedCommand

/-- A command is refused before it is logged as forwarded, or is handed on while no command with its key waits for an answer. -/
def KeepsApart (s : ClientRelay) (key : String) : CommandFate → Prop
  | .rejected _ => True
  | .handed _ => ∀ issued ∈ s.commands, issued.outstanding = true → issued.key ≠ key
  | _ => False

def CommandsApart (s : ClientRelay) : ClientRelayEvent → Prop
  | .command reads c command => ∀ sub ∈ s.clients[c]?, sub.isGone = false →
    KeepsApart s (commandRecipientKey sub.nodeId (command.id reads)) (commandFate reads (s.nodeEpochs sub.nodeId) c sub command)
  | _ => True

instance (s : ClientRelay) (key : String) : (fate : CommandFate) → Decidable (KeepsApart s key fate)
  | .rejected _ => .isTrue trivial
  | .handed _ => inferInstanceAs (Decidable (∀ issued ∈ s.commands, issued.outstanding = true → issued.key ≠ key))
  | .mismatched => .isFalse id
  | .rejectedLate .. => .isFalse id

instance (s : ClientRelay) : (event : ClientRelayEvent) → Decidable (CommandsApart s event)
  | .command reads c command => inferInstanceAs (Decidable (∀ sub ∈ s.clients[c]?, sub.isGone = false →
      KeepsApart s (commandRecipientKey sub.nodeId (command.id reads)) (commandFate reads (s.nodeEpochs sub.nodeId) c sub command)))
  | .connect .. | .peerCloses _ | .violates .. | .closeEvent .. | .controlEvent .. | .terminalEvent .. | .shareState .. | .nodeHello ..
  | .revoke .. | .killTenant .. | .result .. => .isTrue trivial

structure Apart (s : ClientRelay) : Prop where
  kept : ∀ issued ∈ s.commands, issued.outstanding = true →
    s.commandRecipients.get issued.key = some issued.client ∨
      s.commandRecipients.get issued.key = none ∧ .gone issued.client ∈ s.log
  keys : ∀ (n n' : ℕ) (issued issued' : IssuedCommand), s.commands[n]? = some issued → s.commands[n']? = some issued' →
    issued.outstanding = true → issued'.outstanding = true → issued.key = issued'.key → n = n'
  fresh : ∀ n, s.commands.length ≤ n → trail s.log n = []

theorem trail_append (log news : List RelayOutput) (n : ℕ) : trail (log ++ news) n = trail log n ++ trail news n := filter_append ..

theorem AnswersIssuer.mono {before : List RelayOutput} {x : RelayOutput} (h : AnswersIssuer s before x)
    (hcommands : ∀ (n : ℕ) (issued : IssuedCommand), s.commands[n]? = some issued →
      ∃ issued', s'.commands[n]? = some issued' ∧ issued'.client = issued.client)
    (howners : ∀ c, isOwner s c → isOwner s' c) : AnswersIssuer s' before x := by
  unfold AnswersIssuer at h ⊢
  split
  · rename_i c n _ _
    obtain ⟨issued, hissued, hclient⟩ := h
    obtain ⟨issued', hissued', heq⟩ := hcommands n issued hissued
    refine ⟨issued', hissued', ?_⟩
    rw [heq]
    exact hclient.imp id fun ⟨hgone, howner⟩ => ⟨hgone, howners c howner⟩
  · trivial

theorem answers_append {news : List RelayOutput} (h : Along (AnswersIssuer s) s.log) (hlog : s'.log = s.log ++ news)
    (hcommands : ∀ (n : ℕ) (issued : IssuedCommand), s.commands[n]? = some issued →
      ∃ issued', s'.commands[n]? = some issued' ∧ issued'.client = issued.client) (howners : ∀ c, isOwner s c → isOwner s' c)
    (hnews : ∀ c n outcome reason, .sent c (.commandResult n outcome reason) ∈ news →
      ∃ issued, s'.commands[n]? = some issued ∧ (c = issued.client ∨ .gone issued.client ∈ s.log ∧ isOwner s' c)) :
    Along (AnswersIssuer s') s'.log := by
  rw [hlog]
  refine Along.append (fun before x after heq => (h before x after heq).mono hcommands howners) fun before x after heq => ?_
  unfold AnswersIssuer
  split
  · rename_i c n outcome reason
    obtain ⟨issued, hissued, hclient⟩ := hnews c n outcome reason (heq ▸ mem_append_right _ mem_cons_self)
    exact ⟨issued, hissued, hclient.imp_right fun ⟨hgone, howner⟩ => ⟨mem_append_left _ hgone, howner⟩⟩
  · trivial

/-- Commands stay as they are, and recipients too, but for those of clients that are gone. -/
structure Aside (s s' : ClientRelay) : Prop where
  commands : s'.commands = s.commands
  log : ∃ news, s'.log = s.log ++ news ∧ ∀ x ∈ news, ∀ n, about n x = false
  answers : Along (AnswersIssuer s) s.log → Along (AnswersIssuer s') s'.log
  recipients : ∀ key, s'.commandRecipients.get key = s.commandRecipients.get key ∨
    s'.commandRecipients.get key = none ∧ ∀ c, s.commandRecipients.get key = some c → .gone c ∈ s'.log

namespace Aside

theorem mem_log (h : Aside s s') {x : RelayOutput} (hx : x ∈ s.log) : x ∈ s'.log := by
  obtain ⟨news, hlog, _⟩ := h.log
  rw [hlog]
  exact mem_append_left _ hx

theorem trans {s'' : ClientRelay} (h : Aside s s') (h' : Aside s' s'') : Aside s s'' where
  commands := h'.commands.trans h.commands
  log := by
    obtain ⟨news, hlog, hnews⟩ := h.log
    obtain ⟨news', hlog', hnews'⟩ := h'.log
    refine ⟨news ++ news', by rw [hlog', hlog, append_assoc], fun x hx => ?_⟩
    exact (mem_append.1 hx).elim (hnews x) (hnews' x)
  answers := h'.answers ∘ h.answers
  recipients key := by
    rcases h'.recipients key with heq | ⟨hnone, hgone⟩
    · rcases h.recipients key with heq' | ⟨hnone, hgone⟩
      · exact .inl (heq.trans heq')
      · exact .inr ⟨heq.trans hnone, fun c hc => h'.mem_log (hgone c hc)⟩
    · rcases h.recipients key with heq' | ⟨hnone', hgone'⟩
      · exact .inr ⟨hnone, fun c hc => hgone c (heq' ▸ hc)⟩
      · exact .inr ⟨hnone, fun c hc => h'.mem_log (hgone' c hc)⟩

theorem of_rows (news : List RelayOutput) (hcommands : s'.commands = s.commands) (howners : ∀ c, isOwner s c → isOwner s' c)
    (hlog : s'.log = s.log ++ news) (hnews : ∀ x ∈ news, ∀ n, about n x = false)
    (hsent : ∀ c frame, .sent c frame ∉ news) (hrecipients : s'.commandRecipients = s.commandRecipients) : Aside s s' where
  commands := hcommands
  log := ⟨news, hlog, hnews⟩
  answers h := answers_append h hlog (fun n issued hissued => ⟨issued, by rw [hcommands]; exact hissued, rfl⟩) howners
    fun c _ _ _ hmem => absurd hmem (hsent c _)
  recipients key := .inl (by rw [hrecipients])

theorem of_fields (hcommands : s'.commands = s.commands) (hclients : s'.clients = s.clients) (hlog : s'.log = s.log)
    (hrecipients : s'.commandRecipients = s.commandRecipients) : Aside s s' := by
  refine of_rows [] hcommands (fun c hc => ?_) (by simp [hlog]) (fun _ h => absurd h not_mem_nil) (fun _ _ h => nomatch h) hrecipients
  unfold isOwner
  rwa [hclients]

theorem of_loop {frames : ℕ → RelayFrame → Prop} (h : Loop frames s s')
    (hframes : ∀ c n outcome reason, frames c (.commandResult n outcome reason) →
      ∃ issued, s.commands[n]? = some issued ∧ (c = issued.client ∨ .gone issued.client ∈ s.log ∧ isOwner s c)) : Aside s s' := by
  obtain ⟨news, hlog, hnews⟩ := h.log
  have howners : ∀ c, isOwner s c → isOwner s' c := by
    intro c ⟨sub, hsub, howner⟩
    obtain ⟨keep, hkeep⟩ := h.clients c
    exact ⟨{ sub with isOpen := sub.isOpen && keep }, by rw [hkeep, hsub]; rfl, howner⟩
  have hcommands : ∀ n : ℕ, s'.commands[n]? = s.commands[n]? := fun n => by rw [h.commands]
  refine ⟨h.commands, ⟨news, hlog, fun x hx n => ?_⟩, fun hanswers => ?_, fun key => .inl (by rw [h.recipients])⟩
  · rcases hnews x hx with ⟨_, _, rfl, _⟩ | ⟨_, _, _, rfl⟩ <;> rfl
  · refine answers_append hanswers hlog (fun n issued hissued => ⟨issued, (hcommands n).trans hissued, rfl⟩) howners
      fun c n outcome reason hmem => ?_
    rcases hnews _ hmem with ⟨_, _, heq, hframe⟩ | ⟨_, _, _, heq⟩
    · cases heq
      obtain ⟨issued, hissued, hclient⟩ := hframes c n outcome reason hframe
      exact ⟨issued, (hcommands n).trans hissued, hclient.imp_right fun ⟨hgone, howner⟩ => ⟨hgone, howners c howner⟩⟩
    · cases heq

theorem of_quiet {frames : ℕ → RelayFrame → Prop} (h : Loop frames s s')
    (hframes : ∀ c n outcome reason, ¬ frames c (.commandResult n outcome reason)) : Aside s s' :=
  of_loop h fun c n outcome reason hframe => absurd hframe (hframes c n outcome reason)

end Aside

theorem trail_unrelated {news : List RelayOutput} (log : List RelayOutput) {n : ℕ} (hnews : ∀ x ∈ news, about n x = false) :
    trail (log ++ news) n = trail log n := by
  rw [trail_append]
  have hnone : trail news n = [] := filter_eq_nil_iff.2 fun x hx => by simp [hnews x hx]
  rw [hnone, append_nil]

theorem Apart.aside (h : Apart s) (haside : Aside s s') : Apart s' := by
  obtain ⟨news, hlog, hnews⟩ := haside.log
  refine ⟨fun issued hmem hout => ?_, ?_, fun n hn => ?_⟩
  · rw [haside.commands] at hmem
    rcases h.kept issued hmem hout with hsome | ⟨hnone, hgone⟩
    · rcases haside.recipients issued.key with heq | ⟨hnone, hgone⟩
      · exact .inl (heq.trans hsome)
      · exact .inr ⟨hnone, hgone _ hsome⟩
    · rcases haside.recipients issued.key with heq | ⟨hnone', _⟩
      · exact .inr ⟨heq.trans hnone, haside.mem_log hgone⟩
      · exact .inr ⟨hnone', haside.mem_log hgone⟩
  · rw [haside.commands]
    exact h.keys
  · rw [haside.commands] at hn
    rw [hlog, trail_unrelated _ fun x hx => hnews x hx n]
    exact h.fresh n hn

theorem RoutesCommands.aside (h : RoutesCommands s) (haside : Aside s s') : RoutesCommands s' := by
  obtain ⟨news, hlog, hnews⟩ := haside.log
  refine ⟨haside.answers h.answers, fun n hn => ?_⟩
  rw [haside.commands] at hn
  unfold Told
  rw [hlog, trail_unrelated _ fun x hx => hnews x hx n]
  exact h.told n hn

theorem aside_connect (s : ClientRelay) (reads : RelayReads) (nodeId : String) (auth : RelayClientAuth) (terminal : Option RelayTerminal)
    (allowed : Bool) : Aside s (s.connect reads nodeId auth terminal allowed) := by
  have hregister : Aside s (s.register nodeId auth terminal allowed) := by
    refine Aside.of_rows [] rfl (fun c howner => ?_) (by simp [register]) (fun _ h => absurd h not_mem_nil)
      (fun _ _ h => absurd h not_mem_nil) rfl
    obtain ⟨sub, hsub, howner⟩ := howner
    exact ⟨sub, (List.getElem?_append_left (List.getElem?_eq_some_iff.1 hsub).1).trans hsub, howner⟩
  have hreplayed : Aside _ _ :=
    .of_quiet (loop_replayTo (s.register nodeId auth terminal allowed) reads nodeId s.clients.length) (by rintro _ _ _ _ ⟨_, heq⟩; cases heq)
  have hpresence : ∀ t : ClientRelay, Aside t (t.recordPresence reads nodeId s.clients.length auth.invitationId) := by
    intro t
    have hrow : Aside t { t with presence := t.presence ++ [(nodeId, s.clients.length, auth.invitationId)] } := .of_fields rfl rfl rfl rfl
    exact hrow.trans (.of_quiet (loop_broadcastPresence _ reads nodeId) (by rintro _ _ _ _ heq; cases heq))
  have hshare : ∀ t, Aside t (deliverShareState reads t s.clients.length) :=
    fun t => .of_quiet (loop_deliverShareState reads t _) (by rintro _ _ _ _ heq; cases heq)
  exact ((hregister.trans hreplayed).trans (hpresence _)).trans (hshare _)

theorem aside_forgetRecipients (h : .gone c ∈ s.log) : Aside s (s.forgetRecipients c) := by
  refine ⟨rfl, ⟨[], by simp [forgetRecipients], fun _ h => absurd h not_mem_nil⟩, fun h => h, fun key => ?_⟩
  have hget : (s.forgetRecipients c).commandRecipients.get key = (s.commandRecipients.get key).filter fun recipient => recipient ≠ c :=
    OrderedMap.get_filter ..
  rw [hget]
  cases hkey : s.commandRecipients.get key with
  | none => exact .inl rfl
  | some recipient =>
    by_cases hc : recipient = c
    · refine .inr ⟨by simp [hc], fun c' hc' => ?_⟩
      cases hc'
      rw [hc]
      exact h
    · exact .inl (by simp [hc])

theorem aside_closeHandler (s : ClientRelay) (reads : RelayReads) (c : ℕ) (sub : RelayClient) : Aside s (s.closeHandler reads c sub) := by
  have hgone : Aside s (s.markGone c) := by
    refine Aside.of_rows [.gone c] rfl (fun c' ⟨sub', hsub', howner⟩ => ?_) rfl (fun x hx => ?_) (fun _ _ h => ?_) rfl
    · unfold isOwner markGone
      simp only [getElem?_modify, hsub']
      split
      · exact ⟨{ sub' with isGone := true }, rfl, howner⟩
      · exact ⟨sub', rfl, howner⟩
    · rw [mem_singleton.1 hx]
      exact fun _ => rfl
    · cases mem_singleton.1 h
  have hleave : Aside (s.markGone c) (((s.markGone c).leaveSet sub.set c).dropEmptySet sub.nodeId sub.set) := by
    unfold dropEmptySet
    split <;> exact .of_fields rfl rfl rfl rfl
  have hmem : RelayOutput.gone c ∈ (((s.markGone c).leaveSet sub.set c).dropEmptySet sub.nodeId sub.set).log :=
    hleave.mem_log (mem_append_right _ (mem_singleton_self _))
  have hpresence : ∀ t : ClientRelay, Aside t (t.removePresence reads sub.nodeId c) := by
    intro t
    unfold removePresence
    split
    · refine Aside.trans ?_ (.of_quiet (loop_broadcastPresence _ reads sub.nodeId) nofun)
      exact .of_fields rfl rfl rfl rfl
    · exact .of_fields rfl rfl rfl rfl
  exact ((hgone.trans hleave).trans (aside_forgetRecipients hmem)).trans (hpresence _)

theorem step_aside (hknown : Known s) {event : ClientRelayEvent} (hstep : s.step event = some s')
    (hcommand : ∀ reads c command, event ≠ .command reads c command) (hresult : ∀ reads n outcome reason, event ≠ .result reads n outcome reason) :
    Aside s s' := by
  cases event with
  | connect reads nodeId auth terminal allowed =>
    cases hstep
    exact aside_connect s reads nodeId auth terminal allowed
  | closeEvent reads c =>
    obtain ⟨sub, _, _, _, rfl⟩ := closeEvent_eq hstep
    exact aside_closeHandler s reads c sub
  | command reads c command => exact absurd rfl (hcommand reads c command)
  | result reads n outcome reason => exact absurd rfl (hresult reads n outcome reason)
  | _ => exact .of_quiet (loop_step hknown rfl hstep) fun _ n outcome reason h => h n outcome reason rfl

/-- A command gets the next number, and what is logged is about it. -/
structure Issues (s s' : ClientRelay) (issued : IssuedCommand) : Prop where
  commands : s'.commands = s.commands ++ [issued]
  clients : s'.clients = s.clients
  log : ∃ news, s'.log = s.log ++ news ∧ Told news s.commands.length ∧ (∀ n, n ≠ s.commands.length → trail news n = []) ∧
    ∀ c n outcome reason, .sent c (.commandResult n outcome reason) ∈ news → c = issued.client ∧ n = s.commands.length

theorem RoutesCommands.issue (h : RoutesCommands s) (hapart : Apart s) (hissue : Issues s s' issued) : RoutesCommands s' := by
  obtain ⟨news, hlog, htold, hothers, hsent⟩ := hissue.log
  have hlast : s'.commands[s.commands.length]? = some issued := by rw [hissue.commands, getElem?_concat_length]
  refine ⟨?_, fun n hn => ?_⟩
  · refine answers_append h.answers hlog (fun n issued hissued => ⟨issued, ?_, rfl⟩) (fun c hc => ?_) fun c n outcome reason hmem => ?_
    · rw [hissue.commands, List.getElem?_append_left (List.getElem?_eq_some_iff.1 hissued).1, hissued]
    · unfold isOwner
      rwa [hissue.clients]
    · obtain ⟨rfl, rfl⟩ := hsent c n outcome reason hmem
      exact ⟨issued, hlast, .inl rfl⟩
  · rw [hissue.commands, length_append, length_singleton] at hn
    unfold Told
    rw [hlog, trail_append]
    by_cases hsame : n = s.commands.length
    · subst hsame
      rw [hapart.fresh _ le_rfl]
      exact htold
    · rw [hothers n hsame, append_nil]
      exact h.told n (by omega)

theorem Apart.issue (h : Apart s) (hissue : Issues s s' issued)
    (hrecipients : s'.commandRecipients = s.commandRecipients ∧ issued.outstanding = false ∨
      s'.commandRecipients = s.commandRecipients.set issued.key issued.client ∧
        ∀ other ∈ s.commands, other.outstanding = true → other.key ≠ issued.key) : Apart s' := by
  obtain ⟨news, hlog, _, hothers, _⟩ := hissue.log
  have hnew : issued.outstanding = true → ∀ other ∈ s.commands, other.outstanding = true → other.key ≠ issued.key := by
    intro hout
    rcases hrecipients with ⟨_, hnot⟩ | ⟨_, hother⟩
    · rw [hnot] at hout
      cases hout
    · exact hother
  refine ⟨fun other hmem hout => ?_, fun n n' other other' hother hother' hout hout' hkey => ?_, fun n hn => ?_⟩
  · rw [hissue.commands] at hmem
    rcases mem_concat_cases hmem with hmem | rfl
    · have hget : s'.commandRecipients.get other.key = s.commandRecipients.get other.key := by
        rcases hrecipients with ⟨heq, _⟩ | ⟨heq, hother⟩
        · rw [heq]
        · rw [heq, OrderedMap.get_set_of_ne _ _ (Ne.symm (hother other hmem hout))]
      rw [hget, hlog]
      exact (h.kept other hmem hout).imp_right fun ⟨hnone, hgone⟩ => ⟨hnone, mem_append_left _ hgone⟩
    · rcases hrecipients with ⟨_, hnot⟩ | ⟨heq, _⟩
      · rw [hnot] at hout
        cases hout
      · exact .inl (by rw [heq, OrderedMap.get_set_self])
  · rw [hissue.commands] at hother hother'
    rcases getElem?_concat_cases hother with ⟨rfl, rfl⟩ | hold
    · rcases getElem?_concat_cases hother' with ⟨rfl, rfl⟩ | hold'
      · rfl
      · exact absurd hkey.symm (hnew hout other' (mem_of_getElem? hold') hout')
    · rcases getElem?_concat_cases hother' with ⟨rfl, rfl⟩ | hold'
      · exact absurd hkey (hnew hout' other (mem_of_getElem? hold) hout)
      · exact h.keys n n' other other' hold hold' hout hout' hkey
  · rw [hissue.commands, length_append, length_singleton] at hn
    rw [hlog, trail_append, h.fresh n (by omega), hothers n (by omega), append_nil]

theorem log_sendCommandReject (s : ClientRelay) (n c : ℕ) (reason : String) (outcome : AuditOutcome) :
    ∃ answer, (s.sendCommandReject n c reason outcome).log = s.log ++ .audit n outcome (some reason) :: answer ∧
      ∀ x ∈ answer, ∃ result reason, x = .sent c (.commandResult n result reason) := by
  unfold sendCommandReject send appendAudit
  split
  · refine ⟨[_], by rw [append_assoc, singleton_append], fun x hx => ?_⟩
    exact ⟨_, _, mem_singleton.1 hx⟩
  · exact ⟨[], rfl, fun _ h => nomatch h⟩

/-- A refusal is logged and sent, and nothing else. -/
theorem sendCommandReject_fields (s : ClientRelay) (n c : ℕ) (reason : String) (outcome : AuditOutcome) :
    (s.sendCommandReject n c reason outcome).commands = s.commands ∧ (s.sendCommandReject n c reason outcome).clients = s.clients ∧
      (s.sendCommandReject n c reason outcome).commandRecipients = s.commandRecipients := by
  unfold sendCommandReject send
  split <;> exact ⟨rfl, rfl, rfl⟩

def issuedCommand (reads : CommandReads) (c : ℕ) (sub : RelayClient) (command : RemoteCommand) (handed : Bool) : IssuedCommand :=
  ⟨c, sub.nodeId, command.id reads, command.commandId.isSome, handed, false⟩

theorem issues_reject (s : ClientRelay) (reads : CommandReads) (c : ℕ) (sub : RelayClient) (command : RemoteCommand) (reason : String) :
    Issues s ((s.issueCommand reads c sub command false).sendCommandReject s.commands.length c reason .rejectedPreAudit)
      (issuedCommand reads c sub command false) := by
  obtain ⟨answer, hlog, hanswer⟩ := log_sendCommandReject (s.issueCommand reads c sub command false) s.commands.length c reason .rejectedPreAudit
  have hnone : ∀ n, trail answer n = [] := by
    intro n
    refine filter_eq_nil_iff.2 fun x hx => ?_
    obtain ⟨_, _, rfl⟩ := hanswer x hx
    simp [about]
  obtain ⟨hcommands, hclients, _⟩ := sendCommandReject_fields (s.issueCommand reads c sub command false) s.commands.length c reason .rejectedPreAudit
  refine ⟨hcommands, hclients, ⟨_, hlog, ?_, fun n hn => ?_, fun c' n result reason' hmem => ?_⟩⟩
  · refine .inr ⟨.rejectedPreAudit, reason, (by decide), ?_⟩
    unfold trail at hnone ⊢
    rw [filter_cons_of_pos (by simp [about]), hnone]
  · unfold trail at hnone ⊢
    rw [filter_cons_of_neg (by simpa [about] using Ne.symm hn), hnone]
  · rcases mem_cons.1 hmem with heq | hmem
    · cases heq
    · obtain ⟨_, _, heq⟩ := hanswer _ hmem
      cases heq
      exact ⟨rfl, rfl⟩

theorem issues_handed (s : ClientRelay) (reads : CommandReads) (c : ℕ) (sub : RelayClient) (command : RemoteCommand) (forwarded : ForwardedCommand) :
    Issues s ((((s.issueCommand reads c sub command true).appendAudit (.audit s.commands.length .forwarded none)).rememberCommandRecipient
      sub.nodeId (command.id reads) c).appendAudit (.handed s.commands.length forwarded)) (issuedCommand reads c sub command true) := by
  refine ⟨rfl, rfl, ⟨[.audit s.commands.length .forwarded none, .handed s.commands.length forwarded], ?_, ?_, fun n hn => ?_, fun _ _ _ _ hmem => ?_⟩⟩
  · unfold appendAudit rememberCommandRecipient issueCommand
    rw [append_assoc, singleton_append]
  · refine .inl ⟨forwarded, ?_⟩
    simp [trail, about]
  · simp [trail, about, Ne.symm hn]
  · simp at hmem

theorem handleCommand_routes (h : RoutesCommands s) (hapart : Apart s) {reads : CommandReads} {command : RemoteCommand}
    (hkeeps : KeepsApart s (commandRecipientKey sub.nodeId (command.id reads)) (commandFate reads (s.nodeEpochs sub.nodeId) c sub command)) :
    RoutesCommands (s.handleCommand reads c sub command) ∧ Apart (s.handleCommand reads c sub command) := by
  unfold handleCommand
  generalize commandFate reads (s.nodeEpochs sub.nodeId) c sub command = fate at hkeeps
  cases fate with
  | mismatched => cases hkeeps
  | rejected reason =>
    have hissue := issues_reject s reads c sub command reason
    exact ⟨h.issue hapart hissue, hapart.issue hissue (.inl ⟨(sendCommandReject_fields ..).2.2, rfl⟩)⟩
  | rejectedLate reason outcome => cases hkeeps
  | handed forwarded =>
    have hissue := issues_handed s reads c sub command forwarded
    exact ⟨h.issue hapart hissue, hapart.issue hissue (.inr ⟨rfl, hkeeps⟩)⟩

theorem getElem?_answer {m : ℕ} {issued other : IssuedCommand} {outcome : String} (hissued : s.commands[n]? = some issued)
    (hother : (s.answer n outcome).commands[m]? = some other) :
    m = n ∧ other = { issued with answered := true } ∨ m ≠ n ∧ s.commands[m]? = some other := by
  unfold answer at hother
  simp only [getElem?_modify] at hother
  by_cases hm : m = n
  · subst hm
    rw [hissued] at hother
    simp only [if_true, Option.map_eq_map, Option.map_some, Option.some.injEq] at hother
    exact .inl ⟨rfl, hother.symm⟩
  · refine .inr ⟨hm, ?_⟩
    simpa [Ne.symm hm] using hother

theorem RoutesCommands.answer (h : RoutesCommands s) (hissued : s.commands[n]? = some issued) (outcome : String) :
    RoutesCommands (s.answer n outcome) := by
  have hlog : (s.answer n outcome).log = s.log ++ [.resultAudit n outcome] := rfl
  refine ⟨?_, fun m hm => ?_⟩
  · refine answers_append h.answers hlog (fun m other hother => ?_) (fun _ hc => hc) fun _ _ _ _ hmem => ?_
    · by_cases hm : m = n
      · subst hm
        obtain rfl := some.inj (hissued.symm.trans hother)
        exact ⟨{ issued with answered := true }, by simp [ClientRelay.answer, hissued], rfl⟩
      · exact ⟨other, by simp [ClientRelay.answer, hother, Ne.symm hm], rfl⟩
    · cases mem_singleton.1 hmem
  · have hlength : (s.answer n outcome).commands.length = s.commands.length := length_modify ..
    unfold Told
    have htrail : trail (s.answer n outcome).log m = trail s.log m := trail_unrelated _ fun x hx => by rw [mem_singleton.1 hx]; rfl
    rw [htrail]
    exact h.told m (hlength ▸ hm)

theorem Apart.answer (h : Apart s) (hissued : s.commands[n]? = some issued) (hout : issued.outstanding = true)
    (outcome : String) :
    Apart (s.answer n outcome) ∧ ∀ other ∈ (s.answer n outcome).commands, other.outstanding = true → other.key ≠ issued.key := by
  have hold : ∀ (m : ℕ) (other : IssuedCommand), (s.answer n outcome).commands[m]? = some other → other.outstanding = true →
      m ≠ n ∧ s.commands[m]? = some other := by
    intro m other hother hwaits
    rcases getElem?_answer hissued hother with ⟨_, rfl⟩ | hold
    · simp [IssuedCommand.outstanding] at hwaits
    · exact hold
  refine ⟨⟨fun other hmem hwaits => ?_, fun m m' other other' hother hother' hwaits hwaits' hkey => ?_, fun m hm => ?_⟩, fun other hmem hwaits hkey => ?_⟩
  · obtain ⟨m, hother⟩ := getElem?_of_mem hmem
    refine (h.kept other (mem_of_getElem? (hold m other hother hwaits).2) hwaits).imp_right fun ⟨hnone, hgone⟩ => ⟨hnone, ?_⟩
    exact mem_append_left _ hgone
  · exact h.keys m m' other other' (hold m other hother hwaits).2 (hold m' other' hother' hwaits').2 hwaits hwaits' hkey
  · have hlength : (s.answer n outcome).commands.length = s.commands.length := length_modify ..
    have htrail : trail (s.answer n outcome).log m = trail s.log m := trail_unrelated _ fun x hx => by rw [mem_singleton.1 hx]; rfl
    rw [htrail]
    exact h.fresh m (hlength ▸ hm)
  · obtain ⟨m, hother⟩ := getElem?_of_mem hmem
    obtain ⟨hm, hother'⟩ := hold m other hother hwaits
    exact hm (h.keys m n other issued hother' hissued hwaits hout hkey)

/-- A recipient is forgotten for whose key no command waits. -/
theorem apart_forget {nodeId commandId : String} (h : Apart s)
    (hkey : ∀ other ∈ s.commands, other.outstanding = true → other.key ≠ commandRecipientKey nodeId commandId) :
    Apart (s.forgetCommandRecipient nodeId commandId) := by
  refine ⟨fun other hmem hout => ?_, h.keys, h.fresh⟩
  have hget : (s.forgetCommandRecipient nodeId commandId).commandRecipients.get other.key = s.commandRecipients.get other.key :=
    (OrderedMap.get_delete ..).trans (if_neg (Ne.symm (hkey other hmem hout)))
  rw [hget]
  exact h.kept other hmem hout

theorem routeCommandResult_routes (h : RoutesCommands s) (hapart : Apart s) (hissued : s.commands[n]? = some issued)
    (hout : issued.outstanding = true) (reads : RelayReads) (outcome : String) (reason : Option String) :
    RoutesCommands (s.routeCommandResult reads n issued outcome reason) ∧ Apart (s.routeCommandResult reads n issued outcome reason) := by
  have hanswered := h.answer hissued outcome
  obtain ⟨hapart', hkeys⟩ := hapart.answer hissued hout outcome
  have hthere : (s.answer n outcome).commands[n]? = some { issued with answered := true } := by
    simp [answer, hissued]
  have hkept : (s.answer n outcome).commandRecipients.get (commandRecipientKey issued.nodeId issued.commandId) = some issued.client ∨
      (s.answer n outcome).commandRecipients.get (commandRecipientKey issued.nodeId issued.commandId) = none ∧
        .gone issued.client ∈ (s.answer n outcome).log :=
    (hapart.kept issued (mem_of_getElem? hissued) hout).imp_right fun ⟨hnone, hgone⟩ => ⟨hnone, mem_append_left _ hgone⟩
  unfold routeCommandResult
  simp only
  split
  · exact ⟨hanswered, hapart'⟩
  generalize s.answer n outcome = answered at *
  unfold sendResult
  rcases hkept with hsome | ⟨hnone, hgone⟩
  · rw [hsome]
    have hforgotten := apart_forget hapart' hkeys
    have hroutes : RoutesCommands (answered.forgetCommandRecipient issued.nodeId issued.commandId) := ⟨hanswered.answers, hanswered.told⟩
    have hturn : Loop (fun c frame => c = issued.client ∧ frame = .commandResult n outcome reason)
        (answered.forgetCommandRecipient issued.nodeId issued.commandId) ((answered.forgetCommandRecipient issued.nodeId
          issued.commandId).turn reads.now issued.nodeId (fun s c => s.send c (.commandResult n outcome reason)) issued.client) :=
      Loop.turn _ _ _ fun t _ => Loop.send t ⟨rfl, rfl⟩
    have haside := Aside.of_loop hturn fun c m _ _ ⟨hc, heq⟩ => by
      cases heq
      exact ⟨_, hthere, .inl hc⟩
    exact ⟨hroutes.aside haside, hforgotten.aside haside⟩
  · rw [hnone]
    have howners : Loop (fun c frame => isOwner answered c ∧ frame = .commandResult n outcome reason) answered
        (answered.broadcast reads.now issued.nodeId (deliverResult n outcome reason)) := by
      refine Loop.broadcast_calm _ _ _ fun t ht c hc => ?_
      unfold deliverResult
      split
      · rename_i howner
        rw [getElem?_eq_getElem hc] at howner
        obtain ⟨keep, sub₀, hsub₀, heq⟩ := ht.client (getElem?_eq_getElem hc)
        rw [heq] at howner
        exact Loop.send t ⟨⟨sub₀, hsub₀, howner⟩, rfl⟩
      · exact Loop.refl t
    have haside := Aside.of_loop howners fun c m _ _ ⟨hc, heq⟩ => by
      cases heq
      exact ⟨_, hthere, .inr ⟨hgone, hc⟩⟩
    exact ⟨hanswered.aside haside, hapart'.aside haside⟩

structure Routing (s : ClientRelay) : Prop where
  sockets : Sockets s
  routes : RoutesCommands s
  apart : Apart s

theorem Routing.step (h : Routing s) {event : ClientRelayEvent} (hok : CommandsApart s event) (hstep : s.step event = some s') : Routing s' := by
  have hsockets := h.sockets.step hstep
  cases event with
  | command reads c command =>
    obtain ⟨sub, hsub, hgone, rfl⟩ := command_eq hstep
    have hroutes := handleCommand_routes h.routes h.apart (hok sub hsub hgone)
    exact ⟨hsockets, hroutes.1, hroutes.2⟩
  | result reads n outcome reason =>
    obtain ⟨issued, hissued, hout, rfl⟩ := result_eq hstep
    have hroutes := routeCommandResult_routes h.routes h.apart hissued hout reads outcome reason
    exact ⟨hsockets, hroutes.1, hroutes.2⟩
  | _ =>
    have haside := step_aside h.sockets.known hstep (fun _ _ _ heq => by cases heq) fun _ _ _ _ heq => by cases heq
    exact ⟨hsockets, h.routes.aside haside, h.apart.aside haside⟩

theorem Routing.start : Routing .start where
  sockets := .start
  routes := ⟨along_nil, fun n hn => absurd hn (Nat.not_lt_zero n)⟩
  apart := ⟨nofun, fun n _ _ _ h => (by cases n <;> cases h), fun _ _ => rfl⟩

/-- Results reach only who issued the command, or owners once that client is gone, and every command has the row that tells what became of
it, in every run whose commands are kept apart. -/
theorem command_routing_faithful (events : List ClientRelayEvent) (s : ClientRelay)
    (hapart : StepsMeet step CommandsApart .start events) (hrun : exec step .start events = some s) : RoutesCommands s := by
  have hrouting : Routing s := exec_invariant (fun s e s' h hok hstep => Routing.step h hok hstep) Routing.start hapart hrun
  exact hrouting.routes

def stopInvitation : InvitationRecord where
  invitationId := "share"
  nodeId := "node"
  subject := .task "node" "task"
  grants := [.view, .stop]
  grantId := "grant"
  tokenHash := ""
  createdAt := 0
  expiresAt := 100
  revokedAt := none
  acceptedAt := some 0
  acceptedBy := none
  memberTokenHash := none
  memberId := none
  memberDeviceId := none
  memberCsrfTokenHash := none
  memberSessions := none
  controllerLease := none
  shareId := none
  passwordVerifier := none
  failedAcceptCount := none
  lockedUntil := none
  redactedShareLabel := none
  grantRequests := none
  policyVersion := 1

def openReads : CommandReads where
  now := 1
  invitations := [stopInvitation]
  nodeKnown := true
  terminalBlock := none
  policyAckedForInput := fun _ => true
  policyStatus := ""
  projectionFor := fun _ => none
  resolve := fun _ => none
  retryBinding := fun _ => none
  payloadHash := ""
  nodeOpen := true
  ownerId := "owner"

def noFields : CommandFields := ⟨none, false, none, none, none, none⟩

def skipCommand (commandId : String) : RemoteCommand where
  commandId := some commandId
  nodeId := some "node"
  action := some "skip"
  own := noFields
  payload := noFields
  text := none
  appendNewline := none
  idempotencyKey := some "key"

def ownerAuth : RelayClientAuth := ⟨true, "owner", [], "", none, none, none, none⟩

def memberAuth : RelayClientAuth := ⟨false, "member", [.view, .stop], "grant", none, none, some "share", some 100⟩

/-- An owner and a member skip a task each, under ids of their own, and the node answers the owner's command. -/
def skips (first second : String) : List ClientRelayEvent := [
  .nodeHello openReads.toRelayReads "node" "epoch",
  .connect openReads.toRelayReads "node" ownerAuth none false,
  .connect openReads.toRelayReads "node" memberAuth none false,
  .command openReads 0 (skipCommand first),
  .command openReads 1 (skipCommand second),
  .result openReads.toRelayReads 0 "executed" none]

/-- The member with the owner's command id gets the owner's result. -/
theorem reused_command_id_leaks : ∃ s, exec step .start (skips "x" "x") = some s ∧ ¬ RoutesCommands s := by
  have hend : ((exec step .start (skips "x" "x")).map fun s =>
      (s.log.getLast?, s.commands[0]?.map IssuedCommand.client, s.clients[1]?.map fun sub => sub.auth.isOwner)) =
        some (some (.sent 1 (.commandResult 0 "executed" none)), some 0, some false) := by decide
  obtain ⟨s, hrun, heq⟩ := map_eq_some_iff.1 hend
  simp only [Prod.mk.injEq, map_eq_some_iff] at heq
  obtain ⟨hlast, ⟨issued, hissued, hclient⟩, ⟨sub, hsub, howner⟩⟩ := heq
  refine ⟨s, hrun, fun hroutes => ?_⟩
  obtain ⟨before, hlog⟩ := getLast?_eq_some_iff.1 hlast
  obtain ⟨issued', hissued', hto⟩ := hroutes.answers before _ [] hlog
  obtain rfl := some.inj (hissued.symm.trans hissued')
  rcases hto with hissuer | ⟨_, sub', hsub', howner'⟩
  · omega
  · obtain rfl := some.inj (hsub.symm.trans hsub')
    rw [howner] at howner'
    cases howner'

/-- With ids of their own both are told apart. -/
theorem command_routing_faithful_skips : ∃ s, exec step .start (skips "x" "y") = some s ∧ RoutesCommands s ∧
      s.log.getLast? = some (.sent 0 (.commandResult 0 "executed" none)) := by
  have hmeet : StepsMeet step CommandsApart .start (skips "x" "y") := by decide
  have hlast : ((exec step .start (skips "x" "y")).map fun s => s.log.getLast?) =
      some (some (.sent 0 (.commandResult 0 "executed" none))) := by decide
  obtain ⟨s, hrun, hlast⟩ := map_eq_some_iff.1 hlast
  exact ⟨s, hrun, command_routing_faithful (skips "x" "y") s hmeet hrun, hlast⟩

end Kookr.Relay
