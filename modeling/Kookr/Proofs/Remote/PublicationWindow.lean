import Kookr.Lib.ListAt
import Kookr.Sanity.Remote.PipelineMoves
import Kookr.Proofs.Remote.JournalReplay
import Kookr.Lib.History
import Kookr.Sanity.Remote.PublicationSteps

/-! Revocation against deliveries in flight. `executeWithPipeline` asks for the tombstone
once, before it awaits `authorize`, `validate` and the intent: a delivery that is past the
question and has not called `execute` yet is not stopped by a revocation. Outside that
window the revocation is a barrier. -/

namespace Kookr.Remote

open Kookr.Lib List

/-- The tombstone has been asked for, `execute` has not been called. -/
def PipelinePc.beforeExecute : PipelinePc → Bool
  | .authorize | .validate | .appendIntent _ | .intentAppended => true
  | _ => false

theorem PipelinePc.beforeExecute_of_append {pc : PipelinePc} {append : AppendPc}
    (hp : pc.append = some append) {status : AppendStatus}
    (h : (PipelineRun.afterAppend pc status).beforeExecute = true) : pc.beforeExecute = true := by
  cases pc <;> cases hp <;> cases status <;> first | rfl | cases h

namespace PipelineRun

/-- When a grant is revoked, no delivery that carries it is in the window. -/
def RevokedOutsideWindow (s : PipelineRun) : PipelineEvent → Prop
  | .revokeGrant grantId _ _ =>
    ∀ dlv ∈ s.deliveries, dlv.request.grantId = grantId → dlv.pc.beforeExecute = false
  | _ => True

instance (s : PipelineRun) : (e : PipelineEvent) → Decidable (s.RevokedOutsideWindow e)
  | .revokeGrant grantId _ _ => inferInstanceAs (Decidable (∀ dlv ∈ s.deliveries,
      dlv.request.grantId = grantId → dlv.pc.beforeExecute = false))
  | .deliver .. | .authorized .. | .validated .. | .start _ | .executed .. | .caught .. | .io ..
  | .revokeIo .. => isTrue trivial

/-- No `execute` of a request that carries a grant comes after the grant was revoked. -/
def RevocationIsBarrier (s : PipelineRun) : Prop :=
  s.trace.Pairwise fun a b => ∀ grantId i request, a = .revoked grantId → b = .started i →
    s.requests[i]? = some request → request.grantId ≠ grantId

structure BarrierInv (s : PipelineRun) : Prop where
  bounded : s.TraceBounded
  tombstone : ∀ g, .revoked g ∈ s.trace → s.world.mem.hasTombstone g = true
  window : ∀ g, .revoked g ∈ s.trace → ∀ dlv ∈ s.deliveries, dlv.request.grantId = g →
    dlv.pc.beforeExecute = false
  barrier : s.RevocationIsBarrier

variable {cfg : JournalConfig} {s s' : PipelineRun} {e : PipelineEvent}

theorem BarrierInv.init (cfg : JournalConfig) (d : Disk) : BarrierInv (.init cfg d) :=
  ⟨.init cfg d, fun _ h => absurd h List.not_mem_nil, fun _ h => absurd h List.not_mem_nil, List.Pairwise.nil⟩

theorem beforeExecute_of_step (h : s.step cfg e = some s') {dlv : Delivery}
    (hd : dlv ∈ s'.deliveries) (hw : dlv.pc.beforeExecute = true) : s.world.mem.hasTombstone dlv.request.grantId = false ∨
      ∃ dlv₀ ∈ s.deliveries, dlv₀.request = dlv.request ∧ dlv₀.pc.beforeExecute = true := by
  have hset : ∀ {i request pc pc₀}, s.deliveries[i]? = some ⟨request, pc₀⟩ →
      dlv ∈ s.deliveries.set i ⟨request, pc⟩ → (pc.beforeExecute = true → pc₀.beforeExecute = true) →
      ∃ dlv₀ ∈ s.deliveries, dlv₀.request = dlv.request ∧ dlv₀.pc.beforeExecute = true := by
    intro i request pc pc₀ hi hd himp
    rcases mem_or_eq_of_mem_set hd with hd | rfl
    · exact ⟨dlv, hd, rfl, hw⟩
    · exact ⟨_, mem_of_getElem? hi, rfl, himp hw⟩
  cases move_of_step h with
  | accept _ htomb =>
    rcases mem_concat_cases hd with hd | rfl
    · exact .inr ⟨dlv, hd, rfl, hw⟩
    · exact .inl htomb
  | turnAway =>
    rcases mem_concat_cases hd with hd | rfl
    · exact .inr ⟨dlv, hd, rfl, hw⟩
    · cases hw
  | authorized hi => exact .inr (hset hi hd (fun _ => rfl))
  | refused hi _ | checkThrew hi _ => exact .inr (hset hi hd nofun)
  | validated hi =>
    refine .inr ?_
    unfold PipelineRun.validated at hd
    split at hd
    · exact hset hi hd nofun
    · exact hset hi hd (fun _ => rfl)
  | start hi | succeed hi | fail hi _ => exact .inr (hset hi hd nofun)
  | io hi hp => exact .inr (hset hi hd (PipelinePc.beforeExecute_of_append hp))
  | revoke | revokeIo => exact .inr ⟨dlv, hd, rfl, hw⟩

theorem hasTombstone_of_revoke (h : s.step cfg e = some s') {g : String}
    (hg : s.Occurs e (.revoked g)) : s'.world.mem.hasTombstone g = true := by
  obtain ⟨policyVersion, now, rfl⟩ := hg
  cases h
  have hset : (s.world.mem.tombstones.set g ()).has g = true := by simp [OrderedMap.has]
  exact hset

theorem RevocationIsBarrier.step (hb : s.RevocationIsBarrier) (hbound : s.TraceBounded)
    (hw : ∀ g, .revoked g ∈ s.trace → ∀ dlv ∈ s.deliveries, dlv.request.grantId = g → dlv.pc.beforeExecute = false)
    (h : s.step cfg e = some s') : s'.RevocationIsBarrier := by
  obtain ⟨effects, htrace, -, hocc⟩ := trace_of_step h
  unfold RevocationIsBarrier
  rw [htrace, pairwise_append]
  refine ⟨?_, ?_, ?_⟩
  · -- the past: its envelopes are the same ones
    apply List.Pairwise.imp_of_mem _ hb
    intro a b _ hb' hab g i request ha hi hreq
    apply hab g i request ha hi
    rwa [hbound.request_eq h (mem_trace_of_step h hb') (hi ▸ rfl)] at hreq
  · -- one event does not both revoke and start
    apply pairwise_of_forall_mem_list
    intro a ha b hb' g i request hag hbi
    subst hag hbi
    obtain ⟨_, _, rfl⟩ := hocc _ ha
    obtain ⟨_, _, he⟩ := hocc _ hb'
    cases he
  · intro a ha b hb' g i request hag hbi hreq hgrant
    subst hag hbi
    obtain ⟨request', hi, -⟩ := hocc _ hb'
    obtain rfl : request' = request :=
      Option.some.inj ((getElem?_requests_of_step h (getElem?_requests hi)).symm.trans hreq)
    cases hw g ha _ (mem_of_getElem? hi) hgrant

theorem BarrierInv.step (hinv : BarrierInv s) (hok : s.RevokedOutsideWindow e) (h : s.step cfg e = some s') : BarrierInv s' := by
  obtain ⟨effects, htrace, -, hocc⟩ := trace_of_step h
  refine ⟨hinv.bounded.step h, ?_, ?_, hinv.barrier.step hinv.bounded hinv.window h⟩
  · intro g hg
    rw [htrace] at hg
    rcases mem_append.1 hg with hg | hg
    · exact hasTombstone_of_step h (hinv.tombstone g hg)
    · exact hasTombstone_of_revoke h (hocc _ hg)
  · intro g hg dlv hd hgrant
    rw [htrace] at hg
    by_contra hw
    rw [Bool.not_eq_false] at hw
    rcases mem_append.1 hg with hg | hg
    · -- revoked before: the window was empty of `g` and nothing with `g` can enter it
      rcases beforeExecute_of_step h hd hw with hno | ⟨dlv₀, hd₀, hreq, hw₀⟩
      · rw [hgrant, hinv.tombstone g hg] at hno
        cases hno
      · rw [hinv.window g hg dlv₀ hd₀ (hreq ▸ hgrant)] at hw₀
        cases hw₀
    · obtain ⟨policyVersion, now, rfl⟩ := hocc _ hg
      cases h
      rw [hok dlv hd hgrant] at hw
      cases hw

end PipelineRun

/-- Where no grant is revoked under a delivery in the window, revocation is a barrier. -/
theorem no_execute_after_revoke (cfg : JournalConfig) (d : Disk) {es : List PipelineEvent} {s : PipelineRun}
    (hmeet : StepsMeet (PipelineRun.step cfg) PipelineRun.RevokedOutsideWindow (.init cfg d) es)
    (hrun : exec (PipelineRun.step cfg) (.init cfg d) es = some s) : s.RevocationIsBarrier := by
  have hinv : PipelineRun.BarrierInv s :=
    exec_invariant (fun _ _ _ hi hok h => hi.step hok h) (.init cfg d) hmeet hrun
  exact hinv.barrier

/-- The audit is never rotated. -/
def unrotatedConfig : JournalConfig := ⟨"node", "epoch", 0⟩

/-- Delivery `i` of a command, up to the point where its intent is on disk. -/
def deliveredIntent (i : ℕ) (command : CommandEnvelope) : List PipelineEvent :=
  [.deliver command command.action epochStart, .authorized i .ok epochStart,
    .validated i .ok epochStart] ++ List.replicate 2 (.io i epochStart true)

/-- The grant is revoked while `execute` runs; the next delivery is turned away. -/
def revokedDuringExecute : List PipelineEvent :=
  deliveredIntent 0 skipCommand ++
  [.start 0, .revokeGrant "grant" none epochStart, .deliver skipCommand .skip epochStart]

theorem stepsMeet_revokedDuringExecute : StepsMeet (PipelineRun.step unrotatedConfig) PipelineRun.RevokedOutsideWindow
      (.init unrotatedConfig .empty) revokedDuringExecute := by
  decide +kernel

set_option maxRecDepth 100000 in
theorem no_execute_after_revoke_revokedDuringExecute : ∃ s,
    exec (PipelineRun.step unrotatedConfig) (.init unrotatedConfig .empty) revokedDuringExecute = some s ∧
    s.trace = [.passed 0, .intended 0, .started 0, .revoked "grant"] ∧ s.RevocationIsBarrier := by
  refine ⟨_, rfl, rfl, ?_⟩
  exact no_execute_after_revoke unrotatedConfig .empty stepsMeet_revokedDuringExecute rfl

def revokedBeforeExecute : List PipelineEvent :=
  deliveredIntent 0 skipCommand ++ [.revokeGrant "grant" none epochStart, .start 0]

set_option maxRecDepth 100000 in
theorem executed_after_revoke : ∃ s,
    exec (PipelineRun.step unrotatedConfig) (.init unrotatedConfig .empty) revokedBeforeExecute = some s ∧
    s.trace = [.passed 0, .intended 0, .revoked "grant", .started 0] ∧ s.requests = [skipCommand] ∧ ¬ s.RevocationIsBarrier := by
  refine ⟨_, rfl, rfl, rfl, fun hb => ?_⟩
  have htail := (pairwise_cons.1 (pairwise_cons.1 (pairwise_cons.1 hb).2).2).1
  exact htail _ mem_cons_self "grant" 0 skipCommand rfl rfl rfl rfl

end Kookr.Remote

/-! Terminal bytes leave the node only inside an approved window. The history of a run says
which install a scope stands on; every frame under the scope lies in its stream, above the
number the stream had at the install, and in time. The numbers of a session never repeat. -/

namespace Kookr.Remote

open Kookr.Lib SessionStreamPublisher PublicationRules

/-- The event installs the scope anew or revokes it. -/
def decidesScope (scope : String) : PublicationEvent → Bool
  | .installed rule => rule.publicationScopeId = scope
  | .revoked scope' => scope' = scope
  | _ => false

def seqIn (sessionId sessionEpoch : String) : PublicationEvent → Option ℕ
  | .chunk c => if c.sessionId = sessionId ∧ c.sessionEpoch = sessionEpoch then some c.seq else none
  | _ => none

/-- The number of the last data chunk of a stream, zero before the first. -/
def lastSeq (history : List PublicationEvent) (sessionId sessionEpoch : String) : ℕ :=
  (lastOf (seqIn sessionId sessionEpoch) history).getD 0

def demandFor (rule : TerminalPublicationRule) : PublicationEvent → Option TerminalDemandProof
  | .demanded input => if concerns input rule then some input.proof else none
  | _ => none

/-- The demand proof in force after the install of a rule. -/
def demandSince (rule : TerminalPublicationRule) (since : List PublicationEvent) : Option TerminalDemandProof :=
  (lastOf (demandFor rule) since).or rule.demandProof

/-- The scope stands on this install: nothing since has installed or revoked it. -/
structure StandsOn (history : List PublicationEvent) (scope : String) (before : List PublicationEvent)
    (rule : TerminalPublicationRule) (since : List PublicationEvent) : Prop where
  installed : history = before ++ .installed rule :: since
  forScope : rule.publicationScopeId = scope
  standing : ∀ e ∈ since, decidesScope scope e = false

/-- The frame lies in the window of the rule, whose expiry, when it has one, and whose
demand proof are dates later than now. -/
structure InWindow (dateParse : String → Option Timestamp) (nowMs : ℤ) (frame : PublishedFrame)
    (before : List PublicationEvent) (rule : TerminalPublicationRule) (since : List PublicationEvent) : Prop where
  sessionId : frame.event.sessionId = rule.sessionId
  sessionEpoch : frame.event.sessionEpoch = rule.sessionEpoch
  seq : lastSeq before rule.sessionId rule.sessionEpoch < frame.event.seq
  ruleUnexpired : ∀ text, rule.expiresAt = some text → text ≠ "" → ∃ t, dateParse text = some t ∧ nowMs < t.ms
  demandUnexpired : ∃ proof t, demandSince rule since = some proof ∧ dateParse proof.expiresAt = some t ∧ nowMs < t.ms

/-- Every frame of a chunk is of that chunk and lies in the window its scope stands on. -/
def ChunkApproved (dateParse : String → Option Timestamp) (past : List PublicationEvent) (e : PublicationEvent) : Prop :=
  ∀ c, e = .chunk c → ∀ frame ∈ c.frames,
    frame.event.sessionId = c.sessionId ∧ frame.event.sessionEpoch = c.sessionEpoch ∧ frame.event.seq = c.seq ∧
      ∃ before rule since, StandsOn past frame.publication.publicationScopeId before rule since ∧
        InWindow dateParse c.nowMs frame before rule since

def DistinctNumbers (e e' : PublicationEvent) : Prop :=
  ∀ c c', e = .chunk c → e' = .chunk c' → c.sessionId = c'.sessionId →
    (c.sessionEpoch, c.seq) ≠ (c'.sessionEpoch, c'.seq)

variable {history before since : List PublicationEvent} {scope sessionId sessionEpoch : String}
  {rule : TerminalPublicationRule} {e : PublicationEvent} {c : NumberedChunk}

theorem lastSeq_concat_chunk (c : NumberedChunk) :
    lastSeq (history ++ [.chunk c]) sessionId sessionEpoch =
      if c.sessionId = sessionId ∧ c.sessionEpoch = sessionEpoch then c.seq
      else lastSeq history sessionId sessionEpoch := by
  unfold lastSeq
  rw [lastOf_concat]
  simp only [seqIn]
  split <;> simp

theorem lastSeq_concat_of_not_chunk (h : ∀ c, e ≠ .chunk c) :
    lastSeq (history ++ [e]) sessionId sessionEpoch = lastSeq history sessionId sessionEpoch := by
  unfold lastSeq
  rw [lastOf_concat]
  cases e with
  | chunk c => exact absurd rfl (h c)
  | _ => simp [seqIn]

theorem demandSince_concat (rule : TerminalPublicationRule) (e : PublicationEvent) :
    demandSince rule (since ++ [e]) = (demandFor rule e).or (demandSince rule since) := by
  unfold demandSince
  rw [lastOf_concat, Option.or_assoc]

theorem StandsOn.concat (h : StandsOn history scope before rule since) (he : decidesScope scope e = false) :
    StandsOn (history ++ [e]) scope before rule (since ++ [e]) := by
  refine ⟨?_, h.forScope, ?_⟩
  · rw [h.installed, List.append_assoc, List.cons_append]
  · intro e' he'
    rcases mem_concat_cases he' with hmem | rfl
    · exact h.standing e' hmem
    · exact he

/-- A rule of the gate is the install its scope stands on, with the demand since. -/
def RuleExplained (history : List PublicationEvent) (scope : String) (rule : TerminalPublicationRule) : Prop :=
  ∃ before installed since, StandsOn history scope before installed since ∧
    rule = { installed with demandProof := demandSince installed since } ∧
    installed.minSeqExclusive = lastSeq before installed.sessionId installed.sessionEpoch

/-- The stream has the session's last epoch and goes on after its last chunk. -/
def StreamExplained (p : SessionStreamPublisher) (id : String) (st : SessionStreamState) : Prop :=
  st.sessionId = id ∧ (∃ n, p.lastEpochBySession.get id = some n ∧ st.sessionEpoch = toString n) ∧
    st.nextSeq = lastSeq p.history id st.sessionEpoch + 1

/-- The chunk has an epoch the session has reached, and no number above the last. -/
def ChunkExplained (p : SessionStreamPublisher) (c : NumberedChunk) : Prop :=
  (∃ n last, p.lastEpochBySession.get c.sessionId = some last ∧ n ≤ last ∧ c.sessionEpoch = toString n) ∧
    c.seq ≤ lastSeq p.history c.sessionId c.sessionEpoch

structure WindowInv (opts : PublisherOptions) (p : SessionStreamPublisher) : Prop where
  approved : Along (ChunkApproved opts.dateParse) p.history
  distinct : p.history.Pairwise DistinctNumbers
  rules : ∀ scope rule, p.rules.get scope = some rule → RuleExplained p.history scope rule
  streams : ∀ id st, p.states.get id = some st → StreamExplained p id st
  chunks : ∀ c, .chunk c ∈ p.history → ChunkExplained p c

variable {opts : PublisherOptions} {p p' : SessionStreamPublisher}

theorem WindowInv.initial : WindowInv opts .initial := by
  refine ⟨along_nil, List.Pairwise.nil, ?_, ?_, ?_⟩
  · intro scope rule h
    cases h
  · intro id st h
    cases h
  · intro c h
    cases h

section

variable (h : WindowInv opts p)
include h

theorem WindowInv.of_fewer_streams (hrules : p'.rules = p.rules)
    (hepochs : p'.lastEpochBySession = p.lastEpochBySession) (hhistory : p'.history = p.history)
    (hstates : ∀ id st, p'.states.get id = some st → p.states.get id = some st) : WindowInv opts p' := by
  refine ⟨hhistory ▸ h.approved, hhistory ▸ h.distinct, ?_, ?_, ?_⟩
  · rw [hrules, hhistory]
    exact h.rules
  · intro id st hst
    have hold := h.streams id st (hstates id st hst)
    unfold StreamExplained at hold ⊢
    rwa [hepochs, hhistory]
  · intro c hc
    rw [hhistory] at hc
    have hold := h.chunks c hc
    unfold ChunkExplained at hold ⊢
    rwa [hepochs, hhistory]

theorem WindowInv.record_of_not_chunk (he : ∀ c, e ≠ .chunk c) {rules : PublicationRules}
    (hrules : ∀ scope rule, rules.get scope = some rule → RuleExplained (p.history ++ [e]) scope rule) :
    WindowInv opts (({ p with rules := rules }).record e) := by
  refine ⟨?_, ?_, hrules, ?_, ?_⟩
  · exact h.approved.concat fun c hc => absurd hc (he c)
  · refine List.pairwise_append.2 ⟨h.distinct, List.pairwise_singleton _ _, ?_⟩
    intro e₁ _ e₂ he₂ c c' _ hc'
    rw [List.mem_singleton.1 he₂] at hc'
    exact absurd hc' (he c')
  · intro id st hst
    obtain ⟨hid, hepoch, hnext⟩ := h.streams id st hst
    refine ⟨hid, hepoch, ?_⟩
    rw [hnext]
    exact congrArg (· + 1) (lastSeq_concat_of_not_chunk he).symm
  · intro c hc
    rcases mem_concat_cases hc with hc | hc
    · obtain ⟨hepoch, hseq⟩ := h.chunks c hc
      exact ⟨hepoch, hseq.trans_eq (lastSeq_concat_of_not_chunk he).symm⟩
    · exact absurd hc.symm (he c)

theorem WindowInv.install (rule : TerminalPublicationRule) : WindowInv opts (p.installPublicationRule rule).2 := by
  unfold installPublicationRule
  obtain ⟨refusal, heq⟩ | ⟨cursor, hcursor, hepoch, heq⟩ :=
    installRule_cases p.rules { rule with minSeqExclusive := 0 } (p.currentCursor rule.sessionId)
  · rw [heq]
    exact h
  rw [heq]
  refine h.record_of_not_chunk (by simp) ?_
  intro scope rule' hget
  rcases OrderedMap.get_set_some hget with ⟨hscope, rfl⟩ | ⟨hscope, hget⟩
  · obtain ⟨st, hst, rfl⟩ := Option.map_eq_some_iff.1 hcursor
    obtain ⟨-, -, hnext⟩ := h.streams rule.sessionId st hst
    refine ⟨p.history, _, [], ⟨rfl, hscope, by simp⟩, rfl, ?_⟩
    dsimp only at hepoch ⊢
    rw [hnext, hepoch]
    rfl
  · obtain ⟨before, installed, since, hstands, hrule, hseq⟩ := h.rules scope rule' hget
    refine ⟨before, installed, since ++ [_], hstands.concat (by simpa [decidesScope] using hscope), ?_, hseq⟩
    rw [demandSince_concat]
    exact hrule

theorem WindowInv.recordDemand (input : DemandProofInput) : WindowInv opts (p.recordDemandProof opts input).2 := by
  unfold SessionStreamPublisher.recordDemandProof
  dsimp only
  split
  · rename_i hdate
    refine h.record_of_not_chunk (by simp) ?_
    intro scope rule' hget
    rw [get_recordDemandProof hdate] at hget
    obtain ⟨rule, hold, rfl⟩ := Option.map_eq_some_iff.1 hget
    obtain ⟨before, installed, since, hstands, hrule, hseq⟩ := h.rules scope rule hold
    refine ⟨before, installed, since ++ [.demanded input], hstands.concat rfl, ?_, hseq⟩
    have hconcerns : concerns input rule = concerns input installed := by
      rw [hrule]
      rfl
    simp only [demandSince_concat, demandedBy, demandFor, hconcerns]
    by_cases hinput : concerns input installed = true
    · simp only [hinput, if_true, Option.some_or, hrule]
    · simp only [hinput, Bool.false_eq_true, if_false, Option.none_or, hrule]
  · rename_i hdate
    have hsame : (p.rules.recordDemandProof opts.dateParse input).2 = p.rules := by
      unfold PublicationRules.recordDemandProof
      rw [if_pos (by simpa using hdate)]
    exact h.of_fewer_streams hsame rfl rfl fun _ _ hst => hst

theorem WindowInv.revoke (scope : String) : WindowInv opts (p.revokePublicationScope scope) := by
  refine h.record_of_not_chunk (by simp) ?_
  intro scope' rule hget
  obtain ⟨hscope, hget⟩ := OrderedMap.get_delete_some hget
  obtain ⟨before, installed, since, hstands, hrule, hseq⟩ := h.rules scope' rule hget
  refine ⟨before, installed, since ++ [_], hstands.concat (by simpa [decidesScope] using hscope), ?_, hseq⟩
  rw [demandSince_concat]
  exact hrule

/-- A candidate of the gate stands on an install and its window. -/
theorem WindowInv.candidate {nowMs : ℤ} {event : TerminalBytesEvent} {candidate : TerminalPublicationCandidate}
    (hmem : candidate ∈ p.rules.metadataForEvent opts.dateParse nowMs event.sessionId event.sessionEpoch event.seq)
    {reads : ℕ} {frame : PublishedFrame} (hframe : frameFor opts reads event candidate = some frame) :
    ∃ before rule since, StandsOn p.history frame.publication.publicationScopeId before rule since ∧
      InWindow opts.dateParse nowMs frame before rule since := by
  obtain ⟨scope, rule, hget, hcandidate⟩ := mem_metadataForEvent hmem
  obtain ⟨hscope, hsession, hepoch, hseq, hexpiry, hdemand⟩ := candidateFor_eq_some hcandidate
  obtain ⟨before, installed, since, hstands, rfl, hmin⟩ := h.rules scope rule hget
  obtain ⟨hfsession, hfepoch, hfseq, hfscope⟩ := frameFor_eq_some hframe
  refine ⟨before, installed, since, ⟨hstands.installed, ?_, ?_⟩, ⟨?_, ?_, ?_, ?_, ?_⟩⟩
  · rw [hfscope, hscope]
  · rw [hfscope, hscope]
    intro e he
    rw [show _ = scope from hstands.forScope]
    exact hstands.standing e he
  · rw [hfsession, ← hsession]
  · rw [hfepoch, ← hepoch]
  · rw [hfseq, ← hmin]
    exact hseq
  · exact ruleUnexpired_iff.1 hexpiry
  · exact demandUnexpired_iff.1 hdemand

theorem WindowInv.record_chunk {id : String} {st st' : SessionStreamState}
    (hst : p.states.get id = some st) (hsame : SameNumbering { st with nextSeq := st.nextSeq + 1 } st')
    {q : SessionStreamPublisher} (hq : SameStreams p q) {nowMs : ℤ} {frames : List PublishedFrame}
    (happroved : ∀ frame ∈ frames, frame.event.sessionId = st.sessionId ∧ frame.event.sessionEpoch = st.sessionEpoch ∧
      frame.event.seq = st.nextSeq ∧ ∃ before rule since,
        StandsOn p.history frame.publication.publicationScopeId before rule since ∧
          InWindow opts.dateParse nowMs frame before rule since) :
    WindowInv opts (({ q with states := q.states.set id st' }).record
      (.chunk ⟨st.sessionId, st.sessionEpoch, st.nextSeq, nowMs, frames⟩)) := by
  obtain ⟨hid, ⟨n, hn, hepoch⟩, hnext⟩ := h.streams id st hst
  have hbelow : ∀ c, .chunk c ∈ p.history → c.sessionId = st.sessionId → c.sessionEpoch = st.sessionEpoch →
      c.seq < st.nextSeq := by
    intro c hc hcid hcepoch
    have hseq := (h.chunks c hc).2
    rw [hcid, hid, hcepoch] at hseq
    omega
  obtain ⟨hrules, hstates, hepochs, hhistory⟩ := hq
  refine ⟨?_, ?_, ?_, ?_, ?_⟩ <;> dsimp only [SessionStreamPublisher.record]
  · rw [hhistory]
    refine h.approved.concat ?_
    intro c hc
    cases hc
    exact happroved
  · rw [hhistory, List.pairwise_append]
    refine ⟨h.distinct, List.pairwise_singleton _ _, ?_⟩
    intro e he e' he' c c' hc hc' hcid heq
    rw [List.mem_singleton.1 he'] at hc'
    cases hc'
    rw [Prod.mk.injEq] at heq
    exact absurd heq.2 (hbelow c (hc ▸ he) hcid heq.1).ne
  · intro scope rule hget
    rw [hrules] at hget
    obtain ⟨before, installed, since, hstands, hrule, hmin⟩ := h.rules scope rule hget
    rw [hhistory]
    exact ⟨before, installed, since ++ [_], hstands.concat rfl, by rw [demandSince_concat]; exact hrule, hmin⟩
  · intro id' st₁ hst₁
    rw [hstates, OrderedMap.get_set] at hst₁
    unfold StreamExplained
    rw [hepochs, hhistory, lastSeq_concat_chunk]
    split at hst₁
    · rename_i hid'
      cases hst₁
      subst hid'
      refine ⟨hsame.sessionId.trans hid, ⟨n, hn, hsame.sessionEpoch.trans hepoch⟩, ?_⟩
      rw [if_pos ⟨hid, hsame.sessionEpoch.symm⟩, hsame.nextSeq]
    · rename_i hid'
      rw [if_neg fun hboth => hid' (hid.symm.trans hboth.1)]
      exact h.streams id' st₁ hst₁
  · intro c hc
    rw [hhistory] at hc
    unfold ChunkExplained
    rw [hepochs, hhistory, lastSeq_concat_chunk]
    rcases mem_concat_cases hc with hc | hc
    · refine ⟨(h.chunks c hc).1, ?_⟩
      split
      · rename_i hboth
        exact (hbelow c hc hboth.1.symm hboth.2.symm).le
      · exact (h.chunks c hc).2
    · cases hc
      refine ⟨⟨n, n, ?_, le_rfl, hepoch⟩, ?_⟩
      · rw [hid]
        exact hn
      · rw [if_pos ⟨rfl, rfl⟩]

theorem WindowInv.publishBytes {id : String} {st : SessionStreamState}
    (hst : p.states.get id = some st) (data : List UInt8) : WindowInv opts (p.publishBytes opts id st data) := by
  obtain ⟨hframes, hsame, hstreams⟩ := publishFrames_spec opts (eventFor opts p.reads st data)
    (p.rules.metadataForEvent opts.dateParse (opts.now p.read.reads).ms st.sessionId st.sessionEpoch st.nextSeq)
    { st with nextSeq := st.nextSeq + 1 } p.read.read
  have hread : SameStreams p p.read.read := ⟨rfl, rfl, rfl, rfl⟩
  refine h.record_chunk hst hsame (hread.trans hstreams) ?_
  intro frame hframe
  obtain ⟨candidate, hcandidate, reads, hfor⟩ := hframes frame hframe
  obtain ⟨hsession, hepoch, hseq, -⟩ := frameFor_eq_some hfor
  exact ⟨hsession, hepoch, hseq, h.candidate hcandidate hfor⟩

variable (id : String)

theorem WindowInv.onData (subscription : ℕ) (data : List UInt8) :
    WindowInv opts (p.onData opts id subscription data) := by
  unfold SessionStreamPublisher.onData
  split
  · exact h
  · rename_i st hst
    split
    · exact h.publishBytes hst data
    · exact h

theorem WindowInv.onData_foldl (subscription : ℕ) (chunks : List (List UInt8)) :
    WindowInv opts (chunks.foldl (SessionStreamPublisher.onData opts id subscription) p) := by
  induction chunks generalizing p with
  | nil => exact h
  | cons data chunks ih => exact ih (h.onData id subscription data)

/-- The epoch is new, so no chunk of the session has it yet. -/
theorem WindowInv.enterProvisional : WindowInv opts (p.enterProvisional id) := by
  have hnone : lastSeq p.history id (toString (p.nextEpoch id)) = 0 := by
    unfold lastSeq
    rw [lastOf_eq_none, Option.getD_none]
    intro e he
    cases e with
    | chunk c =>
      refine if_neg ?_
      rintro ⟨rfl, hsame⟩
      obtain ⟨⟨n, last, hlast, hle, hcepoch⟩, -⟩ := h.chunks c he
      have heq := toString_nat_injective (hsame.symm.trans hcepoch)
      unfold nextEpoch at heq
      rw [hlast, Option.getD_some] at heq
      omega
    | _ => rfl
  refine ⟨h.approved, h.distinct, h.rules, ?_, ?_⟩
  · intro id' st' hst'
    unfold SessionStreamPublisher.enterProvisional StreamExplained at *
    rw [OrderedMap.get_set] at hst' ⊢
    split at hst'
    · rename_i hid
      cases hst'
      subst hid
      rw [if_pos rfl]
      exact ⟨rfl, ⟨p.nextEpoch id, rfl, rfl⟩, by rw [provisionalState, hnone]⟩
    · rename_i hid
      rw [if_neg hid]
      exact h.streams id' st' hst'
  · intro c hc
    obtain ⟨⟨n, last, hlast, hle, hcepoch⟩, hseq⟩ := h.chunks c hc
    unfold SessionStreamPublisher.enterProvisional ChunkExplained
    rw [OrderedMap.get_set]
    refine ⟨?_, hseq⟩
    split
    · rename_i hid
      refine ⟨n, p.nextEpoch id, rfl, ?_, hcepoch⟩
      unfold nextEpoch
      rw [hid, hlast, Option.getD_some]
      omega
    · exact ⟨n, last, hlast, hle, hcepoch⟩

theorem WindowInv.subscribe (call : OnDataCall) : WindowInv opts (p.subscribe opts id call).2 := by
  unfold SessionStreamPublisher.subscribe
  split
  · exact h
  · have hbegun := (h.enterProvisional id).onData_foldl id p.subscriptions call.chunks
    split
    · refine hbegun.of_fewer_streams rfl rfl rfl ?_
      intro id' st hst
      exact (OrderedMap.get_delete_some hst).2
    · exact hbegun

theorem WindowInv.subscribeAll (calls : String → OnDataCall) (ids : List String) :
    WindowInv opts (subscribeAll opts calls ids p) := by
  induction ids generalizing p with
  | nil => exact h
  | cons id ids ih =>
    have hnext := h.subscribe id (calls id)
    unfold SessionStreamPublisher.subscribeAll
    split <;> rename_i p' heq <;> rw [heq] at hnext
    · exact hnext
    · exact ih hnext

theorem WindowInv.unsubscribeMissing (alive : List String) : WindowInv opts (p.unsubscribeMissing alive) := by
  refine h.of_fewer_streams rfl rfl rfl ?_
  intro id st hst
  unfold SessionStreamPublisher.unsubscribeMissing at hst
  rw [OrderedMap.get_filter] at hst
  exact (Option.filter_eq_some_iff.1 hst).1

theorem WindowInv.streamGap : WindowInv opts (p.streamGap id) := by
  unfold SessionStreamPublisher.streamGap
  split
  · split
    · exact h
    · refine h.of_fewer_streams rfl rfl rfl ?_
      intro id' st' hst'
      exact (OrderedMap.get_delete_some hst').2
  · exact h

theorem WindowInv.syncSessions : WindowInv opts (p.syncSessions opts) := by
  unfold SessionStreamPublisher.syncSessions
  split
  · exact h
  · exact h.of_fewer_streams rfl rfl rfl fun _ _ hst => hst

theorem WindowInv.start : WindowInv opts (p.start opts) := by
  unfold SessionStreamPublisher.start
  split
  · split
    · exact h
    · exact h.of_fewer_streams rfl rfl rfl fun _ _ hst => hst
  · exact WindowInv.syncSessions (h.of_fewer_streams rfl rfl rfl fun _ _ hst => hst)

theorem WindowInv.step (event : SessionStreamPublisher.Event) : WindowInv opts (p.step opts event) := by
  cases event with
  | start => exact h.start
  | stop => exact h.of_fewer_streams rfl rfl rfl nofun
  | syncSessions => exact h.syncSessions
  | sessionsListed sessions calls =>
    unfold SessionStreamPublisher.step SessionStreamPublisher.sessionsListed
    dsimp only
    split
    · exact h
    · have hlisted : WindowInv opts { p with listing := p.listing - 1 } :=
        h.of_fewer_streams rfl rfl rfl fun _ _ hst => hst
      exact (hlisted.unsubscribeMissing _).subscribeAll calls _
  | streamGap id => exact h.streamGap id
  | data id subscription bytes => exact h.onData id subscription bytes
  | installPublicationRule rule => exact h.install rule
  | recordDemandProof input => exact h.recordDemand input
  | revokePublicationScope scope => exact h.revoke scope

end

theorem WindowInv.run (events : List SessionStreamPublisher.Event) : WindowInv opts (run opts events) := by
  have hfold : ∀ p, WindowInv opts p → WindowInv opts (events.foldl (SessionStreamPublisher.step opts) p) := by
    induction events with
    | nil => exact fun p h => h
    | cons event events ih => exact fun p h => ih _ (h.step event)
  exact hfold _ .initial

/-- In every run, every frame under a scope lies in the window of the install the scope
stands on, and no two chunks of a session have the same epoch and number. -/
theorem publishes_in_approved_window (opts : PublisherOptions) (events : List SessionStreamPublisher.Event) :
    Along (ChunkApproved opts.dateParse) (run opts events).history ∧ (run opts events).history.Pairwise DistinctNumbers :=
  ⟨(WindowInv.run events).approved, (WindowInv.run events).distinct⟩

end Kookr.Remote
