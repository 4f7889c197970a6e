import Kookr.Spec.Remote.SessionStreamPublisher

/-! What the gate holds after a demand, which rules let an event through, and what the
publishing loop leaves as it was. -/

namespace Kookr.Remote

open Kookr.Lib List

theorem toString_nat_injective {m n : ℕ} (h : toString m = toString n) : m = n := by
  have hdigits : Nat.toDigits 10 m = Nat.toDigits 10 n := by
    rw [← Nat.toList_repr, ← Nat.toList_repr]
    exact congrArg String.toList h
  rw [← Nat.ofDigitChars_ten_toDigits (n := m), ← Nat.ofDigitChars_ten_toDigits (n := n), hdigits]

namespace PublicationRules

theorem installRule_cases (rules : PublicationRules) (input : TerminalPublicationRule) (currentSession : Option SessionCursor) :
    (∃ refusal, rules.installRule input currentSession = (.error refusal, rules)) ∨
      ∃ cursor, currentSession = some cursor ∧ cursor.sessionEpoch = input.sessionEpoch ∧
        rules.installRule input currentSession = (.ok { input with minSeqExclusive := cursor.lastSeq },
          rules.set input.publicationScopeId { input with minSeqExclusive := cursor.lastSeq }) := by
  unfold installRule
  split
  · exact .inl ⟨_, rfl⟩
  split
  · exact .inl ⟨_, rfl⟩
  rename_i cursor
  split
  · exact .inl ⟨_, rfl⟩
  · rename_i hepoch
    exact .inr ⟨cursor, rfl, not_not.1 hepoch, rfl⟩

/-- The demand stands in every rule it concerns. -/
def demandedBy (input : DemandProofInput) (rule : TerminalPublicationRule) : TerminalPublicationRule :=
  if concerns input rule then { rule with demandProof := some input.proof } else rule

theorem get_foldl_recordDemandFor (input : DemandProofInput) (entries : List (String × TerminalPublicationRule))
    (hnodup : (entries.map Prod.fst).Nodup) (acc : Bool × PublicationRules)
    (hacc : ∀ e ∈ entries, acc.2.get e.1 = some e.2) (scope : String) :
    (entries.foldl (recordDemandFor input) acc).2.get scope =
      if scope ∈ entries.map Prod.fst then (acc.2.get scope).map (demandedBy input) else acc.2.get scope := by
  induction entries generalizing acc with
  | nil => simp
  | cons e entries ih =>
    rw [map_cons, nodup_cons] at hnodup
    have hget : ∀ s, (recordDemandFor input acc e).2.get s =
        if e.1 = s then some (demandedBy input e.2) else acc.2.get s := by
      intro s
      unfold recordDemandFor demandedBy
      split
      · exact OrderedMap.get_set _ _ _ _
      · split
        · rename_i hs
          rw [← hs]
          exact hacc e mem_cons_self
        · rfl
    have hne : ∀ e' ∈ entries, e.1 ≠ e'.1 := by
      intro e' he' heq
      exact hnodup.1 (heq ▸ mem_map_of_mem he')
    rw [foldl_cons, ih hnodup.2 _ fun e' he' => by
      rw [hget, if_neg (hne e' he')]
      exact hacc e' (mem_cons_of_mem _ he')]
    rw [hget, map_cons]
    by_cases hs : e.1 = scope
    · subst hs
      rw [if_neg hnodup.1, if_pos rfl, if_pos mem_cons_self, hacc e mem_cons_self]
      rfl
    · simp only [hs, if_false, mem_cons, Ne.symm hs, false_or]

theorem get_recordDemandProof {dateParse : String → Option Timestamp} {rules : PublicationRules}
    {input : DemandProofInput} (hdate : (dateParse input.proof.expiresAt).isSome) (scope : String) :
    (rules.recordDemandProof dateParse input).2.get scope = (rules.get scope).map (demandedBy input) := by
  unfold recordDemandProof
  rw [if_neg (by simpa using Option.isSome_iff_ne_none.1 hdate),
    get_foldl_recordDemandFor input _ rules.nodup _
      fun e he => (OrderedMap.get_eq_some_iff rules e.1 e.2).2 he]
  split
  · rfl
  · rename_i hscope
    rw [(OrderedMap.get_eq_none_iff rules scope).2 hscope]
    rfl

variable {dateParse : String → Option Timestamp} {nowMs : ℤ}

theorem isLater_iff {text : String} : isLater dateParse nowMs text = true ↔ ∃ t, dateParse text = some t ∧ nowMs < t.ms := by
  unfold isLater
  cases dateParse text <;> simp

theorem ruleUnexpired_iff {expiresAt : Option String} : ruleUnexpired dateParse nowMs expiresAt = true ↔
      ∀ text, expiresAt = some text → text ≠ "" → ∃ t, dateParse text = some t ∧ nowMs < t.ms := by
  cases expiresAt with
  | none => simp [ruleUnexpired]
  | some text =>
    simp only [ruleUnexpired, Bool.or_eq_true, decide_eq_true_eq, isLater_iff, Option.some.injEq, forall_eq', ne_eq]
    exact or_iff_not_imp_left

theorem demandUnexpired_iff {demandProof : Option TerminalDemandProof} : demandUnexpired dateParse nowMs demandProof = true ↔
      ∃ proof t, demandProof = some proof ∧ dateParse proof.expiresAt = some t ∧ nowMs < t.ms := by
  cases demandProof with
  | none => simp [demandUnexpired]
  | some proof => simp [demandUnexpired, isLater_iff]

theorem candidateFor_eq_some {sessionId sessionEpoch : String} {seq : ℕ} {rule : TerminalPublicationRule}
    {candidate : TerminalPublicationCandidate}
    (h : candidateFor dateParse nowMs sessionId sessionEpoch seq rule = some candidate) :
    candidate.publicationScopeId = rule.publicationScopeId ∧ rule.sessionId = sessionId ∧
      rule.sessionEpoch = sessionEpoch ∧ rule.minSeqExclusive < seq ∧ ruleUnexpired dateParse nowMs rule.expiresAt = true ∧
      demandUnexpired dateParse nowMs rule.demandProof = true := by
  unfold candidateFor at h
  split at h
  · cases h
  rename_i hsession
  split at h
  · cases h
  rename_i hseq
  split at h
  · cases h
  rename_i hrule
  split at h
  · cases h
  rename_i hdemand
  cases h
  rw [not_or, not_not, not_not] at hsession
  exact ⟨rfl, hsession.1, hsession.2, Nat.lt_of_not_le hseq, not_not.1 hrule, not_not.1 hdemand⟩

theorem mem_metadataForEvent {rules : PublicationRules} {sessionId sessionEpoch : String} {seq : ℕ}
    {candidate : TerminalPublicationCandidate}
    (h : candidate ∈ rules.metadataForEvent dateParse nowMs sessionId sessionEpoch seq) :
    ∃ scope rule, rules.get scope = some rule ∧
      candidateFor dateParse nowMs sessionId sessionEpoch seq rule = some candidate := by
  obtain ⟨rule, hrule, hcandidate⟩ := mem_filterMap.1 h
  obtain ⟨scope, hget⟩ := (OrderedMap.mem_values_iff rules rule).1 hrule
  exact ⟨scope, rule, hget, hcandidate⟩

end PublicationRules

namespace SessionStreamPublisher

variable (opts : PublisherOptions) (p : SessionStreamPublisher) (st : SessionStreamState)

/-- The rules, the streams and the history are the same. -/
structure SameStreams (p p' : SessionStreamPublisher) : Prop where
  rules : p'.rules = p.rules
  states : p'.states = p.states
  lastEpochBySession : p'.lastEpochBySession = p.lastEpochBySession
  history : p'.history = p.history

theorem SameStreams.refl : SameStreams p p := ⟨rfl, rfl, rfl, rfl⟩

theorem SameStreams.trans {p p' p'' : SessionStreamPublisher} (h : SameStreams p p') (h' : SameStreams p' p'') :
    SameStreams p p'' :=
  ⟨h'.rules.trans h.rules, h'.states.trans h.states, h'.lastEpochBySession.trans h.lastEpochBySession,
    h'.history.trans h.history⟩

structure SameNumbering (st st' : SessionStreamState) : Prop where
  sessionId : st'.sessionId = st.sessionId
  sessionEpoch : st'.sessionEpoch = st.sessionEpoch
  nextSeq : st'.nextSeq = st.nextSeq

theorem SameNumbering.refl : SameNumbering st st := ⟨rfl, rfl, rfl⟩

theorem SameNumbering.trans {st st' st'' : SessionStreamState} (h : SameNumbering st st')
    (h' : SameNumbering st' st'') : SameNumbering st st'' :=
  ⟨h'.sessionId.trans h.sessionId, h'.sessionEpoch.trans h.sessionEpoch, h'.nextSeq.trans h.nextSeq⟩

theorem notePublishDrop_same : SameNumbering st (notePublishDrop opts p st).1 ∧ SameStreams p (notePublishDrop opts p st).2 := by
  unfold notePublishDrop
  dsimp only
  split <;> exact ⟨⟨rfl, rfl, rfl⟩, ⟨rfl, rfl, rfl, rfl⟩⟩

theorem callPublish_same : SameNumbering st (callPublish opts p st).1 ∧ SameStreams p (callPublish opts p st).2 := by
  have hread : SameStreams p p.read := ⟨rfl, rfl, rfl, rfl⟩
  unfold callPublish
  split
  · exact ⟨.refl st, hread⟩
  · obtain ⟨hst, hp⟩ := notePublishDrop_same opts p.read st
    exact ⟨hst, hread.trans hp⟩

theorem frameFor_eq_some {opts : PublisherOptions} {reads : ℕ} {event : TerminalBytesEvent} {publication : TerminalPublicationCandidate}
    {frame : PublishedFrame} (h : frameFor opts reads event publication = some frame) :
    frame.event.sessionId = event.sessionId ∧ frame.event.sessionEpoch = event.sessionEpoch ∧
      frame.event.seq = event.seq ∧ frame.publication.publicationScopeId = publication.publicationScopeId := by
  unfold frameFor at h
  split at h
  · obtain ⟨encrypted, -, rfl⟩ := Option.map_eq_some_iff.1 h
    exact ⟨rfl, rfl, rfl, rfl⟩
  · cases h
    exact ⟨rfl, rfl, rfl, rfl⟩
  · cases h
    exact ⟨rfl, rfl, rfl, rfl⟩

theorem publishFrames_spec (event : TerminalBytesEvent) (publications : List TerminalPublicationCandidate)
    (st : SessionStreamState) (p : SessionStreamPublisher) :
    (∀ frame ∈ (publishFrames opts event publications st p).1, ∃ publication ∈ publications, ∃ reads,
        frameFor opts reads event publication = some frame) ∧ SameNumbering st (publishFrames opts event publications st p).2.1 ∧
      SameStreams p (publishFrames opts event publications st p).2.2 := by
  induction publications generalizing st p with
  | nil => exact ⟨fun _ h => absurd h not_mem_nil, .refl st, .refl p⟩
  | cons publication rest ih =>
    unfold publishFrames
    split
    · exact ⟨fun _ h => absurd h not_mem_nil, .refl st, ⟨rfl, rfl, rfl, rfl⟩⟩
    · rename_i frame hframe
      obtain ⟨hst, hp⟩ := callPublish_same opts p st
      obtain ⟨hframes, hst', hp'⟩ := ih (callPublish opts p st).1 (callPublish opts p st).2
      refine ⟨fun f hf => ?_, hst.trans hst', hp.trans hp'⟩
      rcases mem_cons.1 hf with rfl | hf
      · exact ⟨publication, mem_cons_self, p.reads, hframe⟩
      · obtain ⟨c, hc, reads, hreads⟩ := hframes f hf
        exact ⟨c, mem_cons_of_mem _ hc, reads, hreads⟩

end SessionStreamPublisher

end Kookr.Remote
