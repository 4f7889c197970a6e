import Kookr.Lib.OrderedMap
import Kookr.Lib.IsoDate

/-! The gate between a terminal stream and the relay
(`src/remote/terminal-publication-gate.ts`): the approved scopes and the demand for them.
`Date.parse` is a parameter, since its answer on free text differs between engines; text
that is no date has none. -/

namespace Kookr.Remote

open Kookr.Lib

inductive TerminalPublicationPrincipal where
  | contactDevice (contactId deviceId : String)
  | guestMember (invitationId memberSessionId deviceId : String)
  deriving DecidableEq

inductive TerminalDemandProof where
  | recipientSignedHeartbeat (heartbeatKeyId expiresAt : String)
  | guestRelayPresence (expiresAt : String)
  deriving DecidableEq

def TerminalDemandProof.expiresAt : TerminalDemandProof → String
  | recipientSignedHeartbeat _ expiresAt => expiresAt
  | guestRelayPresence expiresAt => expiresAt

inductive RuleStreamEncryption where
  | contactE2ee (recipientDeviceId recipientPublicKey streamKeyId : String)
  | guestTransport (memberSessionId : String)
  deriving DecidableEq

structure TerminalPublicationRule where
  publicationScopeId : String
  principal : TerminalPublicationPrincipal
  sessionId : String
  sessionEpoch : String
  approvedAt : String
  policyVersion : ℕ
  minSeqExclusive : ℕ
  streamEncryption : Option RuleStreamEncryption
  demandProof : Option TerminalDemandProof
  expiresAt : Option String
  deriving DecidableEq

structure SessionCursor where
  sessionEpoch : String
  lastSeq : ℕ
  deriving DecidableEq

inductive InstallRefusal where
  | sessionChanged
  | invalidScope
  deriving DecidableEq

structure DemandProofInput where
  principal : TerminalPublicationPrincipal
  sessionId : String
  sessionEpoch : String
  proof : TerminalDemandProof
  deriving DecidableEq

structure TerminalPublicationCandidate where
  publicationScopeId : String
  principal : TerminalPublicationPrincipal
  policyVersion : ℕ
  streamEncryption : Option RuleStreamEncryption
  deriving DecidableEq

abbrev PublicationRules := OrderedMap String TerminalPublicationRule

/-- The characters that `String.prototype.trim` removes. -/
def isTrimmed (c : Char) : Bool :=
  c.toNat ∈ [0x9, 0xA, 0xB, 0xC, 0xD, 0x20, 0xA0, 0x1680, 0x2028, 0x2029, 0x202F, 0x205F, 0x3000, 0xFEFF] ||
    (0x2000 ≤ c.toNat && c.toNat ≤ 0x200A)

/-- Nothing is left of the text when it is trimmed. -/
def isBlank (text : String) : Bool := text.toList.all isTrimmed

def samePrincipal : TerminalPublicationPrincipal → TerminalPublicationPrincipal → Bool
  | .contactDevice contactId deviceId, .contactDevice contactId' deviceId' =>
    contactId = contactId' && deviceId = deviceId'
  | .guestMember invitationId memberSessionId deviceId, .guestMember invitationId' memberSessionId' deviceId' =>
    invitationId = invitationId' && memberSessionId = memberSessionId' && deviceId = deviceId'
  | _, _ => false

namespace PublicationRules

def installRule (rules : PublicationRules) (input : TerminalPublicationRule) (currentSession : Option SessionCursor) :
    Except InstallRefusal TerminalPublicationRule × PublicationRules :=
  if isBlank input.publicationScopeId then (.error .invalidScope, rules)
  else match currentSession with
    | none => (.error .sessionChanged, rules)
    | some cursor =>
      if cursor.sessionEpoch ≠ input.sessionEpoch then (.error .sessionChanged, rules)
      else
        let rule := { input with minSeqExclusive := cursor.lastSeq }
        (.ok rule, rules.set rule.publicationScopeId rule)

def revokeScope (rules : PublicationRules) (publicationScopeId : String) : PublicationRules :=
  rules.delete publicationScopeId

variable (dateParse : String → Option Timestamp)

/-- The demand is for this rule. -/
def concerns (input : DemandProofInput) (rule : TerminalPublicationRule) : Bool :=
  rule.sessionId = input.sessionId && rule.sessionEpoch = input.sessionEpoch &&
    samePrincipal rule.principal input.principal

/-- One turn of the loop over the rules. -/
def recordDemandFor (input : DemandProofInput) (acc : Bool × PublicationRules)
    (entry : String × TerminalPublicationRule) : Bool × PublicationRules :=
  if concerns input entry.2 then
    (true, acc.2.set entry.1 { entry.2 with demandProof := some input.proof })
  else acc

def recordDemandProof (rules : PublicationRules) (input : DemandProofInput) : Bool × PublicationRules :=
  if (dateParse input.proof.expiresAt).isNone then (false, rules)
  else rules.entries.foldl (recordDemandFor input) (false, rules)

/-- A date later than `nowMs`. -/
def isLater (nowMs : ℤ) (expiresAt : String) : Bool :=
  match dateParse expiresAt with
  | none => false
  | some t => nowMs < t.ms

/-- No expiry, or one that is not reached; the empty text counts as none. -/
def ruleUnexpired (nowMs : ℤ) (expiresAt : Option String) : Bool :=
  match expiresAt with
  | none => true
  | some text => text = "" || isLater dateParse nowMs text

def demandUnexpired (nowMs : ℤ) (demandProof : Option TerminalDemandProof) : Bool :=
  match demandProof with
  | none => false
  | some proof => isLater dateParse nowMs proof.expiresAt

def candidateFor (nowMs : ℤ) (sessionId sessionEpoch : String) (seq : ℕ) (rule : TerminalPublicationRule) :
    Option TerminalPublicationCandidate :=
  if rule.sessionId ≠ sessionId ∨ rule.sessionEpoch ≠ sessionEpoch then none
  else if seq ≤ rule.minSeqExclusive then none
  else if ¬ ruleUnexpired dateParse nowMs rule.expiresAt then none
  else if ¬ demandUnexpired dateParse nowMs rule.demandProof then none
  else some {
    publicationScopeId := rule.publicationScopeId
    principal := rule.principal
    policyVersion := rule.policyVersion
    streamEncryption := rule.streamEncryption }

def metadataForEvent (rules : PublicationRules) (nowMs : ℤ) (sessionId sessionEpoch : String) (seq : ℕ) :
    List TerminalPublicationCandidate :=
  rules.values.filterMap (candidateFor dateParse nowMs sessionId sessionEpoch seq)

end PublicationRules

end Kookr.Remote
