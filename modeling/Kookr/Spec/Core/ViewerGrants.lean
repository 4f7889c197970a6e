import Kookr.Lib.CommitQueue
import Kookr.Lib.Exec
import Kookr.Lib.IsoDate
import Kookr.Spec.Realtime.ViewerBroadcaster

/-! The store of viewer grants (`src/core/viewer-grants.ts`) with its file. Calls queue a mutation of the grants; the
mutation, the landing of its write and the return of the write are steps of their own. The hash of a token and `Date.parse`
are parameters. -/

namespace Kookr.Realtime

deriving instance DecidableEq for Scope

end Kookr.Realtime

namespace Kookr.Core

open Kookr.Lib Kookr.Realtime

structure ViewerGrant where
  id : String
  tokenHash : String
  label : String
  scope : Scope
  createdAt : String
  expiresAt : Option String
  revokedAt : Option String
  deriving DecidableEq

inductive ViewerGrantLiveness where
  | active | revoked | expired | notFound
  deriving DecidableEq

inductive ViewerTokenResolution where
  | valid (grantId : String) (scope : Scope)
  | revoked (grantId : String)
  | expired (grantId : String)
  | notFound
  deriving DecidableEq

/-- SHA-256 in hex, and `Date.parse` with the texts that it does not read. -/
structure GrantTexts where
  hashToken : String → String
  dateParse : String → Option ℤ

def isoText (now : Timestamp) : String := String.ofList (IsoDate.toISOString now)

/-- The documented behaviour of the two: a hash is 64 hex digits, and `Date.parse` reads what `toISOString` writes. -/
structure GrantTexts.Lawful (texts : GrantTexts) : Prop where
  hash : ∀ token, (texts.hashToken token).length = 64 ∧
    ∀ c ∈ (texts.hashToken token).toList, '0' ≤ c ∧ c ≤ '9' ∨ 'a' ≤ c ∧ c ≤ 'f'
  iso : ∀ now : Timestamp, texts.dateParse (isoText now) = some now.ms

/-- A text that is there and not empty. -/
def stamp (text : Option String) : Option String := text.filter fun text => text ≠ ""

namespace GrantTexts

variable (texts : GrantTexts)

def isIsoTimestamp (value : String) : Bool := value ≠ "" && (texts.dateParse value).isSome

def isTokenHash (value : String) : Bool :=
  value.length = 64 && value.toList.all fun c => decide ('0' ≤ c ∧ c ≤ '9' ∨ 'a' ≤ c ∧ c ≤ 'f')

def isValidGrant (g : ViewerGrant) : Bool :=
  isTokenHash g.tokenHash && texts.isIsoTimestamp g.createdAt && g.expiresAt.all texts.isIsoTimestamp &&
    g.revokedAt.all texts.isIsoTimestamp

/-- When the grant came to its end, if it has. -/
def grantTerminalAtMs (grant : ViewerGrant) (nowMs : ℤ) : Option ℤ :=
  let stamps := ((stamp grant.revokedAt).bind texts.dateParse).toList ++
    (((stamp grant.expiresAt).bind texts.dateParse).filter fun ms => ms ≤ nowMs).toList
  stamps.max?

def isPrunable (cutoffMs : ℚ) (nowMs : ℤ) (grant : ViewerGrant) : Bool :=
  (texts.grantTerminalAtMs grant nowMs).any fun (terminalMs : ℤ) => decide ((terminalMs : ℚ) < cutoffMs)

def liveness (grants : List ViewerGrant) (grantId : String) (now : ℤ) : ViewerGrantLiveness :=
  match grants.find? fun g => g.id = grantId with
  | none => .notFound
  | some grant =>
    if (stamp grant.revokedAt).isSome then .revoked
    else if (stamp grant.expiresAt).any fun expiresAt => (texts.dateParse expiresAt).all fun expiresMs => expiresMs ≤ now then .expired
    else .active

/-- The last grant with the hash. -/
def matchedGrant (grants : List ViewerGrant) (presented : String) : Option ViewerGrant :=
  grants.foldl (fun matched grant => if grant.tokenHash = presented then some grant else matched) none

def resolve (grants : List ViewerGrant) (token : String) (now : ℤ) : ViewerTokenResolution :=
  match matchedGrant grants (texts.hashToken token) with
  | none => .notFound
  | some matched =>
    if (stamp matched.revokedAt).isSome then .revoked matched.id
    else if (stamp matched.expiresAt).any fun expiresAt => (texts.dateParse expiresAt).all fun expiresMs => expiresMs ≤ now then
      .expired matched.id
    else .valid matched.id matched.scope

inductive GrantMutation where
  | create (grant : ViewerGrant)
  | revoke (id revokedAt : String)
  | prune (cutoffMs : ℚ)
  deriving DecidableEq

/-- A mutation, with the clock as it is read for each grant. -/
def applyMutation : GrantMutation → (ViewerGrant → ℤ) → List ViewerGrant → List ViewerGrant
  | .create grant, _, current => current ++ [grant]
  | .revoke id revokedAt, _, current =>
    current.map fun g => if g.id = id ∧ stamp g.revokedAt = none then { g with revokedAt := some revokedAt } else g
  | .prune cutoffMs, clock, current => current.filter fun grant => !texts.isPrunable cutoffMs (clock grant) grant

/-- The grants of a file; the invalid ones are skipped. -/
def load (file : List ViewerGrant) : List ViewerGrant :=
  (file.filter texts.isValidGrant).map fun g => { g with scope := canonicalizeScope g.scope }

end GrantTexts

abbrev GrantCommits := CommitQueue (List ViewerGrant) GrantTexts.GrantMutation (ViewerGrant → ℤ)

/-- `lastWriteOk` is what `isWritable` tells; the grants that were ever drawn are kept beside the store. -/
structure ViewerGrantStore where
  commits : GrantCommits
  lastWriteOk : Bool
  issued : List ViewerGrant

structure CreateGrantInput where
  label : String
  scope : Scope
  expiresAt : Option String

inductive GrantEvent where
  | create (input : CreateGrantInput) (id token : String) (now : Timestamp)
  | revoke (id : String) (now : Timestamp)
  | pruneExpired (retentionMs : ℚ) (now : ℤ) (clock : ViewerGrant → ℤ)
  | writeStarts (clock : ViewerGrant → ℤ)
  | writeLands
  | writeReturns
  | writeFails
  | restart (retentionMs : ℚ) (now : ℤ) (clock : ViewerGrant → ℤ)

namespace ViewerGrantStore

variable (texts : GrantTexts)

def start : ViewerGrantStore := ⟨.start [], true, []⟩

def newGrant (input : CreateGrantInput) (id token : String) (now : Timestamp) : ViewerGrant where
  id := id
  tokenHash := texts.hashToken token
  label := input.label
  scope := canonicalizeScope input.scope
  createdAt := isoText now
  expiresAt := stamp input.expiresAt
  revokedAt := none

/-- The mutation that `pruneExpired` queues, if there is a grant to prune. -/
def pruning (grants : List ViewerGrant) (retentionMs : ℚ) (now : ℤ) (clock : ViewerGrant → ℤ) : Option GrantTexts.GrantMutation :=
  let cutoffMs := (now : ℚ) - max 0 retentionMs
  if grants.any fun grant => texts.isPrunable cutoffMs (clock grant) grant then some (.prune cutoffMs) else none

def step (s : ViewerGrantStore) : GrantEvent → Option ViewerGrantStore
  | .create input id token now =>
    let grant := newGrant texts input id token now
    some { s with commits := s.commits.call (some (.create grant)), issued := s.issued ++ [grant] }
  | .revoke id now =>
    let mutation := if s.commits.memory.any fun g => g.id = id then some (.revoke id (isoText now)) else none
    some { s with commits := s.commits.call mutation }
  | .pruneExpired retentionMs now clock =>
    some { s with commits := s.commits.call (pruning texts s.commits.memory retentionMs now clock) }
  | .writeStarts clock => (s.commits.startWrite texts.applyMutation clock).map fun commits => { s with commits := commits }
  | .writeLands => s.commits.landWrite.map fun commits => { s with commits := commits }
  | .writeReturns => s.commits.finishWrite.map fun commits => { s with commits := commits, lastWriteOk := true }
  | .writeFails => s.commits.failWrite.map fun commits => { s with commits := commits, lastWriteOk := false }
  | .restart retentionMs now clock =>
    let loaded := texts.load s.commits.file
    some { s with commits := (s.commits.reload loaded).call (pruning texts loaded retentionMs now clock), lastWriteOk := true }

/-- A grant has a new id and a new token, and an expiry that is a date. -/
def DrawsFresh (s : ViewerGrantStore) : GrantEvent → Prop
  | .create input id token _ => id ∉ s.issued.map ViewerGrant.id ∧ texts.hashToken token ∉ s.issued.map ViewerGrant.tokenHash ∧
    ∀ expiresAt ∈ stamp input.expiresAt, (texts.dateParse expiresAt).isSome
  | _ => True

instance (s : ViewerGrantStore) : (event : GrantEvent) → Decidable (s.DrawsFresh texts event)
  | .create .. => inferInstanceAs (Decidable (_ ∧ _ ∧ _))
  | .revoke .. | .pruneExpired .. | .writeStarts _ | .writeLands | .writeReturns | .writeFails | .restart .. => isTrue trivial

end ViewerGrantStore

end Kookr.Core
