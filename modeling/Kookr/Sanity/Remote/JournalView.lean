import Kookr.Spec.Remote.JournalStore
import Kookr.Lib.JsonFields
import Mathlib.Data.List.Nodup

/-! Rows and snapshots are read back from their text as they were written. -/

namespace Kookr.Remote

open Kookr.Lib Kookr.Lib.Json JournalSnapshot List

@[simp] theorem action_ofText_text (a : RemoteCommandAction) :
    RemoteCommandAction.ofText a.text = some a := by
  cases a <;> rfl

@[simp] theorem outcome_ofText_text (o : CommandOutcome) : CommandOutcome.ofText o.text = some o := by
  cases o <;> rfl

@[simp] theorem dateParse_timestampJson (t : Timestamp) :
    ((timestampJson t).asStr.bind fun s => IsoDate.dateParse s.toList) = some t := by
  simp [timestampJson, IsoDate.dateParse_toISOString]

@[simp] theorem toInt_intJson (z : ℤ) : (intJson z).asNum.bind NumLit.toInt = some z :=
  NumLit.toInt_ofInt z

def envelopeKeys : List String :=
  ["commandId", "action", "nodeId", "nodeEpoch", "sessionId", "sessionEpoch", "grantId",
    "idempotencyKey", "actorId", "clientId", "baseRevision", "leaseId", "lastSeenSeq", "payload"]

/-- An envelope is read back from any object that starts with its members and goes on
with members of other names. -/
theorem partial_ofJson (p : PartialEnvelope) (ms : List (String × Json)) (h : ∀ k ∈ envelopeKeys, Json.lookup k ms = none) :
    PartialEnvelope.ofJson (.obj (p.members ++ ms)) = some p := by
  simp only [envelopeKeys, forall_mem_cons, not_mem_nil, false_imp_iff, implies_true,
    and_true] at h
  simp [PartialEnvelope.ofJson, strAt, numAt, PartialEnvelope.members, h]

theorem envelope_ofJson (c : CommandEnvelope) (ms : List (String × Json)) (h : ∀ k ∈ envelopeKeys, Json.lookup k ms = none) :
    CommandEnvelope.ofJson (.obj (c.toPartial.members ++ ms)) = some c := by
  rw [CommandEnvelope.ofJson, partial_ofJson _ _ h]
  rfl

theorem lookup_members (p : PartialEnvelope) (k : String) (h : k ∉ envelopeKeys) : Json.lookup k p.members = none := by
  simp only [envelopeKeys, mem_cons, not_mem_nil, or_false, not_or] at h
  simp [PartialEnvelope.members, h, eq_comm]

theorem row_ofJson_toJson (row : AuditRow) : AuditRow.ofJson row.toJson = some row := by
  cases row with
  | intent command timestamp =>
    have henv := envelope_ofJson command
      [("type", .str "command.intent"), ("timestamp", timestampJson timestamp)]
      (by simp [envelopeKeys])
    simp [AuditRow.ofJson, AuditRow.toJson, henv, strAt, timestampAt]
  | result command outcome reason value timestamp =>
    have henv := envelope_ofJson command
      ([("type", .str "command.result"), ("outcome", .str outcome.text)] ++
        opt "reason" (reason.map .str) ++ opt "result" value ++
        [("timestamp", timestampJson timestamp)]) (by simp [envelopeKeys])
    simp only [cons_append, nil_append, append_assoc] at henv
    simp [AuditRow.ofJson, AuditRow.toJson, strAt, timestampAt, lookup_members, envelopeKeys, henv]
  | preAuditReject command outcome reason timestamp =>
    have henv := partial_ofJson command
      ([("type", .str "command.pre-audit-reject"), ("outcome", .str outcome.text)] ++
        opt "reason" (reason.map .str) ++ [("timestamp", timestampJson timestamp)])
      (by simp [envelopeKeys])
    simp only [cons_append, nil_append] at henv
    simp [AuditRow.ofJson, AuditRow.toJson, strAt, timestampAt, lookup_members, envelopeKeys, henv]
  | revoke grantId nodeId nodeEpoch policyVersion timestamp =>
    simp [AuditRow.ofJson, AuditRow.toJson, strAt, numAt, timestampAt]

theorem parseLine_line (row : AuditRow) : AuditRow.parseLine row.line = some row := by
  rw [AuditRow.parseLine, AuditRow.line, Json.parse_stringify]
  exact row_ofJson_toJson row

theorem parseLine_nil : AuditRow.parseLine [] = none := rfl

theorem newline_not_mem_line (row : AuditRow) : '\n' ∉ row.line := Json.newline_not_mem_stringify _

theorem result_ofJson_toJson (r : CommandResult) : CommandResult.ofJson r.toJson = some r := by
  simp [CommandResult.ofJson, CommandResult.toJson, strAt]

theorem entry_ofJson_toJson (e : IdempotencyEntry) : IdempotencyEntry.ofJson e.toJson = some e := by
  have hres : (e.result.map CommandResult.toJson).bind CommandResult.ofJson = e.result := by
    cases e.result with
    | none => rfl
    | some r => exact result_ofJson_toJson r
  simp [IdempotencyEntry.ofJson, IdempotencyEntry.toJson, strAt, intAt, numAt, hres]

theorem intentOfJson_intentJson (intent : CommandEnvelope × Timestamp) : intentOfJson (intentJson intent) = some intent := by
  simp [intentOfJson, intentJson, row_ofJson_toJson]

theorem resultOfJson_resultJson (entry : String × CommandResult × ℤ) : resultOfJson (resultJson entry) = some entry := by
  simp [resultOfJson, resultJson, strAt, intAt, numAt,
    result_ofJson_toJson]

theorem snapshot_ofJson_toJson (s : JournalSnapshot) : ofJson s.toJson = some s := by
  simp [ofJson, toJson, intAt, numAt, arrAt, timestampAt, strAt,
    mapM_map_roundtrip _ _ intentOfJson_intentJson, mapM_map_roundtrip _ _ resultOfJson_resultJson,
    mapM_map_roundtrip _ _ entry_ofJson_toJson, mapM_map_roundtrip _ _ asStr_str]

theorem parseText_text (s : JournalSnapshot) : parseText s.text = some s := by
  rw [parseText, text, Json.parse_stringify_newline]
  exact snapshot_ofJson_toJson s

end Kookr.Remote

/-! The journal as registers. Replaying a row, making the call that appends it, and
taking a snapshot are writes to, or copies of, the view. -/

namespace Kookr.Remote

open Kookr.Lib RegisterLog

namespace JournalState

def outcomeOfView (commandId : String) : View → CommandResult
  | .result result => result
  | .intent action => ⟨.unknownIntentOnly, commandId, action, none, none⟩
  | _ => ⟨.unknownNeverSeen, commandId, .presetReply, none, none⟩

theorem outcome_eq (s : JournalState) (c : String) : s.outcome c = outcomeOfView c (s.view (.command c)) := by
  simp only [outcome, view]
  cases s.results.get c with
  | some r => rfl
  | none => cases s.intents.get c <;> rfl

theorem hasTombstone_eq (s : JournalState) (g : String) :
    s.hasTombstone g = match s.view (.grant g) with | .revoked => true | _ => false := by
  simp only [view]
  cases s.hasTombstone g <;> rfl

variable {s s' : JournalState}

theorem outcome_congr (h : s.view = s'.view) (c : String) : s.outcome c = s'.outcome c := by
  rw [outcome_eq, outcome_eq, h]

theorem hasTombstone_congr (h : s.view = s'.view) (g : String) : s.hasTombstone g = s'.hasTombstone g := by
  rw [hasTombstone_eq, hasTombstone_eq, h]

theorem view_setTombstone (s : JournalState) (g : String) : ({ s with tombstones := s.tombstones.set g () } : JournalState).view =
      put View.rank s.view (.grant g, .revoked) := by
  funext k
  cases k with
  | command c => rw [put_of_ne _ _ (by simp)]; rfl
  | grant g' =>
    by_cases hg : g' = g
    · subst hg
      rw [put_self]
      have hr : View.rank (s.view (.grant g')) ≤ 1 := by
        simp only [view]; cases s.hasTombstone g' <;> decide
      rw [upd_of_le hr]
      simp [view, hasTombstone, OrderedMap.has]
    · rw [put_of_ne _ _ (by simpa using hg)]
      simp [view, hasTombstone, OrderedMap.has, OrderedMap.get_set_of_ne _ _ (Ne.symm hg)]

theorem view_command {c : String} (ht : s'.tombstones = s.tombstones) (hi : ∀ c', c' ≠ c → s'.intents.get c' = s.intents.get c')
    (hr : ∀ c', c' ≠ c → s'.results.get c' = s.results.get c') {v : View}
    (hc : s'.view (.command c) = upd View.rank (s.view (.command c)) v) : s'.view = put View.rank s.view (.command c, v) := by
  funext k
  cases k with
  | grant g => rw [put_of_ne _ _ (by simp)]; simp [view, hasTombstone, ht]
  | command c' =>
    by_cases h : c' = c
    · subst h; rw [put_self, hc]
    · rw [put_of_ne _ _ (by simpa using h)]
      simp [view, hi c' h, hr c' h]

theorem upd_result (x : View) (r : CommandResult) : upd View.rank x (.result r) = .result r :=
  upd_of_le (by cases x <;> simp [View.rank])

theorem view_setIntent {command : CommandEnvelope} {now : Timestamp}
    (ht : s'.tombstones = s.tombstones) (hr : s'.results = s.results)
    (hi : s'.intents = s.intents.set command.commandId (command, now)) :
    s'.view = put View.rank s.view (.command command.commandId, .intent command.action) := by
  refine view_command ht (fun c' hc => by rw [hi, OrderedMap.get_set_of_ne _ _ (Ne.symm hc)])
    (fun c' _ => by rw [hr]) ?_
  simp only [view, hi, hr, OrderedMap.get_set_self]
  cases s.results.get command.commandId with
  | some r => rfl
  | none => cases s.intents.get command.commandId <;> rfl

theorem view_setResult {c : String} {result : CommandResult}
    (ht : s'.tombstones = s.tombstones) (hr : s'.results = s.results.set c result)
    (hi : s'.intents = s.intents ∨ s'.intents = s.intents.delete c) :
    s'.view = put View.rank s.view (.command c, .result result) := by
  refine view_command ht (fun c' hc => ?_)
    (fun c' hc => by rw [hr, OrderedMap.get_set_of_ne _ _ (Ne.symm hc)]) ?_
  · rcases hi with hi | hi
    · rw [hi]
    · rw [hi, OrderedMap.get_delete, if_neg (Ne.symm hc)]
  · rw [upd_result]
    simp [view, hr]

theorem view_applyAuditRow (cfg : JournalConfig) (s : JournalState) (row : AuditRow) :
    (applyAuditRow cfg s row).view = put View.rank s.view row.entry := by
  cases row with
  | intent command timestamp => exact view_setIntent rfl rfl rfl
  | result command outcome reason value timestamp | preAuditReject command outcome reason timestamp => exact view_setResult rfl rfl (.inr rfl)
  | revoke grantId nodeId nodeEpoch policyVersion timestamp => exact view_setTombstone s grantId

theorem view_foldl_applyAuditRow (cfg : JournalConfig) (rows : List AuditRow) (s : JournalState) :
    (rows.foldl (applyAuditRow cfg) s).view = replay View.rank s.view (rows.map AuditRow.entry) := by
  induction rows generalizing s with
  | nil => rfl
  | cons row rows ih =>
    rw [List.foldl_cons, ih, view_applyAuditRow]
    rfl

end JournalState

/-- The result a call records is about the command it was called with. -/
def JournalCall.Matched : JournalCall → Prop
  | .appendResult command result =>
    result.commandId = command.commandId ∧ result.action = command.action
  | _ => True

/-- A call changes the view in memory as its row will when it is replayed. -/
theorem JournalCall.view_start (cfg : JournalConfig) (s : JournalState) (now : Timestamp)
    {call : JournalCall} (h : call.Matched) :
    (call.start cfg s now).1.view = put View.rank s.view (call.start cfg s now).2.entry := by
  cases call with
  | appendIntent command => exact JournalState.view_setIntent rfl rfl rfl
  | appendResult command result =>
    obtain ⟨hid, haction⟩ := h
    have hres : (⟨result.outcome, command.commandId, command.action, result.result,
        result.reason⟩ : CommandResult) = result := by rw [← hid, ← haction]
    simp only [start, JournalState.appendResult, AuditRow.entry, hres]
    exact JournalState.view_setResult rfl rfl (.inr rfl)
  | appendPreAuditReject command reason => exact JournalState.view_setResult rfl rfl (.inl rfl)
  | revokeGrant grantId policyVersion => exact JournalState.view_setTombstone s grantId

end Kookr.Remote
