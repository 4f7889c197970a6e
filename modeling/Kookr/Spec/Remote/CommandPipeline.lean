import Kookr.Spec.Remote.JournalStore

/-! `executeWithPipeline` (`src/remote/command-pipeline.ts`): any number of deliveries on
one journal, interleaved at every await of the pipeline and of the journal, with grants
revoked in between. Answers of the handler and of the file system are events. -/

namespace Kookr.Remote

open Kookr.Lib

/-- How `handler.authorize` or `handler.validate` ends. -/
inductive CheckAnswer where
  | ok
  | refused (reason : String)
  | threw

/-- How `handler.execute` ends: with a result, or with the text of its error. -/
inductive ExecuteAnswer where
  | resolved (result : Option Json)
  | failed (error : String)

inductive PipelinePc where
  | authorize
  | validate
  /-- `appendPreAuditReject`, whose result the delivery returns. -/
  | preAuditReject (result : CommandResult) (append : AppendPc)
  | appendIntent (append : AppendPc)
  /-- The intent is on disk; `handler.execute` is called when the delivery resumes. -/
  | intentAppended
  | execute
  | appendAccepted (result : CommandResult) (append : AppendPc)
  /-- Recording the accepted result failed; the `catch` runs when the delivery resumes. -/
  | appendAcceptedFailed
  | appendRejected (result : CommandResult) (append : AppendPc)
  | returned (result : CommandResult)
  | threw

/-- The append a delivery waits for. -/
def PipelinePc.append : PipelinePc → Option AppendPc
  | .preAuditReject _ append => some append
  | .appendIntent append => some append
  | .appendAccepted _ append => some append
  | .appendRejected _ append => some append
  | _ => none

structure Delivery where
  request : CommandEnvelope
  pc : PipelinePc

/-- What happened so far, in order: deliveries that passed both checks, that recorded
their intent, whose `execute` was started or succeeded, results recorded, and grants
revoked. -/
inductive PipelineEffect where
  | passed (i : ℕ)
  | intended (i : ℕ)
  | started (i : ℕ)
  | succeeded (i : ℕ)
  | recorded (i : ℕ) (result : CommandResult)
  | revoked (grantId : String)

inductive PipelineEvent where
  | deliver (request : CommandEnvelope) (handlerAction : RemoteCommandAction) (now : Timestamp)
  | authorized (i : ℕ) (answer : CheckAnswer) (now : Timestamp)
  | validated (i : ℕ) (answer : CheckAnswer) (now : Timestamp)
  | start (i : ℕ)
  | executed (i : ℕ) (answer : ExecuteAnswer) (now : Timestamp)
  /-- The `catch` block after a failed append of the accepted result. -/
  | caught (i : ℕ) (error : String) (now : Timestamp)
  | io (i : ℕ) (now : Timestamp) (ok : Bool)
  | revokeGrant (grantId : String) (policyVersion : Option NumLit) (now : Timestamp)
  /-- A file operation of the `j`-th `revokeGrant`. -/
  | revokeIo (j : ℕ) (now : Timestamp) (ok : Bool)

structure PipelineRun where
  world : World
  deliveries : List Delivery
  revocations : List AppendStatus
  trace : List PipelineEffect

def acceptedResult (request : CommandEnvelope) (result : Option Json) : CommandResult :=
  ⟨.accepted, request.commandId, request.action, result, none⟩

def rejectedResult (request : CommandEnvelope) (error : String) : CommandResult :=
  ⟨.rejected, request.commandId, request.action, none, some error⟩

namespace PipelineRun

def init (cfg : JournalConfig) (d : Disk) : PipelineRun := ⟨openJournal cfg d, [], [], []⟩

/-- Delivery `i` moves on. -/
def goto (s : PipelineRun) (i : ℕ) (request : CommandEnvelope) (pc : PipelinePc) : PipelineRun :=
  { s with deliveries := s.deliveries.set i ⟨request, pc⟩ }

def withMem (s : PipelineRun) (mem : JournalState) : PipelineRun := { s with world.mem := mem }

def note (s : PipelineRun) (effects : List PipelineEffect) : PipelineRun :=
  { s with trace := s.trace ++ effects }

/-- `return await journal.appendPreAuditReject(request, reason)`, up to its first await. -/
def rejected (s : PipelineRun) (request : CommandEnvelope) (reason : String) (now : Timestamp) : JournalState × PipelinePc :=
  let r := s.world.mem.appendPreAuditReject request.toPartial reason now
  (r.1, .preAuditReject (JournalState.preAuditRejection request.toPartial reason) (.mkdirAudit r.2))

def deliver (s : PipelineRun) (request : CommandEnvelope) (handlerAction : RemoteCommandAction)
    (now : Timestamp) : JournalState × PipelinePc :=
  if request.action ≠ handlerAction then
    s.rejected request ("handler mismatch for action " ++ request.action.text) now
  else if s.world.mem.hasTombstone request.grantId then
    s.rejected request "grant revoked" now
  else (s.world.mem, .authorize)

/-- `begin`, and `appendIntent` up to its first await when the command is new. -/
def validated (cfg : JournalConfig) (s : PipelineRun) (i : ℕ) (request : CommandEnvelope) (now : Timestamp) : PipelineRun :=
  match s.world.mem.begin cfg request now with
  | (mem, some replay) =>
    ((s.withMem mem).goto i request (.returned replay)).note [.passed i]
  | (mem, none) =>
    let r := mem.appendIntent request now
    ((s.withMem r.1).goto i request (.appendIntent (.mkdirAudit r.2))).note [.passed i, .intended i]

/-- Where a delivery goes when the append it waits for has come to `status`. -/
def afterAppend : PipelinePc → AppendStatus → PipelinePc
  | .preAuditReject result _, .running append => .preAuditReject result append
  | .preAuditReject result _, .resolved => .returned result
  | .appendIntent _, .running append => .appendIntent append
  | .appendIntent _, .resolved => .intentAppended
  | .appendAccepted result _, .running append => .appendAccepted result append
  | .appendAccepted result _, .resolved => .returned result
  | .appendAccepted _ _, .rejected => .appendAcceptedFailed
  | .appendRejected result _, .running append => .appendRejected result append
  | .appendRejected result _, .resolved => .returned result
  | _, _ => .threw

/-- `appendResult` for delivery `i`, up to its first await. -/
def record (s : PipelineRun) (i : ℕ) (request : CommandEnvelope) (result : CommandResult)
    (next : CommandResult → AppendPc → PipelinePc) (now : Timestamp) : PipelineRun :=
  let r := s.world.mem.appendResult request result now
  ((s.withMem r.1).goto i request (next result (.mkdirAudit r.2))).note [.recorded i result]

def step (cfg : JournalConfig) (s : PipelineRun) : PipelineEvent → Option PipelineRun
  | .deliver request handlerAction now =>
    let r := s.deliver request handlerAction now
    some { s.withMem r.1 with deliveries := s.deliveries ++ [⟨request, r.2⟩] }
  | .authorized i answer now =>
    match s.deliveries[i]? with
    | some ⟨request, .authorize⟩ =>
      match answer with
      | .ok => some (s.goto i request .validate)
      | .refused reason =>
        let r := s.rejected request reason now
        some ((s.withMem r.1).goto i request r.2)
      | .threw => some (s.goto i request .threw)
    | _ => none
  | .validated i answer now =>
    match s.deliveries[i]? with
    | some ⟨request, .validate⟩ =>
      match answer with
      | .ok => some (s.validated cfg i request now)
      | .refused reason =>
        let r := s.rejected request reason now
        some ((s.withMem r.1).goto i request r.2)
      | .threw => some (s.goto i request .threw)
    | _ => none
  | .start i =>
    match s.deliveries[i]? with
    | some ⟨request, .intentAppended⟩ => some ((s.goto i request .execute).note [.started i])
    | _ => none
  | .executed i answer now =>
    match s.deliveries[i]? with
    | some ⟨request, .execute⟩ =>
      match answer with
      | .resolved result =>
        some ((s.note [.succeeded i]).record i request (acceptedResult request result)
          .appendAccepted now)
      | .failed error => some (s.record i request (rejectedResult request error) .appendRejected now)
    | _ => none
  | .caught i error now =>
    match s.deliveries[i]? with
    | some ⟨request, .appendAcceptedFailed⟩ =>
      some (s.record i request (rejectedResult request error) .appendRejected now)
    | _ => none
  | .io i now ok =>
    match s.deliveries[i]? with
    | some ⟨request, pc⟩ =>
      match pc.append with
      | some append =>
        let r := appendStep cfg s.world append now ok
        some ({ s with world := r.1 }.goto i request (afterAppend pc r.2))
      | none => none
    | none => none
  | .revokeGrant grantId policyVersion now =>
    let r := s.world.mem.revokeGrant cfg grantId policyVersion now
    some { s.withMem r.1 with
      revocations := s.revocations ++ [.running (.mkdirAudit r.2)]
      trace := s.trace ++ [.revoked grantId] }
  | .revokeIo j now ok =>
    match s.revocations[j]? with
    | some (.running pc) =>
      let r := appendStep cfg s.world pc now ok
      some { s with world := r.1, revocations := s.revocations.set j r.2 }
    | _ => none

end PipelineRun

end Kookr.Remote
