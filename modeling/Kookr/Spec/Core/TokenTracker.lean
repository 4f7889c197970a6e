import Mathlib.Data.List.DropRight
import Kookr.Lib.Exec
import Kookr.Lib.JsonFields
import Kookr.Lib.JsonNumber
import Kookr.Lib.LineFile
import Kookr.Spec.Remote.TerminalPublicationGate

/-! The token tracker (`src/core/token-tracker.ts`): what an entry of a transcript does to the totals, the
scans that read transcripts piece by piece, and the usage of a task. The numbers are a parameter, and so
are the prices (`resolvePricing` and `estimateCost` in `src/core/pricing-tables.ts`). A member of an entry
that does not have the type it is declared with is read as absent. -/

namespace Kookr.Core

open Kookr.Lib

structure UsageBlock (ν : Type) where
  inputTokens : Option ν
  outputTokens : Option ν
  cacheReadInputTokens : Option ν
  cacheCreationInputTokens : Option ν

structure TranscriptCostEntry (ν : Type) where
  /-- `entry.type ?? entry.role`. -/
  entryType : Option String
  model : Option String
  costUsd : Option ν
  totalCostUsd : Option ν
  usage : Option (UsageBlock ν)
  messageId : Option String
  messageModel : Option String
  messageUsage : Option (UsageBlock ν)

/-- What a line holds. A property of `null` cannot be read. -/
inductive TranscriptLine (ν : Type) where
  | null
  | entry (entry : TranscriptCostEntry ν)

section Reading

variable {ν : Type} (num : NumberText ν)

def numberAt (j : Json) (k : String) : Option ν := ((j.get k).bind Json.asNum).bind fun n => num.value n.text

def UsageBlock.ofJson : Json → Option (UsageBlock ν)
  | .obj members =>
    let j := Json.obj members
    some ⟨numberAt num j "input_tokens", numberAt num j "output_tokens", numberAt num j "cache_read_input_tokens",
      numberAt num j "cache_creation_input_tokens"⟩
  | _ => none

def TranscriptCostEntry.ofJson (j : Json) : TranscriptCostEntry ν :=
  let message := (j.get "message").getD .null
  { entryType := (j.textAt "type").or (j.textAt "role")
    model := j.textAt "model"
    costUsd := numberAt num j "cost_usd"
    totalCostUsd := numberAt num j "total_cost_usd"
    usage := (j.get "usage").bind (UsageBlock.ofJson num)
    messageId := message.textAt "id"
    messageModel := message.textAt "model"
    messageUsage := (message.get "usage").bind (UsageBlock.ofJson num) }

/-- What `scanOne` makes of a line. -/
def readTranscriptLine (line : List Char) : Option (TranscriptLine ν) :=
  (Json.parse ((line.dropWhile Remote.isTrimmed).rdropWhile Remote.isTrimmed)).map fun
    | .null => .null
    | j => .entry (.ofJson num j)

end Reading

structure UsageBucket (ν : Type) where
  model : Option String
  inputTokens : ν
  outputTokens : ν
  cacheReadTokens : ν
  cacheWriteTokens : ν
  deriving DecidableEq

structure MessageUsage (ν : Type) where
  model : Option String
  usage : UsageBlock ν

/-- What a transcript has been parsed to. -/
structure TranscriptTotals (ν : Type) where
  tokenBuckets : OrderedMap (Option String) (UsageBucket ν)
  explicitCostUsd : ν
  totalCostUsd : Option ν
  /-- In the order in which they were first seen. -/
  models : List String
  perMsgUsage : OrderedMap String (MessageUsage ν)
  lastLegacySignature : Option String

namespace TranscriptTotals

variable {ν : Type} [Zero ν] [Add ν] [Sub ν] [DecidableEq ν]

def empty : TranscriptTotals ν := ⟨.empty, 0, none, [], .empty, none⟩

variable (num : NumberText ν) (state : TranscriptTotals ν)

/-- `updateBucket` with the factor 1. -/
def addUsage (model : Option String) (usage : UsageBlock ν) : TranscriptTotals ν :=
  let bucket := (state.tokenBuckets.get model).getD ⟨model, 0, 0, 0, 0⟩
  { state with
    tokenBuckets := state.tokenBuckets.set model
      { bucket with
        inputTokens := bucket.inputTokens + usage.inputTokens.getD 0
        outputTokens := bucket.outputTokens + usage.outputTokens.getD 0
        cacheReadTokens := bucket.cacheReadTokens + usage.cacheReadInputTokens.getD 0
        cacheWriteTokens := bucket.cacheWriteTokens + usage.cacheCreationInputTokens.getD 0 } }

/-- `updateBucket` with the factor -1, which makes no bucket. -/
def subtractUsage (model : Option String) (usage : UsageBlock ν) : TranscriptTotals ν :=
  match state.tokenBuckets.get model with
  | none => state
  | some bucket =>
    { state with
      tokenBuckets := state.tokenBuckets.set model
        { bucket with
          inputTokens := bucket.inputTokens - usage.inputTokens.getD 0
          outputTokens := bucket.outputTokens - usage.outputTokens.getD 0
          cacheReadTokens := bucket.cacheReadTokens - usage.cacheReadInputTokens.getD 0
          cacheWriteTokens := bucket.cacheWriteTokens - usage.cacheCreationInputTokens.getD 0 } }

def rememberModel : Option String → TranscriptTotals ν
  | some model => if model = "" then state else { state with models := OrderedSet.add state.models model }
  | none => state

def totalUsage : UsageBlock ν :=
  let sum (f : UsageBucket ν → ν) := state.tokenBuckets.values.foldl (fun total bucket => total + f bucket) 0
  ⟨some (sum UsageBucket.inputTokens), some (sum UsageBucket.outputTokens), some (sum UsageBucket.cacheReadTokens),
    some (sum UsageBucket.cacheWriteTokens)⟩

def usageMatchesTotals (usage totals : UsageBlock ν) : Bool :=
  (usage.inputTokens = none || usage.inputTokens = totals.inputTokens) &&
    (usage.outputTokens = none || usage.outputTokens = totals.outputTokens) &&
    (usage.cacheReadInputTokens = none || usage.cacheReadInputTokens = totals.cacheReadInputTokens) &&
    (usage.cacheCreationInputTokens = none || usage.cacheCreationInputTokens = totals.cacheCreationInputTokens)

def legacySignature (model : Option String) (usage : UsageBlock ν) : String :=
  let text (count : Option ν) := String.ofList (num.lit (count.getD 0)).text
  model.getD "" ++ ":" ++ text usage.inputTokens ++ ":" ++ text usage.outputTokens ++ ":" ++
    text usage.cacheReadInputTokens ++ ":" ++ text usage.cacheCreationInputTokens

/-- The usage of an assistant entry; `none` is the return of a repeated legacy entry. -/
def assistantUsage (entry : TranscriptCostEntry ν) (usage : UsageBlock ν) : Option (TranscriptTotals ν) :=
  let msgId := entry.messageId.filter fun id => id ≠ ""
  let previous := msgId.bind state.perMsgUsage.get
  let model := entry.messageModel.or (previous.bind MessageUsage.model)
  match msgId with
  | some id =>
    let replaced := previous.elim state fun p => state.subtractUsage p.model p.usage
    some (({ replaced with
      perMsgUsage := replaced.perMsgUsage.set id ⟨model, usage⟩
      lastLegacySignature := none } : TranscriptTotals ν).addUsage model usage)
  | none =>
    let sig := legacySignature num model usage
    if state.lastLegacySignature = some sig then none
    else some (({ state with lastLegacySignature := some sig } : TranscriptTotals ν).addUsage model usage)

def assistantEntry (entry : TranscriptCostEntry ν) : TranscriptTotals ν :=
  let state := state.rememberModel entry.messageModel
  let counted := match entry.messageUsage.or entry.usage with
    | some usage => state.assistantUsage num entry usage
    | none => some state
  match counted with
  | none => state
  | some state =>
    match entry.costUsd with
    | some cost => { state with explicitCostUsd := state.explicitCostUsd + cost }
    | none => state

def resultUsage (entry : TranscriptCostEntry ν) (usage : UsageBlock ν) : TranscriptTotals ν :=
  let previous := state.totalUsage
  let merged : UsageBlock ν :=
    ⟨usage.inputTokens.or previous.inputTokens, usage.outputTokens.or previous.outputTokens,
      usage.cacheReadInputTokens.or previous.cacheReadInputTokens,
      usage.cacheCreationInputTokens.or previous.cacheCreationInputTokens⟩
  let activeModels := OrderedSet.ofList (state.tokenBuckets.values.map UsageBucket.model)
  let preserveModelBuckets := entry.model = none && decide (1 < activeModels.length) && usageMatchesTotals usage previous
  let counted :=
    if preserveModelBuckets then state
    else
      let model := entry.model.or (match activeModels with
        | [model] => model
        | [] => state.models.head?
        | _ => none)
      ({ state with tokenBuckets := .empty } : TranscriptTotals ν).addUsage model merged
  counted.rememberModel entry.model

def resultEntry (entry : TranscriptCostEntry ν) : TranscriptTotals ν :=
  let state : TranscriptTotals ν :=
    { state with
      totalCostUsd := entry.totalCostUsd.or state.totalCostUsd
      perMsgUsage := .empty
      lastLegacySignature := none }
  match entry.usage with
  | some usage => state.resultUsage entry usage
  | none => state

def processEntry (entry : TranscriptCostEntry ν) : TranscriptTotals ν :=
  if entry.entryType = some "assistant" then state.assistantEntry num entry
  else if entry.entryType = some "result" then state.resultEntry entry
  else state

/-- The lines of one read, and whether all of them were processed: `null` throws. -/
def processLines : TranscriptTotals ν → List (TranscriptLine ν) → TranscriptTotals ν × Bool
  | state, [] => (state, true)
  | state, .null :: _ => (state, false)
  | state, .entry entry :: lines => processLines (state.processEntry num entry) lines

end TranscriptTotals

structure TranscriptState (ν : Type) where
  taskId : String
  parseByteOffset : ℕ
  byteOffset : ℕ
  totals : TranscriptTotals ν

structure TokenTracker (ν : Type) where
  transcripts : OrderedMap String (TranscriptState ν)
  taskToTranscripts : OrderedMap String (List String)

/-- `resolvePricing` and `estimateCost`, of the model of a bucket. -/
structure TokenPricing (ν : Type) where
  isFallback : String → Bool
  estimateCost : String → UsageBucket ν → ν

inductive PricingQuality where
  | exact
  | fallback
  deriving DecidableEq

namespace TokenTracker

structure TokenUsage (ν : Type) where
  inputTokens : ν
  outputTokens : ν
  cacheReadTokens : ν
  cacheWriteTokens : ν
  costUsd : ν
  pricingQuality : Option PricingQuality
  deriving DecidableEq

section

variable {ν : Type} [Zero ν] [Add ν] [Sub ν] [DecidableEq ν]

/-- `lastIndexOf(0x0a)`, and the bytes up to there. -/
def throughLastNewline (buffer : Bytes) : Bytes := buffer.rdropWhile fun b => b ≠ 0x0A

def register (files : OrderedMap String Bytes) (t : TokenTracker ν) (transcriptPath taskId : String) : TokenTracker ν :=
  if t.transcripts.has transcriptPath then t
  else
    { transcripts := t.transcripts.set transcriptPath
        ⟨taskId, 0, ((files.get transcriptPath).map List.length).getD 0, .empty⟩
      taskToTranscripts := t.taskToTranscripts.set taskId
        (OrderedSet.add ((t.taskToTranscripts.get taskId).getD []) transcriptPath) }

/-- A tracker after `register(path, task)` for each of these. -/
def registered (files : OrderedMap String Bytes) (registrations : List (String × String)) : TokenTracker ν :=
  registrations.foldl (fun t r => t.register files r.1 r.2) ⟨.empty, .empty⟩

/-- The transcripts of a task. -/
def transcriptsOf (t : TokenTracker ν) (taskId : String) : List (TranscriptTotals ν) :=
  ((t.taskToTranscripts.get taskId).getD []).filterMap fun path => (t.transcripts.get path).map TranscriptState.totals

variable [LT ν] [DecidableLT ν] (pricing : TokenPricing ν)

def addBucket (usage : TokenUsage ν) (bucket : UsageBucket ν) : TokenUsage ν where
  inputTokens := usage.inputTokens + bucket.inputTokens
  outputTokens := usage.outputTokens + bucket.outputTokens
  cacheReadTokens := usage.cacheReadTokens + bucket.cacheReadTokens
  cacheWriteTokens := usage.cacheWriteTokens + bucket.cacheWriteTokens
  costUsd := usage.costUsd
  pricingQuality :=
    if usage.pricingQuality = some .fallback then some .fallback
    else some (if pricing.isFallback (bucket.model.getD "") then .fallback else .exact)

def addTranscript (usage : TokenUsage ν) (state : TranscriptTotals ν) : TokenUsage ν :=
  let counted := state.tokenBuckets.values.foldl (addBucket pricing) usage
  match state.totalCostUsd with
  | some total => { counted with costUsd := counted.costUsd + total }
  | none =>
    if 0 < state.explicitCostUsd then { counted with costUsd := counted.costUsd + state.explicitCostUsd }
    else
      { counted with
        costUsd := state.tokenBuckets.values.foldl
          (fun cost bucket => cost + pricing.estimateCost (bucket.model.getD "") bucket) counted.costUsd }

def getUsage (t : TokenTracker ν) (taskId : String) : Option (TokenUsage ν) :=
  match t.transcriptsOf taskId with
  | [] => none
  | states => some (states.foldl (addTranscript pricing) ⟨0, 0, 0, 0, 0, none⟩)

end

end TokenTracker

/-- Where `scanOne` waits. -/
inductive ScanStage where
  | stat
  | sized (size : ℕ)
  | reading (start size : ℕ)
  | read (start size : ℕ) (buffer : Bytes)
  deriving DecidableEq

/-- A call of `scanAll` or `scanTask`, at the first of the transcripts that it has still to scan. -/
structure ScanCall where
  paths : List String
  stage : ScanStage
  deriving DecidableEq

inductive ScanAction where
  | stat
  /-- What `scanOne` does when it has the size. -/
  | resume
  | read
  /-- `stat`, `open` or `read` throws. -/
  | fail
  /-- What `scanOne` does when it has the bytes. -/
  | parse
  deriving DecidableEq

inductive ScanEvent where
  | append (path : String) (bytes : Bytes)
  | scanAll
  | scanTask (taskId : String)
  | scan (i : ℕ) (action : ScanAction)
  deriving DecidableEq

structure TokenScans (ν : Type) where
  tracker : TokenTracker ν
  files : OrderedMap String Bytes
  calls : List ScanCall

def ScanCall.next (call : ScanCall) : ScanCall := ⟨call.paths.tail, .stat⟩

namespace TokenScans

variable {ν : Type} [Zero ν] [Add ν] [Sub ν] [DecidableEq ν]

def start (registrations : List (String × String)) (files : OrderedMap String Bytes) : TokenScans ν :=
  ⟨.registered files registrations, files, []⟩

variable (num : NumberText ν) (s : TokenScans ν)

def setCall (i : ℕ) (call : ScanCall) : TokenScans ν := { s with calls := s.calls.set i call }

def setTranscript (path : String) (state : TranscriptState ν) : TokenScans ν :=
  { s with tracker := { s.tracker with transcripts := s.tracker.transcripts.set path state } }

/-- The size is compared with the offset; `none` is a file that has not grown. -/
def afterStat (state : TranscriptState ν) (size : ℕ) : TranscriptState ν × Option ℕ :=
  if size = state.parseByteOffset then ({ state with byteOffset := size }, none)
  else if size < state.parseByteOffset then ({ state with parseByteOffset := 0, totals := .empty }, some 0)
  else (state, some state.parseByteOffset)

/-- The complete lines are processed, and whether none of them threw. -/
def afterRead (state : TranscriptState ν) (start size : ℕ) (buffer : Bytes) : TranscriptState ν × Bool :=
  match TokenTracker.throughLastNewline buffer with
  | [] => ({ state with byteOffset := size }, true)
  | consumable =>
    let processed := state.totals.processLines num (LineFile.read (readTranscriptLine num) consumable)
    ({ state with
      parseByteOffset := start + consumable.length
      byteOffset := size
      totals := processed.1 }, processed.2)

def scanOne (i : ℕ) (call : ScanCall) (path : String) : ScanStage → ScanAction → Option (TokenScans ν)
  | .stat, .stat =>
    match s.files.get path with
    | none => some (s.setCall i call.next)
    | some bytes => some (s.setCall i ⟨call.paths, .sized bytes.length⟩)
  | .sized size, .resume =>
    (s.tracker.transcripts.get path).map fun state =>
      let (state, start) := afterStat state size
      (s.setTranscript path state).setCall i (start.elim call.next fun start => ⟨call.paths, .reading start size⟩)
  | .reading start size, .read =>
    match s.files.get path with
    | none => some (s.setCall i call.next)
    | some bytes => some (s.setCall i ⟨call.paths, .read start size ((bytes.drop start).take (size - start))⟩)
  | .read start size buffer, .parse =>
    (s.tracker.transcripts.get path).map fun state =>
      let (state, ok) := afterRead num state start size buffer
      (s.setTranscript path state).setCall i (if ok then call.next else ⟨[], .stat⟩)
  | .stat, .fail => some (s.setCall i call.next)
  | .reading _ _, .fail => some (s.setCall i call.next)
  | _, _ => none

def step (s : TokenScans ν) : ScanEvent → Option (TokenScans ν)
  | .append path bytes => some { s with files := s.files.set path ((s.files.get path).getD [] ++ bytes) }
  | .scanAll => some { s with calls := s.calls ++ [⟨s.tracker.transcripts.keys, .stat⟩] }
  | .scanTask taskId =>
    let paths := ((s.tracker.taskToTranscripts.get taskId).getD []).filter fun path => s.tracker.transcripts.has path
    some { s with calls := s.calls ++ [⟨paths, .stat⟩] }
  | .scan i action =>
    s.calls[i]?.bind fun call =>
      match call.paths with
      | [] => none
      | path :: _ => s.scanOne num i call path call.stage action

end TokenScans

end Kookr.Core
