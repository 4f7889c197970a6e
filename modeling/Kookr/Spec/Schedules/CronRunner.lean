import Kookr.Spec.Schedules.TriggerBudget

/-! The runner over all schedules (`src/server/schedule-runner.ts`): ticks, the startup catch-up in auto
mode, and `runNow`. A loop keeps the thread from one await to the next, and has the rows as they were when
it listed them; a fire reads its row anew when it takes the gate. What a fire does after that is what the
fires of one schedule do, with the call of the launcher apart. A tick waits no longer for its fires than
it likes, and a catch-up may have its lease denied at any time. The clock does not go back. -/

namespace Kookr.Schedules

open Kookr.Lib

variable {ν : Type}

def CATCHUP_MAX_STALENESS_MS : ℕ := 24 * 60 * 60 * 1000

/-- `computeNextRunFor`, with `nextRun` of the cron library. -/
def Schedule.computeNextRunFor (nextRun : String → ℕ → Option ℕ) (s : Schedule ν) : Option ℕ :=
  nextRun s.definition.cron (s.lastScheduledFor.getD s.createdAt)

def rotateFromCursor (schedules : List (Schedule ν)) (cursorId : Option String) : List (Schedule ν) :=
  match cursorId with
  | none => schedules
  | some cursorId =>
    match schedules.findIdx? fun schedule => schedule.id = cursorId with
    | none => schedules
    | some i => schedules.drop i ++ schedules.take i

/-- A fire in `inFlightFires`. -/
structure CronFire where
  receiptId : ℕ
  stage : BudgetStage
  /-- The launcher has been called. -/
  called : Bool
  deriving DecidableEq

/-- What a loop does with the schedule that is next. -/
inductive LoopAction where
  | pass
  | exhausted
  | defer
  | fire (scheduledFor : ℕ)
  | leaseDenied (scheduledFor : ℕ)
  | stale (scheduledFor : ℕ)
  deriving DecidableEq

structure TickPass (ν : Type) where
  now : ℕ
  rest : List (Schedule ν)
  fired : ℕ
  deferred : List String
  /-- The schedules are dealt with, and the fires are waited for. -/
  settling : Bool

inductive CatchUpPass (ν : Type) where
  | pending
  /-- The receipt of the fire that is waited for comes last. -/
  | walking (now : ℕ) (rest : List (Schedule ν)) (waiting : Option ℕ)
  | done

/-- The loop that has the thread. -/
inductive LoopTurn where
  | tick
  | catchUp
  deriving DecidableEq

inductive CronEvent (ν : Type) where
  | clock (now : ℕ)
  | startTick
  | tickNext
  | resumeTick
  | endTick
  | startCatchUp
  | catchUpNext (leaseDenied : Bool)
  | resumeCatchUp
  | runNow (id : String)
  | callLauncher (id : String)
  /-- A fire goes on. -/
  | fire (id : String) (e : BudgetEvent ν)
  | taskTerminal (e : Schedule.TaskTerminal ν) (threshold : ℕ)
  | setEnabled (id : String) (enabled : Bool) (operatorHold : Option Bool)

structure CronRunner (ν : Type) where
  clock : ℕ
  rows : ScheduleRows ν
  receipts : ℕ
  fires : OrderedMap String CronFire
  tick : Option (TickPass ν)
  tickCursorId : Option String
  catchUp : CatchUpPass ν
  turn : Option LoopTurn
  /-- The calls of the launcher for cron fires, which nothing of the code reads. -/
  launches : List (String × ℕ)

namespace CronRunner

def start (rows : ScheduleRows ν) (clock : ℕ) : CronRunner ν := ⟨clock, rows, 0, .empty, none, none, .pending, none, []⟩

variable (s : CronRunner ν) (nextRun : String → ℕ → Option ℕ) (maxFiresPerTick : ℕ)

/-- The fires of the schedule. -/
def budgetRun (row : Schedule ν) : BudgetRun ν := ⟨row, (s.fires.get row.id).map CronFire.stage, s.receipts, []⟩

/-- The row of the list may be an old one. -/
def fire (schedule : Schedule ν) (trigger : ScheduleExecutionTrigger) (decision : ScheduleExecutionDecision) (scheduledFor : Option ℕ) :
    CronRunner ν :=
  if schedule.archived then s
  else if trigger = .cron ∧ schedule.isTriggerLimitExhausted then
    { s with rows := s.rows.fireWrite schedule.id .markCronLimitExhausted 0 s.clock }
  else
    match s.rows.get schedule.id with
    | none => s
    | some fresh =>
      let next := (s.budgetRun fresh).admitFire trigger decision scheduledFor s.clock
      { s with
        rows := s.rows.replace next.schedule
        receipts := next.receipts
        fires :=
          match s.fires.get fresh.id, next.fire with
          | none, some stage => s.fires.set fresh.id ⟨s.receipts, stage, false⟩
          | _, _ => s.fires }

def tickAction (pass : TickPass ν) (schedule : Schedule ν) : LoopAction :=
  if schedule.isTriggerLimitExhausted then .exhausted
  else
    match schedule.computeNextRunFor nextRun with
    | none => .pass
    | some scheduledNextRun =>
      if pass.now < scheduledNextRun then .pass
      else if s.fires.has schedule.id then .pass
      else if max 1 maxFiresPerTick ≤ pass.fired then .defer
      else .fire scheduledNextRun

def startTick : Option (CronRunner ν) :=
  if s.tick.isSome then none
  else
    let enabled := s.rows.list.filter Schedule.enabled
    some { s with tick := some ⟨s.clock, rotateFromCursor enabled s.tickCursorId, 0, [], false⟩, turn := some .tick }

/-- The write of an exhausted schedule is awaited. -/
def tickNext : Option (CronRunner ν) :=
  match s.turn, s.tick with
  | some .tick, some pass =>
    match pass.rest with
    | [] => some { s with tick := some { pass with settling := true }, tickCursorId := pass.deferred.head?, turn := none }
    | schedule :: rest =>
      let after := { pass with rest }
      match s.tickAction nextRun maxFiresPerTick pass schedule with
      | .exhausted =>
        some { s with rows := s.rows.fireWrite schedule.id .markCronLimitExhausted 0 s.clock, tick := some after, turn := none }
      | .defer => some { s with tick := some { after with deferred := after.deferred ++ [schedule.id] } }
      | .fire scheduledNextRun =>
        some { s.fire schedule .cron .cronDue (some scheduledNextRun) with tick := some { after with fired := after.fired + 1 } }
      | _ => some { s with tick := some after }
  | _, _ => none

def resumeTick : Option (CronRunner ν) :=
  match s.tick with
  | some pass => if pass.settling then none else some { s with turn := some .tick }
  | none => none

def endTick : Option (CronRunner ν) :=
  match s.tick with
  | some pass => if pass.settling then some { s with tick := none } else none
  | none => none

def catchUpAction (now : ℕ) (leaseDenied : Bool) (schedule : Schedule ν) : LoopAction :=
  if schedule.enabled = false then .pass
  else if schedule.isTriggerLimitExhausted then .exhausted
  else
    match schedule.computeNextRunFor nextRun with
    | none => .pass
    | some scheduledNext =>
      if scheduledNext < now ∧ now ≤ scheduledNext + CATCHUP_MAX_STALENESS_MS then
        if leaseDenied then .leaseDenied scheduledNext else .fire scheduledNext
      else if scheduledNext + CATCHUP_MAX_STALENESS_MS < now then .stale scheduledNext
      else .pass

def startCatchUp : Option (CronRunner ν) :=
  match s.catchUp with
  | .pending => some { s with catchUp := .walking s.clock s.rows.list none, turn := some .catchUp }
  | _ => none

def catchUpNext (leaseDenied : Bool) : Option (CronRunner ν) :=
  match s.turn, s.catchUp with
  | some .catchUp, .walking _ [] _ => some { s with catchUp := .done, turn := none }
  | some .catchUp, .walking now (schedule :: rest) _ =>
    let awaiting (write : FireWrite) : CronRunner ν :=
      { s with rows := s.rows.fireWrite schedule.id write 0 s.clock, catchUp := .walking now rest none, turn := none }
    match catchUpAction nextRun now leaseDenied schedule with
    | .exhausted => some (awaiting .markCronLimitExhausted)
    | .leaseDenied scheduledNext => some (awaiting (.recordCatchUpLeaseDenied scheduledNext))
    | .stale scheduledNext => some (awaiting (.recordCatchUpSkipped scheduledNext))
    | .fire scheduledNext =>
      some { s.fire schedule .cron .catchUp (some scheduledNext) with
        catchUp := .walking now rest (if s.fires.has schedule.id then none else some s.receipts)
        turn := none }
    | _ => some { s with catchUp := .walking now rest none }
  | _, _ => none

/-- The fire is over that was waited for. -/
def resumeCatchUp : Option (CronRunner ν) :=
  match s.catchUp with
  | .walking _ _ waiting =>
    if waiting.any fun receiptId => s.fires.values.any fun fire => fire.receiptId = receiptId then none
    else some { s with turn := some .catchUp }
  | _ => none

def callLauncher (id : String) : Option (CronRunner ν) :=
  match s.fires.get id with
  | some ⟨receiptId, .preparing receipt, false⟩ =>
    some { s with
      fires := s.fires.set id ⟨receiptId, .preparing receipt, true⟩
      launches :=
        match receipt.trigger, receipt.scheduledFor with
        | .cron, some scheduledFor => (id, scheduledFor) :: s.launches
        | _, _ => s.launches }
  | _ => none

/-- The launcher answers when it has been called. -/
def goOn (id : String) (e : BudgetEvent ν) : Option (CronRunner ν) :=
  match s.rows.get id, s.fires.get id, e with
  | some _, some ⟨_, _, false⟩, .launched .. => none
  | some row, some fire, e =>
    if e.ofFire then
      ((s.budgetRun row).step e).map fun next =>
        { s with
          rows := s.rows.replace next.schedule
          fires :=
            match next.fire with
            | none => s.fires.delete id
            | some stage => s.fires.set id { fire with stage } }
    else none
  | _, _, _ => none

def runNow (id : String) : CronRunner ν :=
  match s.rows.get id with
  | none => s
  | some schedule => s.fire schedule .manual .manualRun none

/-- A loop that has the thread goes on to its next await. -/
def step (s : CronRunner ν) (e : CronEvent ν) : Option (CronRunner ν) :=
  match e with
  | .clock now => if s.clock ≤ now then some { s with clock := now } else none
  | .tickNext => s.tickNext nextRun maxFiresPerTick
  | .catchUpNext leaseDenied => s.catchUpNext nextRun leaseDenied
  | e =>
    if s.turn.isSome then none
    else
      match e with
      | .startTick => s.startTick
      | .resumeTick => s.resumeTick
      | .endTick => s.endTick
      | .startCatchUp => s.startCatchUp
      | .resumeCatchUp => s.resumeCatchUp
      | .runNow id => some (s.runNow id)
      | .callLauncher id => s.callLauncher id
      | .fire id e => s.goOn id e
      | .taskTerminal e threshold => some { s with rows := s.rows.recordTaskTerminalOutcome e threshold s.clock }
      | .setEnabled id enabled operatorHold => some { s with rows := s.rows.setEnabled id enabled operatorHold s.clock }
      | _ => none

end CronRunner

end Kookr.Schedules
