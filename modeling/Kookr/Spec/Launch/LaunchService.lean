import Kookr.Lib.Exec
import Kookr.Spec.Launch.Slots
import Kookr.Spec.Remote.TerminalPublicationGate

/-! Launches and promotions between their awaits (`launchTaskCore` in `src/server/launch-service.ts`,
`promotePendingTasks` in `src/server/agent-lifecycle.ts`). Each call stands at an `await` until an
event settles it; what one event does runs without interruption. A promotion also stands still
between two rounds of its loop. The events choose what comes from
outside: flushes that fail, dependency decisions, adapters that attach their session at any time
after they are started, also when the launch has given them up. `ownMarker` says that the task still
carries the marker the call wrote. -/

namespace Kookr.Launch

open Kookr.Lib

structure LaunchConfig where
  maxActive : ℕ
  maxPending : ℕ
  reservedActiveSlots : ℕ
  reservedSlotSources : List String

inductive DependencyDecision where
  | undeclared
  | denied (reason : ParkedReason)
  | admitted (probe : Bool)

def DependencyDecision.probe : DependencyDecision → Bool
  | .admitted probe => probe
  | _ => false

structure LaunchOptions where
  launchSource : Option String
  launchActorId : Option String
  autoCloseOnSignal : Bool
  claimIssue : Bool
  decision : DependencyDecision

def trim (text : String) : String :=
  String.ofList ((text.toList.dropWhile Remote.isTrimmed).reverse.dropWhile Remote.isTrimmed).reverse

def isReservedSlotLaunch (source actorId : Option String) (reservedSlotSources : List String) : Bool :=
  source.any (reservedSlotSources.contains ·) ||
    (actorId.map trim).any fun trimmedActor => trimmedActor ≠ "" && reservedSlotSources.contains trimmedActor

namespace LaunchOptions

variable (opts : LaunchOptions) (config : LaunchConfig)

def privileged : Bool :=
  isReservedSlotLaunch (opts.launchSource.or (some "api")) opts.launchActorId config.reservedSlotSources

def effectiveMaxActive : ℕ :=
  if config.reservedActiveSlots = 0 then config.maxActive
  else if opts.privileged config then config.maxActive
  else config.maxActive - config.reservedActiveSlots

def deniedMarker : Option LaunchAdmission :=
  match opts.decision with
  | .denied reason => some (.parked reason)
  | _ => none

end LaunchOptions

/-- Where a launch stands: what it awaits, with its task and the token of its reservation. -/
inductive LaunchStage where
  | syncing
  | persisting (id token : ℕ)
  | preparing (id : ℕ)
  | probePersisting (id token : ℕ)
  | refreshing (id token : ℕ)
  | launching (id token adapter : ℕ)
  | stopping (id token : ℕ)
  | fencing (id token : ℕ)
  | registering (id : ℕ)
  | ended

/-- Where a promotion stands: at the head of its loop, or at an `await`. -/
inductive PromotionStage where
  | looping
  | deciding (id token : ℕ)
  | denying (id token : ℕ) (before : Option LaunchAdmission)
  | preparing (id token : ℕ) (probe : Bool)
  | probePersisting (id token : ℕ)
  | refreshing (id token : ℕ)
  | resuming (id token : ℕ) (probe : Bool)
  | launching (id token : ℕ) (probe : Bool) (adapter : ℕ)
  | stopping (id token : ℕ) (probe owned : Bool)
  | fencing (id token : ℕ)
  | registering (id token : ℕ)
  | ended

/-- What a promotion remembers from task to task. -/
structure Promotion where
  seen : List ℕ
  blockedByDependency : List ℕ

def Promotion.block (locals : Promotion) (id : ℕ) : Promotion :=
  { locals with blockedByDependency := locals.blockedByDependency ++ [id] }

inductive Call where
  | launch (opts : LaunchOptions) (stage : LaunchStage)
  | promotion (locals : Promotion) (stage : PromotionStage)

/-- An adapter that was started for a task. -/
structure Adapter where
  id : ℕ
  attached : Bool
  rejected : Bool

structure LaunchState where
  slots : Slots
  calls : List Call
  adapters : List Adapter

namespace LaunchState

/-- No call has been made yet. -/
def initial (slots : Slots) : LaunchState := ⟨slots, [], []⟩

variable (config : LaunchConfig) (s : LaunchState) (p : ℕ)

def goto (call : Call) (slots : Slots) : LaunchState := { s with slots, calls := s.calls.set p call }

/-- The adapter is started, and the call waits for it. -/
def startAdapter (id : ℕ) (slots : Slots) (call : ℕ → Call) : LaunchState :=
  { s with slots, calls := s.calls.set p (call s.adapters.length), adapters := s.adapters ++ [⟨id, false, false⟩] }

def statusIs (slots : Slots) (id : ℕ) (status : TaskStatus → Bool) : Bool :=
  (slots.tasks.get id).any fun task => status task.status

/-- What both kinds of calls do when the probe of a task has failed. -/
def reparkAfterFailedProbe (slots : Slots) (id : ℕ) : Slots :=
  if statusIs slots id TaskStatus.isTerminalStatus then slots.setLaunchAdmission id none
  else
    let slots := slots.setLaunchAdmission id (some (.parked .dependencyDegraded))
    let slots := if statusIs slots id (· = .inProgress) then (slots.reopenTask id).getD slots else slots
    if statusIs slots id (· = .open) then slots.tryTransition id .pending else slots

section launches

variable (opts : LaunchOptions) (id token : ℕ)

/-- Up to the wait for the sync of the checkout: the queue's limit. -/
def launch : LaunchState :=
  let denied := opts.deniedMarker.isSome
  if s.slots.getActiveCount ≥ opts.effectiveMaxActive config && !denied && s.slots.getPendingCount ≥ config.maxPending then
    { s with calls := s.calls ++ [.launch opts .ended] }
  else { s with calls := s.calls ++ [.launch opts .syncing] }

/-- The task is queued, behind a flush, with a reservation that takes no slot. -/
def persistQueued (slots : Slots) (marker : Option LaunchAdmission) : LaunchState :=
  match slots.beginReservationWithToken id false with
  | none => s.goto p (.launch opts .ended) (slots.tryTransition id .cancelled)
  | some (token, slots) =>
    s.goto p (.launch opts (.persisting id token)) ((slots.tryTransition id .pending).setLaunchAdmission id marker)

/-- The task is created, and the capacity is looked at. -/
def created (claimLost : Bool) : LaunchState :=
  let (id, slots) := s.slots.createTask
    ⟨opts.deniedMarker, opts.autoCloseOnSignal, opts.launchSource, opts.privileged config⟩
  if opts.claimIssue && claimLost then s.goto p (.launch opts .ended) ((slots.deleteTask id).getD slots)
  else if opts.deniedMarker.isSome then s.persistQueued p opts id slots opts.deniedMarker
  else if slots.getActiveCount ≥ opts.effectiveMaxActive config then
    if opts.decision.probe then s.persistQueued p opts id slots (some (.parked .halfOpenWaitingForCapacity))
    else if opts.claimIssue then s.persistQueued p opts id slots none
    else s.goto p (.launch opts .ended) (slots.tryTransition id .pending)
  else s.goto p (.launch opts (.preparing id)) slots

def persisted (ok ownMarker : Bool) : LaunchState :=
  let compensate := statusIs s.slots id TaskStatus.launchable && !s.slots.hasForeignFreshLaunchReservation id token && ownMarker
  let slots := s.slots.endLaunch id token
  s.goto p (.launch opts .ended) (if !ok && compensate then slots.tryTransition id .cancelled else slots)

/-- The slot is reserved. -/
def reserve : LaunchState :=
  match s.slots.beginReservationWithToken id true with
  | none => s.goto p (.launch opts .ended) s.slots
  | some (token, slots) =>
    if opts.decision.probe then
      s.goto p (.launch opts (.probePersisting id token)) (slots.setLaunchAdmission id (some .probing))
    else s.startAdapter p id slots fun adapter => .launch opts (.launching id token adapter)

/-- The handler of what goes wrong before the adapter of a probe is started. -/
def launchNotStarted (slots : Slots) (ownMarker : Bool) : Slots :=
  let owns := slots.tasks.has id && !slots.hasForeignFreshLaunchReservation id token && ownMarker
  let compensate := owns && statusIs slots id TaskStatus.launchable
  let slots := if owns then slots.setLaunchAdmission id none else slots
  let slots := slots.endLaunch id token
  if compensate then slots.tryTransition id .cancelled else slots

/-- The launch owns its reservation, or takes it again. -/
def renewReservation : Option (ℕ × Slots) :=
  if s.slots.ownsLaunchReservation id token then some (token, s.slots) else s.slots.beginReservationWithToken id true

def probePersisted (ok ownMarker probeActive : Bool) (refreshed : Option LaunchAdmission) : LaunchState :=
  if !ok then s.goto p (.launch opts .ended) (launchNotStarted id token s.slots ownMarker)
  else if !s.slots.tasks.has id || statusIs s.slots id TaskStatus.isTerminalStatus then
    let slots := if ownMarker then s.slots.setLaunchAdmission id none else s.slots
    s.goto p (.launch opts .ended) (slots.endLaunch id token)
  else
    match s.renewReservation id token with
    | none => s.goto p (.launch opts .ended) (launchNotStarted id token s.slots ownMarker)
    | some (token, slots) =>
      if probeActive then s.startAdapter p id slots fun adapter => .launch opts (.launching id token adapter)
      else
        match slots.transition id .pending with
        | none => s.goto p (.launch opts .ended) (launchNotStarted id token slots ownMarker)
        | some slots => s.goto p (.launch opts (.refreshing id token)) (slots.setLaunchAdmission id refreshed)

def refreshed (ok ownMarker : Bool) : LaunchState :=
  if ok then s.goto p (.launch opts .ended) (s.slots.endLaunch id token)
  else s.goto p (.launch opts .ended) (launchNotStarted id token s.slots ownMarker)

def launchFails : LaunchState :=
  if opts.decision.probe then s.goto p (.launch opts (.stopping id token)) s.slots
  else s.goto p (.launch opts .ended) ((s.slots.endLaunch id token).tryTransition id .terminated)

/-- The worker of a failed probe that could not be stopped keeps its slot. -/
def keepCleanup (slots : Slots) : Slots :=
  if statusIs slots id TaskStatus.isTerminalStatus then slots.setLaunchAdmission id (some .probing)
  else if statusIs slots id TaskStatus.launchable then slots.tryTransition id .inProgress
  else slots

def stopped (cleanupFailed : Bool) : LaunchState :=
  if cleanupFailed then s.goto p (.launch opts (.fencing id token)) (keepCleanup id s.slots)
  else s.goto p (.launch opts .ended) (reparkAfterFailedProbe (s.slots.endLaunch id token) id)

end launches

section promotions

variable (locals : Promotion) (id token : ℕ)

/-- The head of the loop: the check, the pick and the reservation. -/
def promoteNext : LaunchState :=
  let activeCount := s.slots.getActiveCount
  if activeCount < config.maxActive then
    match s.slots.pickNextPendingForPromotion (config.maxActive - activeCount) locals.blockedByDependency with
    | none => s.goto p (.promotion locals .ended) s.slots
    | some id =>
      match s.slots.beginReservationWithToken id true with
      -- never: the picked task is pending and has no reservation
      | none => s.goto p (.promotion locals .ended) s.slots
      | some (token, slots) => s.goto p (.promotion locals (.deciding id token)) slots
  else s.goto p (.promotion locals .ended) s.slots

/-- The end of one round of the loop. -/
def nextRound (slots : Slots) : LaunchState := s.goto p (.promotion locals .looping) (slots.endLaunch id token)

def stopLoop (slots : Slots) : LaunchState := s.goto p (.promotion locals .ended) (slots.endLaunch id token)

def decided (decision : DependencyDecision) : LaunchState :=
  let current := s.slots.tasks.get id
  if !statusIs s.slots id (· = .pending) || !s.slots.ownsLaunchReservation id token then
    s.nextRound p locals id token s.slots
  else
    match decision with
    | .denied reason =>
      s.goto p (.promotion (locals.block id) (.denying id token (current.bind Task.launchAdmission)))
        (s.slots.setLaunchAdmission id (some (.parked reason)))
    | decision =>
      let slots :=
        match decision with
        | .admitted _ => s.slots.setLaunchAdmission id none
        | _ => s.slots
      if id ∈ locals.seen then s.stopLoop p locals id token (slots.tryTransition id .cancelled)
      else s.goto p (.promotion { locals with seen := locals.seen ++ [id] } (.preparing id token decision.probe)) slots

def denialPersisted (before : Option LaunchAdmission) (ok ownMarker : Bool) : LaunchState :=
  if ok then s.nextRound p locals id token s.slots
  else
    let restores := s.slots.tasks.has id && !statusIs s.slots id TaskStatus.isTerminalStatus && ownMarker &&
      !s.slots.hasForeignFreshLaunchReservation id token
    s.stopLoop p locals id token (if restores then s.slots.setLaunchAdmission id before else s.slots)

/-- What goes wrong before the adapter is started: a probe ends the loop, any other task that is
still reserved is cancelled. -/
def promotionNotStarted (probe ownMarker : Bool) (before : Option LaunchAdmission) : LaunchState :=
  if probe then
    let owns := s.slots.tasks.has id && !s.slots.hasForeignFreshLaunchReservation id token && ownMarker
    let marker := if statusIs s.slots id TaskStatus.isTerminalStatus then none else before
    s.stopLoop p locals id token (if owns then s.slots.setLaunchAdmission id marker else s.slots)
  else if s.slots.ownsLaunchReservation id token then
    s.nextRound p locals id token (s.slots.tryTransition id .cancelled)
  else s.nextRound p locals id token s.slots

def promotionPrepared (probe ok ownMarker : Bool) (before : Option LaunchAdmission) : LaunchState :=
  if !ok then s.promotionNotStarted p locals id token probe ownMarker before
  else if probe then
    s.goto p (.promotion locals (.probePersisting id token)) (s.slots.setLaunchAdmission id (some .probing))
  else s.goto p (.promotion locals (.resuming id token probe)) s.slots

def promotionProbePersisted (ok ownMarker probeActive : Bool) (before refreshed : Option LaunchAdmission) : LaunchState :=
  if !ok then s.promotionNotStarted p locals id token true ownMarker before
  else if !statusIs s.slots id (· = .pending) then
    s.nextRound p locals id token (if ownMarker then s.slots.setLaunchAdmission id none else s.slots)
  else if !s.slots.ownsLaunchReservation id token || !ownMarker then
    s.nextRound p (locals.block id) id token s.slots
  else if !probeActive then
    s.goto p (.promotion locals (.refreshing id token)) (s.slots.setLaunchAdmission id refreshed)
  else s.goto p (.promotion locals (.resuming id token true)) s.slots

def promotionRefreshed (ok ownMarker : Bool) (before : Option LaunchAdmission) : LaunchState :=
  if ok then s.nextRound p (locals.block id) id token s.slots
  else s.promotionNotStarted p locals id token true ownMarker before

def resumed (probe ok ownMarker : Bool) (before : Option LaunchAdmission) : LaunchState :=
  if ok then s.startAdapter p id s.slots fun adapter => .promotion locals (.launching id token probe adapter)
  else s.promotionNotStarted p locals id token probe ownMarker before

/-- After the stop of the session that a failed launch has left. `replaced`: another owner or
session has taken the task over. -/
def promotionStopped (probe owned cleanupFailed ownMarker replaced : Bool) : LaunchState :=
  if probe then
    if cleanupFailed then
      s.goto p (.promotion locals (.fencing id token)) (if ownMarker then keepCleanup id s.slots else s.slots)
    else if !ownMarker then s.nextRound p locals id token s.slots
    else
      let reparked := s.slots.tasks.has id && !statusIs s.slots id TaskStatus.isTerminalStatus
      s.nextRound p (if reparked then locals.block id else locals) id token (reparkAfterFailedProbe s.slots id)
  else if !owned && replaced then s.nextRound p locals id token s.slots
  else s.nextRound p locals id token (s.slots.tryTransition id .cancelled)

end promotions

inductive Event where
  | launch (opts : LaunchOptions)
  | created (p : ℕ) (claimLost : Bool)
  | persisted (p : ℕ) (ok ownMarker : Bool)
  | promote
  | promoteNext (p : ℕ)
  | decided (p : ℕ) (decision : DependencyDecision)
  | denialPersisted (p : ℕ) (ok ownMarker : Bool)
  /-- The loadout and the config epoch are there, or not. -/
  | prepared (p : ℕ) (ok ownMarker : Bool) (before : Option LaunchAdmission)
  | probePersisted (p : ℕ) (ok ownMarker probeActive : Bool) (before refreshed : Option LaunchAdmission)
  | refreshed (p : ℕ) (ok ownMarker : Bool) (before : Option LaunchAdmission)
  | resumed (p : ℕ) (ok ownMarker : Bool) (before : Option LaunchAdmission)
  /-- The adapter adds its session to the task. -/
  | attach (adapter : ℕ)
  | launchSettled (p : ℕ)
  /-- The adapter rejects, or the time is up. -/
  | launchFails (p : ℕ)
  | stopped (p : ℕ) (cleanupFailed ownMarker replaced : Bool)
  | fenced (p : ℕ)
  | registered (p : ℕ) (liveProbe : Bool)
  | completeTask (id : ℕ)
  | terminateTask (id : ℕ)
  | cancelTask (id : ℕ)
  | deleteTask (id : ℕ)
  | tick (now : ℤ)

def isAttached (adapter : ℕ) : Bool := s.adapters[adapter]?.any Adapter.attached

/-- The adapter's call of `addSession`. -/
def attach (a : ℕ) : Option LaunchState :=
  s.adapters[a]?.bind fun adapter =>
    if adapter.attached || adapter.rejected then none
    else
      match s.slots.addSession adapter.id with
      | some slots => some { s with slots, adapters := s.adapters.set a { adapter with attached := true } }
      | none => some { s with adapters := s.adapters.set a { adapter with rejected := true } }

/-- A launch goes on from its `await`. -/
def launchStep (opts : LaunchOptions) : LaunchStage → Event → Option LaunchState
  | .syncing, .created _ claimLost => some (s.created config p opts claimLost)
  | .persisting id token, .persisted _ ok ownMarker => some (s.persisted p opts id token ok ownMarker)
  | .preparing id, .prepared _ ok _ _ => some (if ok then s.reserve p opts id else s.goto p (.launch opts .ended) s.slots)
  | .probePersisting id token, .probePersisted _ ok ownMarker probeActive _ refreshed =>
    some (s.probePersisted p opts id token ok ownMarker probeActive refreshed)
  | .refreshing id token, .refreshed _ ok ownMarker _ => some (s.refreshed p opts id token ok ownMarker)
  | .launching id _ adapter, .launchSettled _ =>
    if s.isAttached adapter then some (s.goto p (.launch opts (.registering id)) s.slots) else none
  | .launching id token _, .launchFails _ => some (s.launchFails p opts id token)
  | .stopping id token, .stopped _ cleanupFailed _ _ => some (s.stopped p opts id token cleanupFailed)
  | .fencing id token, .fenced _ => some (s.goto p (.launch opts .ended) (s.slots.endLaunch id token))
  | .registering id, .registered _ liveProbe =>
    some (s.goto p (.launch opts .ended)
      (if opts.decision.probe && liveProbe then s.slots.setLaunchAdmission id none else s.slots))
  | _, _ => none

/-- A promotion goes on from its `await`. -/
def promotionStep (locals : Promotion) : PromotionStage → Event → Option LaunchState
  | .looping, .promoteNext _ => some (s.promoteNext config p locals)
  | .deciding id token, .decided _ decision => some (s.decided p locals id token decision)
  | .denying id token before, .denialPersisted _ ok ownMarker =>
    some (s.denialPersisted p locals id token before ok ownMarker)
  | .preparing id token probe, .prepared _ ok ownMarker before =>
    some (s.promotionPrepared p locals id token probe ok ownMarker before)
  | .probePersisting id token, .probePersisted _ ok ownMarker probeActive before refreshed =>
    some (s.promotionProbePersisted p locals id token ok ownMarker probeActive before refreshed)
  | .refreshing id token, .refreshed _ ok ownMarker before =>
    some (s.promotionRefreshed p locals id token ok ownMarker before)
  | .resuming id token probe, .resumed _ ok ownMarker before =>
    some (s.resumed p locals id token probe ok ownMarker before)
  | .launching id token _ adapter, .launchSettled _ =>
    if s.isAttached adapter then some (s.goto p (.promotion locals (.registering id token)) s.slots) else none
  | .launching id token probe _, .launchFails _ =>
    some (s.goto p (.promotion locals (.stopping id token probe (s.slots.ownsLaunchReservation id token))) s.slots)
  | .stopping id token probe owned, .stopped _ cleanupFailed ownMarker replaced =>
    some (s.promotionStopped p locals id token probe owned cleanupFailed ownMarker replaced)
  | .fencing id token, .fenced _ => some (s.nextRound p (locals.block id) id token s.slots)
  | .registering id token, .registered _ liveProbe =>
    some (s.nextRound p locals id token (if liveProbe then s.slots.setLaunchAdmission id none else s.slots))
  | _, _ => none

def callStep (e : Event) : Option LaunchState :=
  s.calls[p]?.bind fun
    | .launch opts stage => s.launchStep config p opts stage e
    | .promotion locals stage => s.promotionStep config p locals stage e

def step (e : Event) : Option LaunchState :=
  match e with
  | .launch opts => some (s.launch config opts)
  | .promote => some { s with calls := s.calls ++ [.promotion ⟨[], []⟩ .looping] }
  | .attach adapter => s.attach adapter
  | .completeTask id => (s.slots.transition id .completed).map fun slots => { s with slots }
  | .terminateTask id => (s.slots.transition id .terminated).map fun slots => { s with slots }
  | .cancelTask id => (s.slots.transition id .cancelled).map fun slots => { s with slots }
  | .deleteTask id => (s.slots.deleteTask id).map fun slots => { s with slots }
  | .tick now => some { s with slots := { s.slots with now } }
  | .created p _ | .persisted p _ _ | .promoteNext p | .decided p _ | .denialPersisted p _ _ | .prepared p _ _ _
  | .probePersisted p _ _ _ _ _ | .refreshed p _ _ _ | .resumed p _ _ _ | .launchSettled p | .launchFails p
  | .stopped p _ _ _ | .fenced p | .registered p _ => s.callStep config p e

end LaunchState

end Kookr.Launch
