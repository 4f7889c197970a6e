import Kookr.Lib.IsoDate
import Kookr.Spec.Launch.Slots

/-! What is known of the end of a task (`src/core/terminal-receipt.ts`,
`src/shared/contracts/task-status.ts`, `src/shared/contracts/task.ts`): the cause of a termination,
and the receipt of a terminal transition. -/

namespace Kookr.Core

open Kookr.Lib Kookr.Launch

inductive TerminationReason where
  | serverRestart
  | oom
  | timeout
  | manual
  | supervisor
  | providerTransient
  | unknown
  deriving DecidableEq

structure TerminationCause where
  reason : TerminationReason
  signal : Option String
  detail : Option String
  deriving DecidableEq

/-- `unknown_legacy` is made up for older rows only. -/
inductive TerminalReasonCategory where
  | completedNormal
  | completedRecovery
  | serverRestart
  | timeout
  | oom
  | providerFailure
  | launchFailure
  | manual
  | supervisor
  | unknown
  deriving DecidableEq

inductive TerminalTransitionSource where
  | user
  | watchdog
  | restartRecovery
  | providerAdmission
  | schedule
  | taskSelf
  | supervisor
  | unknown
  deriving DecidableEq

inductive TerminalWorkDisposition where
  | completed
  | relaunched
  | recovered
  | superseded
  | abandoned
  | unknown
  deriving DecidableEq

structure TerminalTransitionContext where
  source : Option TerminalTransitionSource
  reason : Option TerminalReasonCategory
  recoveryCorrelationId : Option String
  workDisposition : Option TerminalWorkDisposition
  detail : Option String
  deriving DecidableEq

structure TaskTerminalReceipt where
  status : TaskStatus
  reason : TerminalReasonCategory
  source : TerminalTransitionSource
  «at» : String
  priorState : TaskStatus
  recoveryCorrelationId : Option String
  workDisposition : TerminalWorkDisposition
  detail : Option String
  bookkeepingError : Option String
  deriving DecidableEq

inductive CompletionPath where
  | normal
  | outboxDrained
  | recovery
  | apiComplete
  | uiComplete
  | other
  | unknown
  deriving DecidableEq

namespace TerminationReason

/-- `reasonCategoryFromTermination`. -/
def category : TerminationReason → TerminalReasonCategory
  | .serverRestart => .serverRestart
  | .oom => .oom
  | .timeout => .timeout
  | .manual => .manual
  | .supervisor => .supervisor
  | .providerTransient => .providerFailure
  | .unknown => .unknown

/-- `sourceFromTermination`. -/
def source : TerminationReason → TerminalTransitionSource
  | .serverRestart => .restartRecovery
  | .oom | .timeout => .watchdog
  | .manual => .user
  | .supervisor => .supervisor
  | .providerTransient => .taskSelf
  | .unknown => .unknown

end TerminationReason

namespace TerminalTransitionContext

def empty : TerminalTransitionContext := ⟨none, none, none, none, none⟩

/-- `{ ...base, ...context }`. -/
def withDefaults (context base : TerminalTransitionContext) : TerminalTransitionContext where
  source := context.source.or base.source
  reason := context.reason.or base.reason
  recoveryCorrelationId := context.recoveryCorrelationId.or base.recoveryCorrelationId
  workDisposition := context.workDisposition.or base.workDisposition
  detail := context.detail.or base.detail

end TerminalTransitionContext

def terminalContextFromCompletionPath : Option CompletionPath → TerminalTransitionContext
  | some .recovery => { TerminalTransitionContext.empty with source := some .restartRecovery, reason := some .completedRecovery }
  | some .apiComplete | some .uiComplete => { TerminalTransitionContext.empty with source := some .user, reason := some .completedNormal }
  | some .normal | some .outboxDrained => { TerminalTransitionContext.empty with source := some .taskSelf, reason := some .completedNormal }
  | some .other | some .unknown | none => { TerminalTransitionContext.empty with reason := some .completedNormal }

def defaultsForStatus : TaskStatus → TerminalReasonCategory × TerminalWorkDisposition
  | .completed => (.completedNormal, .completed)
  | .cancelled => (.manual, .abandoned)
  | .terminated => (.unknown, .abandoned)
  | _ => (.unknown, .unknown)

def buildTerminalReceipt (status priorState : TaskStatus) (at' : String) (context : TerminalTransitionContext) : TaskTerminalReceipt where
  status := status
  reason := context.reason.getD (defaultsForStatus status).1
  source := context.source.getD .unknown
  «at» := at'
  priorState := priorState
  recoveryCorrelationId := context.recoveryCorrelationId
  workDisposition := context.workDisposition.getD (defaultsForStatus status).2
  detail := context.detail
  bookkeepingError := none

end Kookr.Core
