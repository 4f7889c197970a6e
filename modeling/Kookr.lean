import Kookr.Proofs.Adapters.RingWindow
import Kookr.Proofs.Core.BoardRefinement
import Kookr.Proofs.Core.BreakerEvidence
import Kookr.Proofs.Core.CommentReplay
import Kookr.Proofs.Core.DigestsSettled
import Kookr.Proofs.Core.FindingKept
import Kookr.Proofs.Core.FreshProbe
import Kookr.Proofs.Core.GrantsKept
import Kookr.Proofs.Core.IssueOwnership
import Kookr.Proofs.Core.LeaseReconciliation
import Kookr.Proofs.Core.LedgerRestart
import Kookr.Proofs.Core.LessonsKept
import Kookr.Proofs.Core.LifetimeSpend
import Kookr.Proofs.Core.OutboxKept
import Kookr.Proofs.Core.PersistedTasks
import Kookr.Proofs.Core.ProbeFences
import Kookr.Proofs.Core.ReapPromises
import Kookr.Proofs.Core.RotatedSuffix
import Kookr.Proofs.Core.ScansAgree
import Kookr.Proofs.Core.SpoolExclusion
import Kookr.Proofs.Core.TaskRecords
import Kookr.Proofs.Launch.DedupExclusive
import Kookr.Proofs.Launch.IdempotentOnce
import Kookr.Proofs.Launch.ReservedSlots
import Kookr.Proofs.Realtime.BackpressureLatch
import Kookr.Proofs.Realtime.DeltaStream
import Kookr.Proofs.Realtime.Rebase
import Kookr.Proofs.Realtime.ScopedView
import Kookr.Proofs.Realtime.WindowMerge
import Kookr.Proofs.Relay.BrowserSessions
import Kookr.Proofs.Relay.CommandRouting
import Kookr.Proofs.Relay.GuestPrivacy
import Kookr.Proofs.Relay.StoreRestart
import Kookr.Proofs.Remote.AtMostOnce
import Kookr.Proofs.Remote.LeaseEvents
import Kookr.Proofs.Remote.TornTail
import Kookr.Proofs.Schedules.CronSlotsOnce
import Kookr.Proofs.Schedules.EnableState
import Kookr.Proofs.Schedules.OperatorHold
import Kookr.Proofs.Schedules.ReceiptsRecovered
import Kookr.Proofs.Schedules.RollupsMatch
import Kookr.Proofs.Schedules.RunsClosed
import Kookr.Proofs.Schedules.TicksFair
import Kookr.Proofs.Schedules.TriggerCount
import Kookr.Proofs.Server.ActivityCounters
import Kookr.Proofs.Server.AdmissionGates
import Kookr.Proofs.Server.BurnBook
import Kookr.Proofs.Server.ChainGate
import Kookr.Proofs.Server.EmptyEnter
import Kookr.Proofs.Server.FlushBarrier
import Kookr.Proofs.Server.FramingPieces
import Kookr.Proofs.Server.LockExclusion
import Kookr.Proofs.Server.LoopStaysStopped
import Kookr.Proofs.Server.OutputFidelity
import Kookr.Proofs.Server.PromptsConfirm
import Kookr.Proofs.Server.ProviderResume
import Kookr.Proofs.Server.ReconcileLive
import Kookr.Proofs.Server.RpcSettled
import Kookr.Proofs.Server.ScheduleExclusion
import Kookr.Proofs.Server.StopsAnswered
import Kookr.Proofs.Server.TailDelivery
