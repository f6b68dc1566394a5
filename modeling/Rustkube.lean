import Rustkube.Autoscaler
import Rustkube.Compaction
import Rustkube.CronJob
import Rustkube.CsrIssuance
import Rustkube.CsrPermission
import Rustkube.DeletePreconditions
import Rustkube.DisruptionBudget
import Rustkube.Escalation
import Rustkube.Finalizers
import Rustkube.Frames
import Rustkube.ImmutableData
import Rustkube.JobCounts
import Rustkube.LeaderElectionSafety
import Rustkube.MigrationEnds
import Rustkube.NamespaceTermination
import Rustkube.NodePromises
import Rustkube.OwnersSpared
import Rustkube.PendingCreates
import Rustkube.QuotaLedger
import Rustkube.RecreateOrder
import Rustkube.Requeue
import Rustkube.ResizedPods
import Rustkube.RolloutProgress
import Rustkube.RouteAgreement
import Rustkube.SchedulerArithmetic
import Rustkube.SelectedWatch
import Rustkube.ServiceIp
import Rustkube.StatefulSet
import Rustkube.TaintEviction
import Rustkube.TopologySpread
import Rustkube.VolumeHands
import Rustkube.WatchBookmarks
import Rustkube.WatchCacheReads
import Rustkube.WatchDelivery
