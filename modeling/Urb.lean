import Urb.ForStd.EStateM
import Urb.Native.Types
import Urb.Native.FrameworkTracker
import Urb.Native.Handler
import Urb.Native.LaunchTasks
import Urb.Native.TaskUpdates
import Urb.Native.Executors
import Urb.Native.Reconcile
import Urb.Native.Entry
import Urb.ForStd.Recent
import Urb.ForStd.Run
import Urb.ForStd.Ledger
import Urb.Spec.Frame
import Urb.Spec.Resources
import Urb.Spec.DebitAtomic
import Urb.Spec.Books
import Urb.Spec.Stable
import Urb.Spec.Release
import Urb.Spec.Filed
import Urb.Spec.FinishedFrameworks
import Urb.Spec.Booked
import Urb.Spec.NoDoubleCredit
import Urb.Spec.NoLeak
import Urb.Spec.Launch
import Urb.Spec.Swept
import Urb.Spec.ReconcileFrame
import Urb.Spec.Reconciled
import Urb.Spec.HttpAgrees
import Urb.Native.Deletions
import Urb.Spec.Assignments
import Urb.Spec.DeletionsIsolated
import Urb.ForStd.Greenlet
import Urb.Native.Lock
import Urb.Spec.LockDiscipline
import Urb.Spec.LockReleased
import Urb.Native.HttpEvents
import Urb.Spec.HttpEventsDelivered
import Urb.Spec.LaunchAccounts
import Urb.Spec.ImplicitReconcile
import Urb.Spec.JobCap
import Urb.Spec.JobRemoved
import Urb.ForStd.Redis
import Urb.ForStd.LinkedHashMap
import Urb.Native.MessageBroker
import Urb.Native.MasterElector
import Urb.Spec.MasterExclusive
import Urb.Spec.AtLeastOnce
import Urb.Spec.QueueOrder
import Urb.Native.RetryManager
import Urb.Spec.Retries
import Urb.Spec.Told
import Urb.Spec.TerminalFinal
import Urb.Native.Offers
import Urb.Spec.Spared
import Urb.Spec.OneOffer
import Urb.Spec.HonestOffers
import Urb.ForStd.Except
import Urb.ForStd.PyString
import Urb.ForStd.PyNumber
import Urb.Native.ConfigureFramework
import Urb.Spec.ConfigEntries
import Urb.Spec.ConfigConsumable
import Urb.Native.K8SAdapter
import Urb.Spec.JobNames
import Urb.Spec.OrphanJobs
import Urb.Spec.OffersForgotten
import Urb.Native.ChannelMonitor
import Urb.Native.JobMonitor
import Urb.Spec.FrameworkDeleted
import Urb.Spec.SchedulerLost
import Urb.Spec.JobsMonitored
import Urb.Native.SchedulerDriver
import Urb.Spec.ConnectedPeriod
import Urb.Spec.Acknowledged
import Urb.Native.Registration
import Urb.Spec.FrameworkIdentity
import Urb.Native.OfferLoop
import Urb.Spec.WakeUps
import Urb.Native.ExecutorDriver
import Urb.Spec.Replayed
import Urb.Spec.RunOnce
import Urb.Native.MessageHandler
import Urb.Spec.Handled
import Urb.Native.LockCreation
import Urb.ForStd.Thread
import Urb.Spec.OneLock
import Urb.ForStd.SortedSet
import Urb.Native.PortRanges
import Urb.Spec.PortArithmetic
import Urb.Spec.Forwarded
import Urb.Native.ExecutorHandler
import Urb.Spec.ExecutorsStarted
import Urb.Native.Heartbeat
import Urb.Spec.HeartbeatChain
import Urb.Native.Timer
import Urb.Native.ExecutorEvents
import Urb.Spec.ExecutorEnvironments
import Urb.Spec.ExecutorEventsDelivered
import Urb.Spec.PlaceholderJobs
import Urb.Spec.Wards
import Urb.Spec.CommandSlaves
import Urb.Native.RedisChannel
import Urb.Spec.OneRead
import Urb.Spec.SlaveIds
import Urb.Spec.UpdateOrder
import Urb.Native.Url
import Urb.Spec.UrlPrinted
