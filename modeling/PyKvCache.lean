import PyKvCache.Library.Effect
import PyKvCache.Safety.Stores
import PyKvCache.Safety.SlotOwners
import PyKvCache.Safety.Budgets
import PyKvCache.Safety.Demands
import PyKvCache.Safety.Shutdown
import PyKvCache.Safety.Descriptors
import PyKvCache.Safety.WakeUps
import PyKvCache.Safety.LiveSources
import PyKvCache.Crash.Resolved
import PyKvCache.Ring.CompletionQueue
import PyKvCache.Ring.SubmissionQueue
import PyKvCache.Transfer.LoadPairing
import PyKvCache.Transfer.RoundTrip
import PyKvCache.Transfer.FusedCopies
import PyKvCache.Transfer.MergedDuration
import PyKvCache.Scheduler.FailedStore
import PyKvCache.Storage.FileMapper
import PyKvCache.Storage.Publication
import PyKvCache.Cost.CostModel
import PyKvCache.Planner.ShadowQueue
import PyKvCache.Planner.SharedPrefix
import PyKvCache.Planner.StorageWait
import PyKvCache.Staging.Recency
import PyKvCache.Staging.ScanResistance
import PyKvCache.Worker.Reports
import PyKvCache.Progress.Pump
import PyKvCache.Safety.Outcomes
import PyKvCache.Safety.Deliveries
import PyKvCache.Safety.Exit
import PyKvCache.Scheduler.Planning
import PyKvCache.Ring.RoundTrip
import PyKvCache.Planner.Reads
import PyKvCache.Scheduler.WholeFiles
import PyKvCache.Safety.StagingRaces
