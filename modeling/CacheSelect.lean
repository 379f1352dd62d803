import CacheSelect.Lib.Transition
import CacheSelect.Lib.RefCount
import CacheSelect.Lib.Except
import CacheSelect.Lib.Spans
import CacheSelect.Core.Request
import CacheSelect.Core.BlockPool
import CacheSelect.Features.ReuseOpportunity
import CacheSelect.Features.SelectorFeatures
import CacheSelect.Core.Locator
import CacheSelect.Core.LocatorRuns
import CacheSelect.Core.SourceChoice
import CacheSelect.Core.LocateHistory
import CacheSelect.Core.Candidates
import CacheSelect.Core.Matching
import CacheSelect.Core.KVCacheManager
import CacheSelect.Core.ManagerInvariant
import CacheSelect.Core.Allocation
import CacheSelect.Core.Retention
import CacheSelect.Worker.CopyPlan
import CacheSelect.Worker.Batch
import CacheSelect.Worker.KVMemory
import CacheSelect.Worker.ModelRunner
import CacheSelect.Worker.ReuseWork
import CacheSelect.Engine.Scheduler
import CacheSelect.Engine.System
import CacheSelect.Engine.SchedulerInvariant
import CacheSelect.Engine.Admission
import CacheSelect.Engine.Lookup
import CacheSelect.Engine.Plans
import CacheSelect.Engine.CopyTargets
import CacheSelect.Engine.WorkerAdmission
import CacheSelect.Engine.Sources
import CacheSelect.Engine.TokenIdentity
import CacheSelect.Engine.StepCopies
import CacheSelect.Engine.StreamingSessions
import CacheSelect.Engine.Reindexing
import CacheSelect.Engine.Pending
import CacheSelect.Worker.BatchPlan
import CacheSelect.Engine.Preparation
import CacheSelect.Worker.CausalCoverage
import CacheSelect.Gdn.AffineOperator
import CacheSelect.Lib.Lru
import CacheSelect.Gdn.Shadow
import CacheSelect.Gdn.Sidecar
import CacheSelect.Gdn.ContextualHash
import CacheSelect.Engine.InFlight
import CacheSelect.Engine.PinBalance
import CacheSelect.Gdn.ExecutionPlan
import CacheSelect.Lib.Writes
import CacheSelect.Gdn.Checkpoints
import CacheSelect.Gdn.LayerForward
import CacheSelect.Gdn.CheckpointRuns
import CacheSelect.Gdn.ActivePrefill
import CacheSelect.Lib.Json
import CacheSelect.Observability.RequestRecorder
import CacheSelect.Observability.RequestLedger
import CacheSelect.Benchmarks.ReferenceQuality
import CacheSelect.Benchmarks.Evaluation
import CacheSelect.Benchmarks.MtragPilot
import CacheSelect.Benchmarks.ObserveRequest
import CacheSelect.Benchmarks.BlindedReview
import CacheSelect.Benchmarks.Consolidation
import CacheSelect.Benchmarks.CounterfactualLabels
import CacheSelect.Benchmarks.CounterfactualWorkflow
import CacheSelect.Benchmarks.CuratedDataset
import CacheSelect.Benchmarks.ReviewSelection
import CacheSelect.Benchmarks.TrialLedger
import CacheSelect.Lib.OddRun
import CacheSelect.Worker.ChangeGeometry
import CacheSelect.Core.FeatureAgreement
import CacheSelect.Core.NativeView
import CacheSelect.Engine.Noninterference
import CacheSelect.Gdn.OperatorStore
import CacheSelect.Gdn.SourceIndex
import CacheSelect.Gdn.Preflight
import CacheSelect.Lib.PlaneRotation
import CacheSelect.Worker.RopeCorrection
import CacheSelect.Lib.FloatValue
import CacheSelect.Worker.MlpRepairModel
import CacheSelect.Worker.MlpRepairSelector
import CacheSelect.Benchmarks.BlockDataset
import CacheSelect.Benchmarks.SelectorTraining
import CacheSelect.Lib.DenseNetwork
import CacheSelect.Benchmarks.SelectorExport
import CacheSelect.Benchmarks.RepairThresholds
import CacheSelect.Benchmarks.TrialAccounting
import CacheSelect.Benchmarks.MtragCoverage
import CacheSelect.Benchmarks.ReferenceExpansion
import CacheSelect.Lib.LeastPerKey
import CacheSelect.Benchmarks.ReferenceCalibration
import CacheSelect.Benchmarks.DependencyLabels
import CacheSelect.Features.OpportunityReport
import CacheSelect.Lib.Alignment
import CacheSelect.Features.ContextFeatures
import CacheSelect.Worker.SpanFilter
import CacheSelect.Features.ChangedRegion
import CacheSelect.Benchmarks.RougeScore
import CacheSelect.Gdn.RunnerEvidence
import CacheSelect.Hybrid.Coordinator
import CacheSelect.Core.PoolRefinement
