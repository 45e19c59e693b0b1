import SyncAgent.Lib.SortedMap
import SyncAgent.Lib.Interaction
import SyncAgent.Lib.Json
import SyncAgent.Kube.Object
import SyncAgent.Kube.Api
import SyncAgent.Sync.Client
import SyncAgent.Sync.Meta
import SyncAgent.Sync.StateStore
import SyncAgent.Lib.GoTemplate
import SyncAgent.SyncManager.Controller
import SyncAgent.Sync.Naming
import SyncAgent.Sync.ObjectSyncer
import SyncAgent.Sync.Resolve
import SyncAgent.Sync.Related
import SyncAgent.Sync.Syncer
import SyncAgent.Sync.Isolation
import SyncAgent.Kube.Patch
import SyncAgent.Kube.Effects
import SyncAgent.Sync.Outline
import SyncAgent.Sync.Calls
import SyncAgent.Sync.Pass
import SyncAgent.Sync.Link
import SyncAgent.Sync.Runs
import SyncAgent.Sync.KeptLinks
import SyncAgent.Sync.Finalizers
import SyncAgent.Sync.Convergence
import SyncAgent.Sync.Updates
import SyncAgent.SyncController.Reconciler
import SyncAgent.Sync.Outcome
import SyncAgent.Sync.Status
import SyncAgent.Sync.StatusBack
import SyncAgent.Sync.Completion
import SyncAgent.Sync.MatchOrigin
import SyncAgent.Sync.Stability
import SyncAgent.Sync.Places
import SyncAgent.Sync.Agents
import SyncAgent.Sync.SharedFinalizers
import SyncAgent.Lib.Pool
import SyncAgent.Lib.Paths
import SyncAgent.Kcp.Multicluster
import SyncAgent.Projection.Crd
import SyncAgent.ApiExport.Reconciler
import SyncAgent.ApiExport.Controllers
import SyncAgent.ApiExport.Guarantees
import SyncAgent.Sync.ThreeWay
import SyncAgent.Sync.StaleCache
import SyncAgent.Sync.RelatedDeletes
import SyncAgent.Sync.FailedWrites
import SyncAgent.Sync.PrimaryDeletion
import SyncAgent.Projection.Versions
import SyncAgent.Sync.ResolvedObjects
import SyncAgent.Sync.Remembered
import SyncAgent.Sync.RelatedCalls
import SyncAgent.Sync.ScopedKinds
import SyncAgent.Sync.DyingCopies
import SyncAgent.Sync.UnlinkedCopies
import SyncAgent.Sync.PlainStatus
import SyncAgent.Projection.StorageVersion
import SyncAgent.Sync.Opened
import SyncAgent.ApiExport.Claims
import SyncAgent.ApiExport.Merge
import SyncAgent.SyncManager.Starts
import SyncAgent.SyncController.WatchRules
import SyncAgent.Sync.LegacyNaming
import SyncAgent.Lib.Replacer
import SyncAgent.Sync.LongestMatch
import SyncAgent.Sync.CopySelectors
import SyncAgent.SyncController.Filter
import SyncAgent.Kube.Nested
import SyncAgent.Sync.Snapshot
import SyncAgent.Lib.Float64
import SyncAgent.Lib.HtmlTemplate
import SyncAgent.Lib.DataTree
import SyncAgent.Mutation.Transformer
import SyncAgent.Mutation.RoundTrip
import SyncAgent.Mutation.FieldPaths
import SyncAgent.Mutation.Template
import SyncAgent.Lib.Traces
import SyncAgent.Sync.Finished
import SyncAgent.SyncController.OneWay
import SyncAgent.SyncController.Tenants
import SyncAgent.ApiExport.Converges
import SyncAgent.Discovery.Retrieved
