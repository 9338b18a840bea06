import Copr.Lib.Runs
import Copr.Lib.Traces
import Copr.Lib.Histories
import Copr.Lib.FifoLock
import Copr.Lib.Batching
import Copr.Lib.SetUpdates
import Copr.Lib.Memo
import Copr.Lib.Sweep
import Copr.Lib.Passes
import Copr.Lib.Chunks
import Copr.Lib.Dicts
import Copr.Lib.Newest
import Copr.Lib.Loops
import Copr.Lib.Lines
import Copr.Lib.WorkLists
import Copr.Lib.Groups
import Copr.Lib.SortedPages
import Copr.Lib.Tallies
import Copr.Lib.Comparators
import Copr.Lib.PriorityMap
import Copr.Lib.Tables
import Copr.Lib.Ancestry
import Copr.Lib.Text
import Copr.Lib.Tokens
import Copr.Lib.Variables
import Copr.Lib.Literals
import Copr.Lib.Templates
import Copr.Lib.IniFiles
import Copr.Lib.Paths
import Copr.Lib.Globs
import Copr.Lib.CommitGraph
import Copr.Common.Lock
import Copr.Common.LockFairness
import Copr.Common.JobQueue
import Copr.Common.WorkerLimit
import Copr.Common.WorkerManager
import Copr.Common.ManagerRuns
import Copr.Common.WorkerSystem
import Copr.Common.WorkerSafety
import Copr.Common.WorkerOrigin
import Copr.Common.WorkerResults
import Copr.Common.QueueRefinement
import Copr.Common.QueueDump
import Copr.Common.ActionData
import Copr.Common.LiveOutput
import Copr.Frontend.Models
import Copr.Frontend.BuildsLogic
import Copr.Frontend.BackendGeneral
import Copr.Frontend.Reports
import Copr.Frontend.SourceReports
import Copr.Frontend.Operations
import Copr.Frontend.TaskIds
import Copr.Frontend.TerminalStates
import Copr.Frontend.FinishedBuilds
import Copr.Frontend.ReopenedBuilds
import Copr.Frontend.Redelivery
import Copr.Frontend.Batches
import Copr.Frontend.BatchCaches
import Copr.Frontend.BatchDependencies
import Copr.Frontend.BatchTrees
import Copr.Frontend.LastingBatches
import Copr.Frontend.OpenTasks
import Copr.Frontend.StartedTasks
import Copr.Frontend.StatusColumns
import Copr.Frontend.BuildStates
import Copr.Frontend.ConcurrentUpdates
import Copr.Frontend.FlushedBuilds
import Copr.Frontend.AcknowledgedUpdates
import Copr.Frontend.LoneRequests
import Copr.Frontend.Permissions
import Copr.Frontend.GrantedPermissions
import Copr.Frontend.BulkPermissions
import Copr.Frontend.DeleteActions
import Copr.Frontend.OldBuilds
import Copr.Frontend.PendingActions
import Copr.Frontend.Forking
import Copr.Frontend.Branching
import Copr.Frontend.CoprDirs
import Copr.Frontend.CoprChroots
import Copr.Frontend.OutdatedChroots
import Copr.Frontend.RepoFiles
import Copr.Frontend.BuildConfigs
import Copr.Frontend.RepoAddresses
import Copr.Frontend.RepoIds
import Copr.Frontend.RuntimeDependencies
import Copr.Frontend.BuildTasks
import Copr.Frontend.ChrootSteps
import Copr.Frontend.DeletionStatus
import Copr.Frontend.BuildConfiguration
import Copr.Frontend.UnexpectedRemovals
import Copr.Frontend.ExpiredProjects
import Copr.Frontend.ChrootPatterns
import Copr.Frontend.SelectedChroots
import Copr.Frontend.ProjectBuilds
import Copr.Frontend.ProjectEffects
import Copr.Frontend.ProjectReferences
import Copr.Frontend.ImportedSources
import Copr.Frontend.CancelRequests
import Copr.Frontend.PushedCommits
import Copr.Frontend.Sandboxes
import Copr.Frontend.ProjectForm
import Copr.Frontend.ProjectEdit
import Copr.Frontend.BuildsMonitor
import Copr.Frontend.Paginators
import Copr.Frontend.BuildList
import Copr.Frontend.LatestBuilds
import Copr.Frontend.PackageForms
import Copr.Frontend.PackageEdit
import Copr.Backend.BuildDispatcher
import Copr.Backend.RoundRobin
import Copr.Backend.ActionDispatcher
import Copr.Backend.NamespaceExclusion
import Copr.Backend.ReportedResults
import Copr.Backend.RefusedWorkers
import Copr.Backend.Createrepo
import Copr.Backend.BatchedCreaterepo
import Copr.Backend.ExcludedPackages
import Copr.Backend.PulpContent
import Copr.Backend.BatchSizes
import Copr.Backend.PulpDistributions
import Copr.Backend.DeliveredRequests
import Copr.Backend.Storage
import Copr.Backend.BatchedDirectories
import Copr.Backend.DeletedBuilds
import Copr.Backend.ProjectActions
import Copr.Backend.ActionResults
import Copr.Backend.StorageMigration
import Copr.Backend.RedirectList
import Copr.Backend.Pruner
import Copr.Backend.FinalPruning
import Copr.Backend.ForkedProject
import Copr.Backend.BranchedResults
import Copr.Backend.BranchingRuns
import Copr.Backend.NewestBranched
import Copr.Backend.RemoveDirs
import Copr.Backend.ExpiredDirs
import Copr.Backend.RemovedDirectories
import Copr.Backend.ServedDirectories
import Copr.DistGit.PackageImport
import Copr.DistGit.ImportedContent
import Copr.Builder.MockConfig
import Copr.Builder.ConfigBlocks
import Copr.Builder.ConfigMeaning
import Copr.Backend.HitCounter
import Copr.Frontend.CounterStats
import Copr.Frontend.DownloadCounters
import Copr.Frontend.DirOrder
import Copr.Lib.Programs
import Copr.Backend.BuildWorker
import Copr.Backend.WorkerHistory
import Copr.Backend.WorkerRuns
import Copr.Backend.WorkerReports
import Copr.Keygen.GenKey
import Copr.Keygen.KeySafety
import Copr.Keygen.KeyFiles
import Copr.Frontend.GraphData
import Copr.Frontend.GraphCaches
import Copr.Frontend.OfferedBuilds
import Copr.Common.SafeRequest
import Copr.Backend.FrontendClient
import Copr.Backend.Signing
import Copr.Backend.SignedPackages
import Copr.Backend.SigningCalls
