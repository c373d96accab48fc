import Tickline.Library.OrderedMap
import Tickline.Library.BigEndian
import Tickline.Library.Blocks
import Tickline.Library.ByteCursor
import Tickline.Library.Delimited
import Tickline.Library.Framing
import Tickline.Library.HashChain
import Tickline.Library.Json
import Tickline.Library.Machine
import Tickline.Library.Paging
import Tickline.Library.Schedule
import Tickline.Library.Sha2
import Tickline.Library.Transaction
import Tickline.Model.CommandEvidenceArchive
import Tickline.Model.CommandEvidenceReplay
import Tickline.Analysis.WorkspaceLoad
import Tickline.Analysis.ExportFidelity
import Tickline.Analysis.ViewerImport
import Tickline.Analysis.NativeExports
import Tickline.Analysis.TaskPlan
import Tickline.Analysis.ValidatorAgreement
import Tickline.Library.JsonWriter
import Tickline.Library.Unicode
import Tickline.Library.Grouping
import Tickline.Library.Median
import Tickline.Model.ArtifactManifest
import Tickline.Analysis.GoPaths
import Tickline.Analysis.ArtifactFiles
import Tickline.Analysis.ManifestRoundTrip
import Tickline.Analysis.WorkflowPlans
import Tickline.Analysis.StageRuns
import Tickline.Analysis.PlanExact
import Tickline.Analysis.ConsoleRun
import Tickline.Analysis.PlaybackRuns
import Tickline.Analysis.WorkspaceRuns
import Tickline.Analysis.AnalyticsConservation
import Tickline.Analysis.OutlierRule
import Tickline.Model.AnalysisReport
import Tickline.Analysis.ReportOrder
import Tickline.Analysis.SessionSummaries
import Tickline.Analysis.Sha256Standard
import Tickline.Analysis.ReplayAccounting
import Tickline.Library.Checks
import Tickline.Library.DepthFirst
import Tickline.Library.SearchFaults
import Tickline.Model.GoText
import Tickline.Model.Task
import Tickline.Model.InvestigationStore
import Tickline.Model.StageRunner
import Tickline.Model.Console
import Tickline.Model.ForensicsPlayback
import Tickline.Model.InvestigationAnalytics
import Tickline.Model.Workflow
import Tickline.Model.Runs
import Tickline.Model.StreamParser
import Tickline.Analysis.MotionLaw
import Tickline.Analysis.TickLimits
import Tickline.Analysis.Commutation
import Tickline.Analysis.CanonicalCodec
import Tickline.Analysis.PipelineLog
import Tickline.Analysis.Chunking
import Tickline.Analysis.StreamStates
import Tickline.Analysis.CommandFrameCodec
import Tickline.Analysis.ReplaySoundness
import Tickline.Analysis.ParserErrors
import Tickline.Analysis.SessionFields
import Tickline.Analysis.ArtifactPaths
import Tickline.Analysis.ArchiveBounds
import Tickline.Analysis.TerminalText
import Tickline.Analysis.StageLogs
import Tickline.Analysis.OutputCuts
import Tickline.Model.ConsoleUpdate
import Tickline.Analysis.ConsoleBounds
import Tickline.Library.Transitions
import Tickline.Model.CaptureLoops
import Tickline.Model.RunLog
import Tickline.Analysis.CaptureRuns
import Tickline.Analysis.RunLogs
import Tickline.Analysis.RunRefinement
import Tickline.Library.Lines
import Tickline.Model.TaskManifest
import Tickline.Model.CheckLocal
import Tickline.Analysis.ManifestRecords
import Tickline.Analysis.SharedManifest
import Tickline.Library.Channel
import Tickline.Model.TuiRun
import Tickline.Analysis.TuiRuns
import Tickline.Analysis.TuiProgress
import Tickline.Model.JsonReport
import Tickline.Model.RunStore
import Tickline.Model.RunEvidence
import Tickline.Model.CheckCommand
import Tickline.Analysis.RunOutput
import Tickline.Analysis.RunDirectories
import Tickline.Analysis.RunEvidence
import Tickline.Analysis.ExecutedRuns
import Tickline.Analysis.AnsweredRuns
import Tickline.Analysis.CheckEvidence
import Tickline.Analysis.RepositoryRoot
import Tickline.Analysis.CheckCommands
