import Hypernote.Proofs.KernelSelection
import Hypernote.Proofs.IdleSweep
import Hypernote.Proofs.SingleFlight
import Hypernote.Proofs.JobStatus
import Hypernote.Proofs.Prompts
import Hypernote.Proofs.StopButton
import Hypernote.Proofs.ActiveJobs
import Hypernote.Proofs.Attached
import Hypernote.Proofs.Sequential
import Hypernote.Proofs.Revival
import Hypernote.Proofs.AfterStop
import Hypernote.Proofs.SweepDecision
import Hypernote.Proofs.Replies
import Hypernote.Proofs.JobOrder
import Hypernote.Proofs.Teardown
import Hypernote.Proofs.WatchedOutput
import Hypernote.Proofs.OldOutput
import Hypernote.Proofs.Previews
import Hypernote.Proofs.MimeExport
import Hypernote.Proofs.Diff
import Hypernote.Proofs.ListEdits
import Hypernote.Proofs.LostUpdates
import Hypernote.Proofs.UniqueIds
import Hypernote.Proofs.NotebookPaths
import Hypernote.Proofs.RequestRouting
import Hypernote.Proofs.Initialization
import Hypernote.SubshellRouting
import Hypernote.Proofs.SubshellOwner
import Hypernote.Proofs.FinishedJobs
import Hypernote.Proofs.MovedCells
import Hypernote.Proofs.PositionKeys
import Hypernote.Proofs.Executors
import Hypernote.Proofs.Bookkeeping
import Hypernote.Proofs.BatchIx
import Hypernote.Proofs.HiddenChanges
import Hypernote.Proofs.ForgedTokens
import Hypernote.Proofs.FailedEdits
import Hypernote.Proofs.ListedIds
import Hypernote.Proofs.SchemaValid
import Hypernote.Proofs.Creation
import Hypernote.Proofs.WatchEvents
import Hypernote.Proofs.OwnReply
import Hypernote.Proofs.HomeJobs
import Hypernote.Proofs.StartingRooms
import Hypernote.Proofs.Attribution
import Hypernote.Proofs.Shortening
import Hypernote.Proofs.TerminalEscapes
import Hypernote.Sdk.NotebookStatus
import Hypernote.Proofs.QueryFilter
import Hypernote.Sdk.ImageFiles
import Hypernote.Proofs.SavedImages
import Hypernote.Proofs.CorruptImages
import Hypernote.Proofs.JobHistories
import Hypernote.Proofs.LedgerListing
import Hypernote.Proofs.DiffAfterEdits
import Hypernote.Proofs.Hints
import Hypernote.Proofs.DocumentRooms
import Hypernote.Proofs.InterruptSnippet
import Hypernote.Proofs.Reattach
import Hypernote.Proofs.RouteOverrides
import Hypernote.Proofs.EventStream
import Hypernote.Proofs.CellEdits
import Hypernote.RestartedKernels
import Hypernote.Proofs.RestartedKernels
import Hypernote.Proofs.RecordedOutcomes
import Hypernote.Client.RunCommand
import Hypernote.Proofs.ExitCodes
import Hypernote.Proofs.Aggregates
