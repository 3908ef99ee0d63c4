import ChunkedUpload.CommandLine.Run
import ChunkedUpload.FileSystem.Tree
import ChunkedUpload.Host.Local
import ChunkedUpload.Identifier
import ChunkedUpload.Main
import ChunkedUpload.Proofs.Upload.Fidelity
import ChunkedUpload.Queue.Calls
import ChunkedUpload.Reference.Json
import ChunkedUpload.Store.Writing
import ChunkedUpload.Text.Fixed
import ChunkedUpload.Proofs.Pool.Completion
import ChunkedUpload.Proofs.Upload.Ending
import ChunkedUpload.Proofs.Upload.Interrupted
import ChunkedUpload.Proofs.Admission
import ChunkedUpload.Proofs.Upload.Cancelled
import ChunkedUpload.Proofs.Uploaders.Lines
import ChunkedUpload.Proofs.Uploaders.Cancellation
import ChunkedUpload.Proofs.FileSystem.Paths
import ChunkedUpload.Proofs.FileSystem.Places
import ChunkedUpload.Proofs.FileSystem.Effects
import ChunkedUpload.Proofs.Store.Names
import ChunkedUpload.Proofs.Store.Steps
import ChunkedUpload.Proofs.Store.Assembly
import ChunkedUpload.Proofs.Upload.Resending
import ChunkedUpload.Proofs.Depot.Steps
import ChunkedUpload.Proofs.Upload.Served
import ChunkedUpload.Proofs.Depot.Serving
import ChunkedUpload.Proofs.Depot.Saving
import ChunkedUpload.Proofs.Depot.Resends
import ChunkedUpload.Proofs.Depot.RoundTrip
import ChunkedUpload.Proofs.Session.Layers
import ChunkedUpload.Proofs.Store.Parallel
import ChunkedUpload.Proofs.Store.Rivals
import ChunkedUpload.Proofs.Store.Mapping
import ChunkedUpload.Proofs.Uploaders.Slots
import ChunkedUpload.Proofs.Upload.Backlog
import ChunkedUpload.Proofs.Uploaders.Resends
import ChunkedUpload.Proofs.Upload.Shortfall
import ChunkedUpload.Proofs.Upload.Fitting
import ChunkedUpload.Proofs.Upload.Repetition
import ChunkedUpload.Proofs.Upload.Determined
import ChunkedUpload.Proofs.Upload.Resting
import ChunkedUpload.Proofs.Uploaders.Company
import ChunkedUpload.Proofs.Depot.Company
import ChunkedUpload.Proofs.Plan.Coverage
import ChunkedUpload.Proofs.Text.Numerals
import ChunkedUpload.Proofs.Store.Listing
import ChunkedUpload.Proofs.Store.Output
import ChunkedUpload.Proofs.Upload.Reports
import ChunkedUpload.Proofs.Uploaders.Quiet
import ChunkedUpload.Proofs.Uploaders.Checks
import ChunkedUpload.Proofs.Store.Sparing
import ChunkedUpload.Proofs.Depot.Errand
import ChunkedUpload.Proofs.Depot.Resumed
import ChunkedUpload.Proofs.Host.Settling
import ChunkedUpload.Proofs.Host.Resend
import ChunkedUpload.Proofs.CommandLine.Resume
import ChunkedUpload.Proofs.Source.Parts
import ChunkedUpload.Proofs.Checksum.Agreement
import ChunkedUpload.Proofs.Reference.RoundTrip
import ChunkedUpload.Proofs.Queue.Law
