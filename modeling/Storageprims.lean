import Storageprims.Interaction.Program
import Storageprims.Interaction.Script
import Storageprims.Interaction.Polling
import Storageprims.Interaction.Registry
import Storageprims.Text.Utf8
import Storageprims.Text.Lines
import Storageprims.Text.Windows
import Storageprims.Core.Error
import Storageprims.Core.Types
import Storageprims.Core.Provider
import Storageprims.Ops.Budget
import Storageprims.Ops.BudgetFormat
import Storageprims.Ops.Ledger
import Storageprims.Ops.Framing
import Storageprims.Ops.Guarded
import Storageprims.Ops.RangeReceipt
import Storageprims.Ops.Preview
import Storageprims.Ops.LineOps
import Storageprims.Ops.Calls
import Storageprims.Ops.FramingCorrect
import Storageprims.Ops.OneDecomposition
import Storageprims.Ops.Alignment
import Storageprims.Ops.Serving
import Storageprims.Ops.ServedWindow
import Storageprims.Ops.RangeExact
import Storageprims.Ops.Reports
import Storageprims.Ops.ServedLines
import Storageprims.Ops.LinesExact
import Storageprims.Ops.PreviewFulfilled
import Storageprims.Ops.Transcript
import Storageprims.Ops.Accounts
import Storageprims.Ops.Answers
import Storageprims.Ops.Bounds
import Storageprims.Ops.Evidence
import Storageprims.Ops.NoPanic
import Storageprims.Ops.TextAccepted
import Storageprims.Ops.StreamAgrees
import Storageprims.Ops.Selected
import Storageprims.Ops.Snapshot
import Storageprims.Text.Str
import Storageprims.Text.Decimal
import Storageprims.Text.Percent
import Storageprims.Core.Uri
import Storageprims.Core.Addresses
import Storageprims.Core.Config
import Storageprims.Core.Diagnostics
import Storageprims.S3.Keys
import Storageprims.S3.Provider
import Storageprims.S3.Credentials
import Storageprims.S3.Diagnostics
import Storageprims.S3.Objects
import Storageprims.S3.CopyLocations
import Storageprims.S3.CopySource
import Storageprims.S3.Listing
import Storageprims.S3.Pages
import Storageprims.S3.ListingUsable
import Storageprims.S3.GuardedReads
import Storageprims.S3.Errors
import Storageprims.S3.RetryAfter
import Storageprims.S3.Receipts
import Storageprims.S3.ContentRange
import Storageprims.S3.TargetBinding
import Storageprims.S3.PolledReaders
import Storageprims.S3.DeclaredLength
import Storageprims.S3.LengthViolations
import Storageprims.S3.UploadBody
import Storageprims.Ffi.Runtime
import Storageprims.Ffi.Support
import Storageprims.Ffi.Finalize
import Storageprims.Ffi.Outcome
import Storageprims.Ffi.Open
import Storageprims.Ffi.Interleaving
import Storageprims.Ffi.Copy
import Storageprims.Interaction.Retries
import Storageprims.Interaction.Layers
import Storageprims.Interaction.Threads
import Storageprims.S3.Wire
import Storageprims.S3.GuardedStore
import Storageprims.S3.WholeReads
import Storageprims.S3.Operations
import Storageprims.S3.ObjectService
import Storageprims.S3.ServiceRules
import Storageprims.S3.ObjectEffects
import Storageprims.S3.Attempts
import Storageprims.S3.Clients
import Storageprims.S3.Tenants
import Storageprims.Interaction.Enumeration
import Storageprims.S3.ListingWalks
import Storageprims.Interaction.Channel
import Storageprims.Ffi.Download
import Storageprims.Ffi.Upload
import Storageprims.Ffi.Control
import Storageprims.Ffi.Inspect
import Storageprims.Ffi.Lifetime
import Storageprims.Ffi.LastError
