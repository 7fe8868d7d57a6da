import Quickspin.Lib.Service
import Quickspin.Lib.Table
import Quickspin.Lib.Transaction
import Quickspin.Lib.Lifecycle
import Quickspin.Lib.FileSystem
import Quickspin.Errors
import Quickspin.Time
import Quickspin.StringMap
import Quickspin.Spec
import Quickspin.Ids
import Quickspin.Store.Tables
import Quickspin.Store.Sqlite
import Quickspin.Calls
import Quickspin.Store.EventLog
import Quickspin.Lib.Schedule
import Quickspin.Store.Guards
import Quickspin.Control
import Quickspin.Idempotency
import Quickspin.Reconciler
import Quickspin.System
import Quickspin.Delete
import Quickspin.Renewal
import Quickspin.HttpApi
import Quickspin.Lifetimes
import Quickspin.Durations
import Quickspin.OwnedRuns
import Quickspin.Limits
import Quickspin.Admission
import Quickspin.Store.Atomicity
import Quickspin.Destroy
import Quickspin.Files
import Quickspin.Compensation
import Quickspin.Passes
import Quickspin.Observation
import Quickspin.Leases
import Quickspin.Independence
import Quickspin.Streams
import Quickspin.Exec
import Quickspin.Reaping
import Quickspin.ExecResults
import Quickspin.Steady
import Quickspin.Convergence
import Quickspin.Listing
import Quickspin.Targets
import Quickspin.Classify
import Quickspin.Environment
import Quickspin.Frame
import Quickspin.Restarts
import Quickspin.Loop
import Quickspin.RequestLimit
import Quickspin.Lib.Simulation
import Quickspin.Lib.Utf8
import Quickspin.Lib.JsonString
import Quickspin.Lib.JsonValue
import Quickspin.Lib.JsonRecord
import Quickspin.Server
import Quickspin.Gate
import Quickspin.Serving
import Quickspin.Refinement
import Quickspin.Store.Chronicles
import Quickspin.Histories
import Quickspin.Wire
import Quickspin.Remote
import Quickspin.Texts
import Quickspin.Lib.Atomic
import Quickspin.Census
import Quickspin.Endings
import Quickspin.Process
