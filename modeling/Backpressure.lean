import Backpressure.CallError
import Backpressure.Decimal.Shortest
import Backpressure.Json.Fields
import Backpressure.Json.Reader
import Backpressure.Json.Value
import Backpressure.Logging.Directive
import Backpressure.Logging.Settings
import Backpressure.Poller.Basic
import Backpressure.Poller.Idle
import Backpressure.Pool.Crew
import Backpressure.Pool.Machine
import Backpressure.Pool.Phase
import Backpressure.Pool.Scaler
import Backpressure.Proofs.Decimal.Doubles
import Backpressure.Proofs.Decimal.Rounding
import Backpressure.Proofs.Decimal.Shortest
import Backpressure.Proofs.Decimal.Spelling
import Backpressure.Proofs.Json.Numerals
import Backpressure.Proofs.Json.Reals
import Backpressure.Proofs.Json.Records
import Backpressure.Proofs.Json.Results
import Backpressure.Proofs.Json.Strings
import Backpressure.Proofs.Json.Values
import Backpressure.Proofs.Poller.Backoff
import Backpressure.Proofs.Poller.Deeds
import Backpressure.Proofs.Poller.Flow
import Backpressure.Proofs.Poller.Handling
import Backpressure.Proofs.Poller.Iterations
import Backpressure.Proofs.Poller.Life
import Backpressure.Proofs.Poller.Promises
import Backpressure.Proofs.Poller.Solo
import Backpressure.Proofs.Poller.Unrest
import Backpressure.Proofs.Pool.Abort
import Backpressure.Proofs.Pool.Bounds
import Backpressure.Proofs.Pool.Concurrency
import Backpressure.Proofs.Pool.Course
import Backpressure.Proofs.Pool.Crew
import Backpressure.Proofs.Pool.Deeds
import Backpressure.Proofs.Pool.Docket
import Backpressure.Proofs.Pool.Draining
import Backpressure.Proofs.Pool.Ends
import Backpressure.Proofs.Pool.Finality
import Backpressure.Proofs.Pool.Flow
import Backpressure.Proofs.Pool.Handling
import Backpressure.Proofs.Pool.Leader
import Backpressure.Proofs.Pool.Ledger
import Backpressure.Proofs.Pool.Lives
import Backpressure.Proofs.Pool.Manned
import Backpressure.Proofs.Pool.Minimum
import Backpressure.Proofs.Pool.Order
import Backpressure.Proofs.Pool.Phases
import Backpressure.Proofs.Pool.Promises
import Backpressure.Proofs.Pool.Roster
import Backpressure.Proofs.Pool.Run
import Backpressure.Proofs.Pool.Scaling
import Backpressure.Proofs.Pool.Settling
import Backpressure.Proofs.Pool.Staffing
import Backpressure.Proofs.Pool.Stopping
import Backpressure.Proofs.Pool.Stragglers
import Backpressure.Proofs.Pool.Turnover
import Backpressure.Proofs.Pool.Unrest
import Backpressure.Proofs.Queue.Accounts
import Backpressure.Proofs.Queue.Closing
import Backpressure.Proofs.Queue.Deeds
import Backpressure.Proofs.Queue.Draining
import Backpressure.Proofs.Queue.Effects
import Backpressure.Proofs.Queue.Order
import Backpressure.Proofs.Queue.Run
import Backpressure.Proofs.Queue.Stock
import Backpressure.Proofs.Rate.Buckets
import Backpressure.Proofs.Rate.Cap
import Backpressure.Proofs.Rate.Firings
import Backpressure.Proofs.Rate.Hints
import Backpressure.Proofs.Rate.Metering
import Backpressure.Proofs.Rate.Outcomes
import Backpressure.Proofs.Rate.Requests
import Backpressure.Proofs.Rate.Run
import Backpressure.Proofs.Rate.Sleepers
import Backpressure.Proofs.Rate.Window
import Backpressure.Proofs.Registry
import Backpressure.Proofs.Scaling.History
import Backpressure.Proofs.Script
import Backpressure.Proofs.Settings.Acceptance
import Backpressure.Proofs.Settings.Documents
import Backpressure.Proofs.Settings.Reread
import Backpressure.Proofs.Settings.Variables
import Backpressure.Proofs.Sink.Balance
import Backpressure.Proofs.Sink.Deeds
import Backpressure.Proofs.Sink.Downfall
import Backpressure.Proofs.Sink.Endings
import Backpressure.Proofs.Sink.History
import Backpressure.Proofs.Sink.Marks
import Backpressure.Proofs.Sink.Motions
import Backpressure.Proofs.Sink.Offers
import Backpressure.Proofs.Sink.Persistence
import Backpressure.Proofs.Sink.Pipeline
import Backpressure.Proofs.Sink.Reception
import Backpressure.Proofs.Sink.Run
import Backpressure.Proofs.Sink.Signal
import Backpressure.Proofs.Sink.Strides
import Backpressure.Proofs.Sink.Sway
import Backpressure.Proofs.Telemetry.Lines
import Backpressure.Proofs.Time.Timestamps
import Backpressure.Proofs.Worker.Known
import Backpressure.Proofs.Worker.Life
import Backpressure.Proofs.Worker.Trace
import Backpressure.Queue.Basic
import Backpressure.Queue.Permits
import Backpressure.Queue.Traffic
import Backpressure.Rate.Calls
import Backpressure.Rate.Controller
import Backpressure.Rate.Counter
import Backpressure.Rate.Requests
import Backpressure.Rate.Throttle
import Backpressure.Rate.TokenBucket
import Backpressure.Scaling.Policy
import Backpressure.Settings.Document
import Backpressure.Settings.Environment
import Backpressure.Settings.Poller
import Backpressure.Settings.Pool
import Backpressure.Settings.Rate
import Backpressure.Settings.Scaling
import Backpressure.Settings.Sink
import Backpressure.Simulation.Basics
import Backpressure.Simulation.Controller
import Backpressure.Simulation.Limiter
import Backpressure.Simulation.Poller
import Backpressure.Simulation.Pool
import Backpressure.Simulation.Queue
import Backpressure.Simulation.Sink
import Backpressure.Simulation.Stage
import Backpressure.Simulation.Store
import Backpressure.Simulation.Worker
import Backpressure.Simulation.Workshop
import Backpressure.Simulation.Writer
import Backpressure.Sink.Basic
import Backpressure.Sink.Flushing
import Backpressure.Sink.Machine
import Backpressure.Telemetry.FileTree
import Backpressure.Telemetry.Item
import Backpressure.Telemetry.LineFile
import Backpressure.Telemetry.MemoryWriter
import Backpressure.Telemetry.Phase
import Backpressure.Text.Alphanumeric
import Backpressure.Text.Blank
import Backpressure.Text.Escaped
import Backpressure.Text.Numeral
import Backpressure.Text.Quoted
import Backpressure.Time.Duration
import Backpressure.Time.Timer
import Backpressure.Time.Timestamp
import Backpressure.Worker.Lifecycle
import Backpressure.Worker.Phase
import Backpressure.Worker.Vigil
