import Backpressure.Settings.Document
import Backpressure.Text.Blank

/-!
# Settings from environment variables

Each variable sets one field of the default settings.  A variable that holds a
number is trimmed first.  Two of them move a second field upwards, so that the
settings stay valid: the idle interval lifts the longest idle interval, and the
write timeout lifts the shutdown timeout.

The variables are read in the order of `Variable.all`.  The first one with a
faulty value is reported; only when all values are good are the settings checked.
-/

namespace Backpressure

/-- A variable that sets a field. -/
inductive Variable where
  | poolName | workerLabel | minWorkers | maxWorkers | queueCapacity | poolShutdownTimeout
  | pollTimeout | idleInterval | sinkName | sinkCapacity | permitsPerSecond | flushInterval
  | writeTimeout | telemetryPath | callsPerSecond | windowSeconds
  deriving DecidableEq, Repr

namespace Variable

/-- All variables in the order in which they are read. -/
def all : List Variable :=
  [.poolName, .workerLabel, .minWorkers, .maxWorkers, .queueCapacity, .poolShutdownTimeout,
   .pollTimeout, .idleInterval, .sinkName, .sinkCapacity, .permitsPerSecond, .flushInterval,
   .writeTimeout, .telemetryPath, .callsPerSecond, .windowSeconds]

/-- The name of a variable. -/
def key : Variable → String
  | .poolName => "SPILLWAY_POOL_NAME"
  | .workerLabel => "SPILLWAY_POOL_WORKER_PREFIX"
  | .minWorkers => "SPILLWAY_POOL_MIN_WORKERS"
  | .maxWorkers => "SPILLWAY_POOL_MAX_WORKERS"
  | .queueCapacity => "SPILLWAY_POOL_QUEUE_CAPACITY"
  | .poolShutdownTimeout => "SPILLWAY_POOL_SHUTDOWN_TIMEOUT_MS"
  | .pollTimeout => "SPILLWAY_POLL_TIMEOUT_MS"
  | .idleInterval => "SPILLWAY_IDLE_INTERVAL_MS"
  | .sinkName => "SPILLWAY_SINK_NAME"
  | .sinkCapacity => "SPILLWAY_SINK_CAPACITY"
  | .permitsPerSecond => "SPILLWAY_SINK_PERMITS_PER_SECOND"
  | .flushInterval => "SPILLWAY_SINK_FLUSH_INTERVAL_MS"
  | .writeTimeout => "SPILLWAY_SINK_WRITE_TIMEOUT_MS"
  | .telemetryPath => "SPILLWAY_SINK_PATH"
  | .callsPerSecond => "SPILLWAY_RATE_MAX_CALLS_PER_SECOND"
  | .windowSeconds => "SPILLWAY_RATE_WINDOW_SECONDS"

/-- What a variable does with its value. -/
inductive Use where
  /-- The value is taken as it stands. -/
  | text (put : Settings → String → Settings)
  /-- The value is a numeral below a bound. -/
  | number (bound : Nat) (put : Settings → Nat → Settings)

/-- A variable that holds whole milliseconds. -/
def Use.millis (put : Settings → Duration → Settings) : Use :=
  .number (Nat.pow 2 64) fun s n => put s (Duration.ofMillis n)

/-- What each variable does. -/
def use : Variable → Use
  | .poolName => .text fun s t => { s with pool.name := t }
  | .workerLabel => .text fun s t => { s with pool.workerLabel := t }
  | .minWorkers => .number (Nat.pow 2 64) fun s n => { s with pool.minWorkers := n }
  | .maxWorkers => .number (Nat.pow 2 64) fun s n => { s with pool.maxWorkers := n }
  | .queueCapacity => .number (Nat.pow 2 64) fun s n => { s with pool.queueCapacity := n }
  | .poolShutdownTimeout => .millis fun s d => { s with pool.shutdownTimeout := d }
  | .pollTimeout => .millis fun s d => { s with pool.poller.pollTimeout := d }
  | .idleInterval => .millis fun s d =>
    { s with
      pool.poller.minIdle := d
      pool.poller.maxIdle := max s.pool.poller.maxIdle d }
  | .sinkName => .text fun s t => { s with sink.name := t }
  | .sinkCapacity => .number (Nat.pow 2 64) fun s n => { s with sink.capacity := n }
  | .permitsPerSecond => .number (Nat.pow 2 32) fun s n => { s with sink.permitsPerSecond := n }
  | .flushInterval => .millis fun s d => { s with sink.flushInterval := d }
  | .writeTimeout => .millis fun s d =>
    { s with
      sink.writeTimeout := d
      sink.shutdownTimeout := max s.sink.shutdownTimeout d }
  | .telemetryPath => .text fun s t => { s with telemetryPath := if t.isEmpty then none else some t }
  | .callsPerSecond => .number (Nat.pow 2 32) fun s n => { s with rate.callsPerSecond := n }
  | .windowSeconds => .number (Nat.pow 2 64) fun s n => { s with rate.windowSeconds := n }

/-- The settings after one variable with its value, if it has one. -/
def apply (v : Variable) (value : Option String) (s : Settings) : Except SettingsError Settings :=
  match value with
  | none => .ok s
  | some text =>
    match v.use with
    | .text put => .ok (put s text)
    | .number bound put =>
      match Text.readNumeral bound (Text.trim text) with
      | .ok n => .ok (put s n)
      | .error fault => .error (.invalidValue v.key text fault)

end Variable

/-- The settings after every variable, not checked. -/
def Settings.overlay (poolName : String) (source : String → Option String) :
    Except SettingsError Settings :=
  Variable.all.foldlM (fun s v => v.apply (source v.key) s) (Settings.standard poolName)

/-- Settings from a source of variables; a pool without a name gets `poolName`. -/
def Settings.ofVariables (poolName : String) (source : String → Option String) :
    Except SettingsError Settings := do
  let s ← overlay poolName source
  s.check.mapError SettingsError.invalid
  return s

end Backpressure
