import Backpressure.Settings.Pool

/-!
# Settings of a telemetry sink

A sink buffers up to `capacity` items, lets `permitsPerSecond` items in, and
writes what it has every `flushInterval`.  One batch must be written within
`writeTimeout`, and the wait for the flush worker at a stop must cover at least
one batch.
-/

namespace Backpressure

/-- Settings of a telemetry sink. -/
structure SinkSettings where
  /-- The name of the sink. -/
  name : String := "telemetry"
  /-- The capacity of the buffer. -/
  capacity : Nat := 10000
  /-- The items let in per second. -/
  permitsPerSecond : Nat := 1000
  /-- The time between two scheduled flushes. -/
  flushInterval : Duration := Duration.ofWholeSeconds 1
  /-- How long one batch may take. -/
  writeTimeout : Duration := Duration.ofWholeSeconds 5
  /-- How long the flush worker is waited for at a stop. -/
  shutdownTimeout : Duration := Duration.ofWholeSeconds 10
  /-- The least time between two alerts. -/
  alertMinInterval : Duration := Duration.ofWholeSeconds 300
  deriving Inhabited, BEq, DecidableEq, Repr

/-- Why settings of a sink are refused. -/
inductive SinkFault where
  /-- The buffer has no room. -/
  | noCapacity
  /-- The buffer is larger than a queue can be. -/
  | capacityTooLarge
  /-- No item is ever let in. -/
  | noPermits
  /-- There is no time between two flushes. -/
  | noFlushInterval
  /-- A batch has no time. -/
  | noWriteTimeout
  /-- The wait at a stop is shorter than one batch may take. -/
  | shutdownTooShort
  deriving DecidableEq, Repr

/-- The wording of a fault. -/
def SinkFault.message : SinkFault → String
  | .noCapacity => "capacity must be positive"
  | .capacityTooLarge => "capacity must not exceed " ++ toString largestCapacity
  | .noPermits => "permits_per_second must be positive"
  | .noFlushInterval => "flush_interval must be positive"
  | .noWriteTimeout => "write_timeout must be positive"
  | .shutdownTooShort => "shutdown_timeout must cover at least one write_timeout"

namespace SinkSettings

/-- The default settings under a name. -/
def named (name : String) : SinkSettings := { name }

/-- Sets the capacity of the buffer. -/
def withCapacity (s : SinkSettings) (n : Nat) : SinkSettings := { s with capacity := n }

/-- Sets the items let in per second. -/
def withPermitsPerSecond (s : SinkSettings) (n : Nat) : SinkSettings :=
  { s with permitsPerSecond := n }

/-- Sets the time between two scheduled flushes. -/
def withFlushInterval (s : SinkSettings) (d : Duration) : SinkSettings :=
  { s with flushInterval := d }

/-- Sets how long one batch may take. -/
def withWriteTimeout (s : SinkSettings) (d : Duration) : SinkSettings := { s with writeTimeout := d }

/-- Sets how long the flush worker is waited for at a stop. -/
def withShutdownTimeout (s : SinkSettings) (d : Duration) : SinkSettings :=
  { s with shutdownTimeout := d }

/-- Sets the least time between two alerts. -/
def withAlertMinInterval (s : SinkSettings) (d : Duration) : SinkSettings :=
  { s with alertMinInterval := d }

/-- Accepts the settings or gives the first fault. -/
def check (s : SinkSettings) : Except SinkFault Unit :=
  if s.capacity = 0 then .error .noCapacity
  else if largestCapacity < s.capacity then .error .capacityTooLarge
  else if s.permitsPerSecond = 0 then .error .noPermits
  else if s.flushInterval = 0 then .error .noFlushInterval
  else if s.writeTimeout = 0 then .error .noWriteTimeout
  else if s.shutdownTimeout < s.writeTimeout then .error .shutdownTooShort
  else .ok ()

/-- The fields in declared order. -/
def fields : List (Json.Field SinkSettings) :=
  [.text "name" (·.name) fun s t => { s with name := t },
   .natural "capacity" (Nat.pow 2 64) (·.capacity) fun s n => { s with capacity := n },
   .natural "permits_per_second" (Nat.pow 2 32) (·.permitsPerSecond) fun s n =>
     { s with permitsPerSecond := n },
   .duration "flush_interval" (·.flushInterval) fun s d => { s with flushInterval := d },
   .duration "write_timeout" (·.writeTimeout) fun s d => { s with writeTimeout := d },
   .duration "shutdown_timeout" (·.shutdownTimeout) fun s d => { s with shutdownTimeout := d },
   .duration "alert_min_interval" (·.alertMinInterval) fun s d => { s with alertMinInterval := d }]

end SinkSettings

end Backpressure
