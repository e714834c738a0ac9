import Backpressure.Json.Fields

/-!
# Settings of a poller

A poller waits for an item for at most `pollTimeout`.  When there was none it
sleeps for the idle interval, which starts at `minIdle` and is multiplied by
`backoff` after every empty poll, up to `maxIdle`.  Each sleep is moved at random
by at most the fraction `jitter`, so that pollers drift apart.

The settings are accepted when the idle range is not reversed.  The functions
that set a real number bring it into its range; reading a text does not.
-/

namespace Backpressure

/-- Settings of a poller. -/
structure PollerSettings where
  /-- How long one poll waits for an item. -/
  pollTimeout : Duration := Duration.ofMillis 500
  /-- The idle interval after the first empty poll. -/
  minIdle : Duration := Duration.ofMillis 10
  /-- The longest idle interval. -/
  maxIdle : Duration := Duration.ofMillis 500
  /-- The factor between one idle interval and the next. -/
  backoff : Float := 2.0
  /-- The largest part of an idle sleep by which it may be moved. -/
  jitter : Float := 0.1
  deriving Inhabited, BEq, Repr

/-- Why settings of a poller are refused. -/
inductive PollerFault where
  /-- The shortest idle interval is longer than the longest one. -/
  | idleRangeReversed
  deriving DecidableEq, Repr

/-- The wording of a fault. -/
def PollerFault.message : PollerFault → String
  | .idleRangeReversed => "min_idle_interval must not exceed max_idle_interval"

/-- The larger of two reals; a value that is no number gives way to the other. -/
def largerOf (x y : Float) : Float :=
  if x.isNaN then y else if y.isNaN then x else if x < y then y else x

/-- A real brought into a range; a value that is no number stays. -/
def clampTo (low high x : Float) : Float :=
  if x < low then low else if high < x then high else x

namespace PollerSettings

/-- Sets the wait of one poll. -/
def withPollTimeout (s : PollerSettings) (d : Duration) : PollerSettings := { s with pollTimeout := d }

/-- Sets the first idle interval. -/
def withMinIdle (s : PollerSettings) (d : Duration) : PollerSettings := { s with minIdle := d }

/-- Sets the longest idle interval. -/
def withMaxIdle (s : PollerSettings) (d : Duration) : PollerSettings := { s with maxIdle := d }

/-- Sets the backoff factor, which is at least one. -/
def withBackoff (s : PollerSettings) (x : Float) : PollerSettings :=
  { s with backoff := largerOf x 1.0 }

/-- Sets the jitter, a fraction between zero and one. -/
def withJitter (s : PollerSettings) (x : Float) : PollerSettings :=
  { s with jitter := clampTo 0.0 1.0 x }

/-- Accepts the settings or gives the first fault. -/
def check (s : PollerSettings) : Except PollerFault Unit :=
  if s.maxIdle < s.minIdle then .error .idleRangeReversed else .ok ()

/-- The fields in declared order. -/
def fields : List (Json.Field PollerSettings) :=
  [.duration "poll_timeout" (·.pollTimeout) fun s d => { s with pollTimeout := d },
   .duration "min_idle_interval" (·.minIdle) fun s d => { s with minIdle := d },
   .duration "max_idle_interval" (·.maxIdle) fun s d => { s with maxIdle := d },
   .real "idle_backoff_multiplier" (·.backoff) fun s x => { s with backoff := x },
   .real "idle_jitter" (·.jitter) fun s x => { s with jitter := x }]

end PollerSettings

end Backpressure
