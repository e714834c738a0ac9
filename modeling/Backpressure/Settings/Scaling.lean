import Backpressure.Settings.Poller

/-!
# Settings of scaling

The backlog of a queue is compared with two watermarks, as a part of the
capacity.  At or above the high one the pool is under pressure, at or below the
low one it is idle; only pressure that lasts for `growAfter` adds workers, and
only idleness that lasts for `shrinkAfter` removes some, `step` at a time.

The settings are accepted when the low watermark is not at or above the high one
and the interval between evaluations is positive.
-/

namespace Backpressure

/-- Settings of scaling. -/
structure ScalingSettings where
  /-- The time between two evaluations. -/
  evaluateInterval : Duration := Duration.ofMillis 500
  /-- The backlog from which on the pool is under pressure. -/
  highWatermark : Float := 0.5
  /-- The backlog up to which the pool is idle. -/
  lowWatermark : Float := 0.0
  /-- How long pressure lasts before workers are added. -/
  growAfter : Duration := Duration.ofWholeSeconds 2
  /-- How long idleness lasts before workers are removed. -/
  shrinkAfter : Duration := Duration.ofWholeSeconds 30
  /-- How many workers one decision adds or removes. -/
  step : Nat := 1
  deriving Inhabited, BEq, Repr

/-- Why settings of scaling are refused. -/
inductive ScalingFault where
  /-- The low watermark is not below the high one. -/
  | watermarksReversed
  /-- There is no time between two evaluations. -/
  | noInterval
  deriving DecidableEq, Repr

/-- The wording of a fault. -/
def ScalingFault.message : ScalingFault → String
  | .watermarksReversed => "low_watermark must be less than high_watermark"
  | .noInterval => "evaluate_interval must be positive"

namespace ScalingSettings

/-- Sets the time between two evaluations. -/
def withEvaluateInterval (s : ScalingSettings) (d : Duration) : ScalingSettings :=
  { s with evaluateInterval := d }

/-- Sets the high watermark, a fraction between zero and one. -/
def withHighWatermark (s : ScalingSettings) (x : Float) : ScalingSettings :=
  { s with highWatermark := clampTo 0.0 1.0 x }

/-- Sets the low watermark, a fraction between zero and one. -/
def withLowWatermark (s : ScalingSettings) (x : Float) : ScalingSettings :=
  { s with lowWatermark := clampTo 0.0 1.0 x }

/-- Sets how long pressure lasts before workers are added. -/
def withGrowAfter (s : ScalingSettings) (d : Duration) : ScalingSettings := { s with growAfter := d }

/-- Sets how long idleness lasts before workers are removed. -/
def withShrinkAfter (s : ScalingSettings) (d : Duration) : ScalingSettings :=
  { s with shrinkAfter := d }

/-- Sets the step, which is at least one. -/
def withStep (s : ScalingSettings) (n : Nat) : ScalingSettings := { s with step := max n 1 }

/-- Accepts the settings or gives the first fault. -/
def check (s : ScalingSettings) : Except ScalingFault Unit :=
  if s.lowWatermark ≥ s.highWatermark then .error .watermarksReversed
  else if s.evaluateInterval = 0 then .error .noInterval
  else .ok ()

/-- The fields in declared order. -/
def fields : List (Json.Field ScalingSettings) :=
  [.duration "evaluate_interval" (·.evaluateInterval) fun s d => { s with evaluateInterval := d },
   .real "high_watermark" (·.highWatermark) fun s x => { s with highWatermark := x },
   .real "low_watermark" (·.lowWatermark) fun s x => { s with lowWatermark := x },
   .duration "grow_after" (·.growAfter) fun s d => { s with growAfter := d },
   .duration "shrink_after" (·.shrinkAfter) fun s d => { s with shrinkAfter := d },
   .natural "step" (Nat.pow 2 64) (·.step) fun s n => { s with step := n }]

end ScalingSettings

end Backpressure
