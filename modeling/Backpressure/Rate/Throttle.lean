import Backpressure.Time.Timestamp

/-!
# A switch with a throttled trigger

The trigger fires when the switch is on and its last firing is at least the
interval ago.  It then notes the moment and what the wall clock shows.  A trigger
that does not fire changes nothing, and the switch does not touch the last firing.
-/

namespace Backpressure.Rate

/-- A firing of a throttled trigger. -/
structure Firing where
  /-- The moment, which the interval is counted from. -/
  moment : Instant
  /-- What the wall clock showed. -/
  time : Timestamp
  deriving DecidableEq, Repr

/-- A switch with a throttled trigger. -/
structure Throttle where
  /-- The least time between two firings. -/
  minInterval : Duration := 0
  /-- Whether the switch is on. -/
  enabled : Bool := true
  /-- The last firing. -/
  lastFired : Option Firing := none
  deriving DecidableEq, Repr, Inhabited

namespace Throttle

/-- A switch that is on, and has never fired. -/
def ofInterval (d : Duration) : Throttle := { minInterval := d }

/-- Turns the switch on. -/
def enable (t : Throttle) : Throttle := { t with enabled := true }

/-- Turns the switch off. -/
def disable (t : Throttle) : Throttle := { t with enabled := false }

/-- Whether a trigger would fire now. -/
def isDue (t : Throttle) (now : Instant) : Bool :=
  t.enabled && t.lastFired.all fun last => t.minInterval ≤ now - last.moment

/-- Pulls the trigger, and tells whether it fired. -/
def trigger (t : Throttle) (clock : WallClock) (now : Instant) : Bool × Throttle :=
  if t.isDue now then (true, { t with lastFired := some ⟨now, clock.at now⟩ }) else (false, t)

/-- The wall-clock time of the last firing. -/
def lastFiredAt (t : Throttle) : Option Timestamp := t.lastFired.map (·.time)

end Throttle

end Backpressure.Rate
