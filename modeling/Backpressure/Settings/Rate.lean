import Backpressure.Json.Fields

/-!
# Settings of a rate controller

At most `callsPerSecond` calls are let through in any second, none at all when it
is zero.  The controller keeps the counts of the last `windowSeconds` seconds.
-/

namespace Backpressure

/-- Settings of a rate controller. -/
structure RateSettings where
  /-- The calls let through in any rolling second. -/
  callsPerSecond : Nat := 100
  /-- The seconds of history. -/
  windowSeconds : Nat := 60
  deriving Inhabited, BEq, DecidableEq, Repr

/-- Why settings of a rate controller are refused. -/
inductive RateFault where
  /-- There is no history at all. -/
  | noWindow
  deriving DecidableEq, Repr

/-- The wording of a fault. -/
def RateFault.message : RateFault → String
  | .noWindow => "window_seconds must be at least 1"

namespace RateSettings

/-- The default settings with a number of calls per second. -/
def ofCalls (n : Nat) : RateSettings := { callsPerSecond := n }

/-- Sets the seconds of history. -/
def withWindowSeconds (s : RateSettings) (n : Nat) : RateSettings := { s with windowSeconds := n }

/-- Accepts the settings or gives the first fault. -/
def check (s : RateSettings) : Except RateFault Unit :=
  if s.windowSeconds = 0 then .error .noWindow else .ok ()

/-- The fields in declared order. -/
def fields : List (Json.Field RateSettings) :=
  [.natural "max_calls_per_second" (Nat.pow 2 32) (·.callsPerSecond) fun s n =>
     { s with callsPerSecond := n },
   .natural "window_seconds" (Nat.pow 2 64) (·.windowSeconds) fun s n => { s with windowSeconds := n }]

end RateSettings

end Backpressure
