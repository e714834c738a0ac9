import Backpressure.CallError
import Backpressure.Rate.Counter
import Backpressure.Rate.Throttle
import Backpressure.Settings.Rate

/-!
# A cap on the calls of any second

A controller stands in front of a call.  It keeps the moments of the last
admissions and admits an attempt only if fewer than the cap lie in the second
before it; an admission exactly one second old no longer counts.  A refused
attempt learns how long the oldest of them still counts.

A call that uses up its time is counted (`overrun`), and its admission stays.  The
calls themselves belong to whoever drives the controller.
-/

namespace Backpressure.Rate

/-- Counts of outcomes. -/
structure ControllerStats where
  /-- Attempts that made the call. -/
  admitted : Nat := 0
  /-- Attempts refused by the cap. -/
  rejected : Nat := 0
  /-- Calls that used up their time. -/
  cancelled : Nat := 0
  deriving DecidableEq, Repr, Inhabited

/-- A controller. -/
structure Controller where
  settings : RateSettings
  /-- The moments of the last admissions, oldest first. -/
  admissions : List Instant := []
  /-- Admissions per second. -/
  counter : Counter
  /-- Whether calls are admitted at all. -/
  switch : Throttle := {}
  /-- The counts of outcomes. -/
  stats : ControllerStats := {}
  deriving Inhabited, Repr

/-- What an attempt comes to before the call. -/
inductive Admission where
  /-- The call is made. -/
  | admitted
  /-- The call is not made. -/
  | refused (error : CallError)
  deriving DecidableEq, Repr

namespace Controller

/-- The length of the window in which calls are capped. -/
def window : Duration := Duration.ofWholeSeconds 1

/-- A controller that has admitted nothing. -/
def ofSettings (s : RateSettings) : Controller :=
  { settings := s, counter := .ofWindow s.windowSeconds }

/-- The admissions without those at the front that are at least a second old. -/
def recent (admissions : List Instant) (now : Instant) : List Instant :=
  admissions.dropWhile fun at_ => window ≤ now - at_

/-- Milliseconds until an admission stops counting, at least one. -/
def retryHint (oldest now : Instant) : Nat := max 1 (Duration.wholeMillis (window - (now - oldest)))

/-- Admits an attempt or refuses it. -/
def allow (c : Controller) (clock : WallClock) (now : Instant) : Admission × Controller :=
  if !c.switch.enabled then (.refused .disabled, c)
  else
    let cap := c.settings.callsPerSecond
    let rejected := { c with stats.rejected := c.stats.rejected + 1 }
    if cap = 0 then (.refused (.rateExceeded 0 (-1)), rejected)
    else
      let kept := recent c.admissions now
      if cap ≤ kept.length then
        (.refused (.rateExceeded cap (retryHint (kept.headD now) now)),
          { rejected with admissions := kept })
      else
        (.admitted,
          { c with
            admissions := kept ++ [now]
            counter := (c.counter.increment (clock.at now).epochSecond).2
            stats.admitted := c.stats.admitted + 1 })

/-- A call has used up its time. -/
def overrun (c : Controller) (limit : Duration) : CallError × Controller :=
  (.cancelled limit, { c with stats.cancelled := c.stats.cancelled + 1 })

/-- Admits calls again. -/
def enable (c : Controller) : Controller := { c with switch := c.switch.enable }

/-- Refuses every call. -/
def disable (c : Controller) : Controller := { c with switch := c.switch.disable }

/-- The admissions of the last seconds. -/
def windowStats (c : Controller) (clock : WallClock) (now : Instant) (seconds : Nat) : WindowStats :=
  c.counter.windowAt (clock.at now).epochSecond seconds

end Controller

end Backpressure.Rate
