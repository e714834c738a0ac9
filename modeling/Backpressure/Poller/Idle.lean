import Backpressure.Settings.Poller

/-!
# How long an idle poller sleeps

A poller that found nothing sleeps for its idle interval.  When the sleep runs
out, the interval is multiplied by the backoff factor, but not beyond the longest
one; an item or a wake-up sets it back to the shortest.

A sleep is spread by a factor drawn between `1 - jitter` and `1 + jitter`, unless
the jitter is not positive or the interval is zero.

The rule needs only two operations on factors, so it is stated for any that have
them.  `Factors.doubles` is the one in use: scaling an interval goes through
seconds in double precision.  A product that is negative, not a number or too long
is no length of time, and then there is no interval: the iteration that asked for
it panics.
-/

namespace Backpressure.Idle

/-- Operations on factors `ρ`. -/
structure Factors (ρ : Type) where
  /-- A length of time scaled by a factor, if the product is one. -/
  scale : Duration → ρ → Option Duration
  /-- Whether a jitter moves no sleep at all. -/
  isStill : ρ → Bool

/-- Factors in double precision. -/
def Factors.doubles : Factors Float where
  scale := fun d factor => Duration.ofSeconds? (d.seconds * factor)
  isStill := fun jitter => jitter ≤ 0.0

/-- The range of the idle interval and the factors that change it. -/
structure Pace (ρ : Type) where
  /-- The shortest interval. -/
  least : Duration
  /-- The longest one. -/
  most : Duration
  /-- The factor between one interval and the next. -/
  backoff : ρ
  /-- The largest part of a sleep by which it may be moved. -/
  jitter : ρ
  deriving Repr

namespace Pace

variable {ρ : Type}

/-- The interval after a sleep that ran out. -/
def increase (A : Factors ρ) (s : Pace ρ) (current : Duration) : Option Duration :=
  (A.scale current s.backoff).map fun next => min next s.most

/-- The sleep for an interval; `draw` is the factor that chance has drawn. -/
def spread (A : Factors ρ) (s : Pace ρ) (draw : ρ) (interval : Duration) : Option Duration :=
  if A.isStill s.jitter || interval == 0 then some interval else A.scale interval draw

end Pace

/-- The pace of a poller with some settings. -/
def pace (s : PollerSettings) : Pace Float where
  least := s.minIdle
  most := s.maxIdle
  backoff := s.backoff
  jitter := s.jitter

/-- The interval after a sleep that ran out. -/
def increase (s : PollerSettings) (current : Duration) : Option Duration :=
  (pace s).increase .doubles current

/-- The sleep for an interval; `draw` is the factor that chance has drawn. -/
def spread (s : PollerSettings) (draw : Float) (interval : Duration) : Option Duration :=
  (pace s).spread .doubles draw interval

end Backpressure.Idle
