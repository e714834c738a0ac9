import Backpressure.Time.Timestamp

/-!
# Timers

A timer fires on a whole millisecond: a wait that would end at a fraction of one
ends at the next whole millisecond.  A wait whose end is not after the current
moment has ended already.
-/

namespace Backpressure

/-- The first whole millisecond that is not before a moment. -/
def Instant.ceilMilli (t : Instant) : Instant :=
  (t + (Duration.perMilli - 1)) / Duration.perMilli * Duration.perMilli

/-- The moment at which a wait that starts now ends. -/
def Instant.afterWait (now : Instant) (d : Duration) : Instant := Instant.ceilMilli (now + d)

theorem Instant.le_ceilMilli (t : Instant) : t ≤ t.ceilMilli := by
  unfold ceilMilli Duration.perMilli Instant at *
  omega

theorem Instant.ceilMilli_of_mul (n : Nat) :
    Instant.ceilMilli (n * Duration.perMilli) = n * Duration.perMilli := by
  unfold ceilMilli Duration.perMilli Instant at *
  omega

theorem Instant.le_afterWait (now : Instant) (d : Duration) : now + d ≤ now.afterWait d :=
  Instant.le_ceilMilli _

end Backpressure
