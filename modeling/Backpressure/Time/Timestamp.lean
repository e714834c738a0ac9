import Backpressure.Time.Duration

/-!
# Moments on the wall clock

A timestamp counts nanoseconds from the start of 1970 in UTC.  Its text is the
RFC 3339 form with `Z`: the date, `T`, the time of day, and a fraction of three,
six or nine digits, the fewest that lose nothing; a whole second has none.

*Calendar.*  Days are counted from the first of March of year 0, so that the
leap day is the last day of its year.  Four hundred years have 146097 days; the
year of the era, the day of that year and the month follow by division.  Years
outside 0 to 9999 are written with their sign.
-/

namespace Backpressure

/-- A moment on the wall clock: nanoseconds since the start of 1970 in UTC. -/
abbrev Timestamp := Int

namespace Timestamp

/-- A day of the calendar. -/
structure Date where
  /-- The year, which may be negative. -/
  year : Int
  /-- The month, from 1 to 12. -/
  month : Nat
  /-- The day of the month, from 1. -/
  day : Nat
  deriving DecidableEq, Repr

/-- The calendar day that begins `days` days after the start of 1970. -/
def Date.ofDays (days : Int) : Date :=
  let shifted := days + 719468
  let era := shifted.fdiv 146097
  let dayOfEra := (shifted.fmod 146097).toNat
  let yearOfEra := (dayOfEra - dayOfEra / 1460 + dayOfEra / 36524 - dayOfEra / 146096) / 365
  let dayOfYear := dayOfEra - (365 * yearOfEra + yearOfEra / 4 - yearOfEra / 100)
  let slot := (5 * dayOfYear + 2) / 153
  let day := dayOfYear - (153 * slot + 2) / 5 + 1
  let month := if slot < 10 then slot + 3 else slot - 9
  let year := era * 400 + yearOfEra
  { year := if month ≤ 2 then year + 1 else year, month, day }

/-- The digits of `n` on exactly `width` places. -/
def digits (width n : Nat) : String := String.ofList (Duration.padded width n)

/-- A year on four places; one outside 0 to 9999 is written with its sign. -/
def yearText (y : Int) : String :=
  let size := y.natAbs
  let places := max 4 (toString size).length
  if 0 ≤ y ∧ y ≤ 9999 then digits 4 size
  else (if y < 0 then "-" else "+") ++ digits places size

/-- The fraction of a second: none, or three, six or nine digits, the fewest that are exact. -/
def fractionText (nanos : Nat) : String :=
  if nanos = 0 then ""
  else if nanos % 1000000 = 0 then "." ++ digits 3 (nanos / 1000000)
  else if nanos % 1000 = 0 then "." ++ digits 6 (nanos / 1000)
  else "." ++ digits 9 nanos

/-- The RFC 3339 text of a timestamp. -/
def text (t : Timestamp) : String :=
  let second := t.fdiv 1000000000
  let nanos := (t.fmod 1000000000).toNat
  let date := Date.ofDays (second.fdiv 86400)
  let clock := (second.fmod 86400).toNat
  yearText date.year ++ "-" ++ digits 2 date.month ++ "-" ++ digits 2 date.day ++ "T"
    ++ digits 2 (clock / 3600) ++ ":" ++ digits 2 (clock / 60 % 60) ++ ":" ++ digits 2 (clock % 60)
    ++ fractionText nanos ++ "Z"

/-- The whole seconds of a timestamp; a moment before 1970 counts as second zero. -/
def epochSecond (t : Timestamp) : Nat := (t.fdiv 1000000000).toNat

example : Date.ofDays 0 = ⟨1970, 1, 1⟩ := by decide +kernel
example : Date.ofDays 11016 = ⟨2000, 2, 29⟩ := by decide +kernel
example : Date.ofDays (-1) = ⟨1969, 12, 31⟩ := by decide +kernel
example : text 1700000000005000000 = "2023-11-14T22:13:20.005Z" := by decide +kernel

end Timestamp

/-- A clock that shows the time of day: the timestamp at which the monotonic clock stood at zero. -/
structure WallClock where
  /-- The timestamp of moment zero. -/
  epoch : Timestamp
  deriving DecidableEq, Repr

/-- The timestamp of a moment. -/
def WallClock.at (clock : WallClock) (now : Instant) : Timestamp := clock.epoch + now

end Backpressure
