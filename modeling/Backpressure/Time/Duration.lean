/-!
# Lengths of time

Every wait, interval and deadline of the library is a whole number of
nanoseconds.  Moments are counted from the start of the clock, so a moment is a
length of time as well, and a deadline is the sum of the two.

*Milliseconds.*  Configurations write lengths of time as whole milliseconds;
what is finer is cut off, and the count is kept in a 64-bit word.

*Seconds as reals.*  Backoff and permit delays are computed in double precision.
`ofSeconds?` reads such a value back to the nearest nanosecond, a tie going to
the even neighbour, and refuses a value that is negative, not a number, or too
long for 64 bits of seconds.  The rounding is exact: the double is taken apart
into `m · 2 ^ e` and the quotient is formed in the natural numbers.

*Text.*  `Duration.text` writes the largest unit that has a non-zero integer
part, with the fraction cut after its last non-zero digit: `1.5µs`, `20ms`,
`1.234s`.  Seconds are the largest unit.
-/

namespace Backpressure

/-- A length of time, in whole nanoseconds. -/
abbrev Duration := Nat

/-- A moment: the nanoseconds since the clock started. -/
abbrev Instant := Nat

namespace Duration

/-- The nanoseconds of one second. -/
def perSecond : Nat := 1000000000

/-- The nanoseconds of one millisecond. -/
def perMilli : Nat := 1000000

/-- A whole number of milliseconds. -/
def ofMillis (n : Nat) : Duration := n * perMilli

/-- A whole number of seconds. -/
def ofWholeSeconds (n : Nat) : Duration := n * perSecond

/-- The whole milliseconds of a length of time; what is finer is cut off. -/
def wholeMillis (d : Duration) : Nat := d / perMilli

/-- The whole milliseconds as a 64-bit word, which wraps round at `2 ^ 64`. -/
def millisWord (d : Duration) : Nat := d.wholeMillis % Nat.pow 2 64

/-- The whole seconds of a length of time. -/
def wholeSeconds (d : Duration) : Nat := d / perSecond

/-- What is left of a length of time beside its whole seconds, in nanoseconds. -/
def subsecond (d : Duration) : Nat := d % perSecond

/-- A length of time in seconds: the whole seconds and the rest are converted
apart and then added. -/
def seconds (d : Duration) : Float :=
  Float.ofNat d.wholeSeconds + Float.ofNat d.subsecond / 1e9

/-! ## Reading seconds back -/

/-- The quotient `num / den`, a half going to the even neighbour. -/
def divHalfEven (num den : Nat) : Nat :=
  let q := num / den
  let r := num % den
  if 2 * r < den then q
  else if den < 2 * r then q + 1
  else if q % 2 = 0 then q else q + 1

/-- The significand of a finite double, with the hidden bit of a normal one. -/
def significand (bits : UInt64) : Nat :=
  let fraction := bits.toNat % Nat.pow 2 52
  if (bits.toNat / Nat.pow 2 52) % Nat.pow 2 11 = 0 then fraction else fraction + Nat.pow 2 52

/-- The exponent of a finite double: its size is `significand · 2 ^ (exponent - 1074)`. -/
def exponent (bits : UInt64) : Nat :=
  (bits.toNat / Nat.pow 2 52) % Nat.pow 2 11 - 1

/-- A number of seconds as a length of time, to the nearest nanosecond; `none`
for a negative number, for one that is no number, and from `2 ^ 64` seconds on. -/
def ofSeconds? (x : Float) : Option Duration :=
  if x < 0 then none
  else if x < 18446744073709551616.0 then
    let bits := x.toBits
    some (divHalfEven (significand bits * Nat.pow 2 (exponent bits) * perSecond) (Nat.pow 2 1074))
  else none

/-! ## Text -/

/-- The digits of `n` on exactly `width` places, the lowest ones if there are more. -/
def padded : Nat → Nat → List Char
  | 0, _ => []
  | width + 1, n => padded width (n / 10) ++ [Nat.digitChar (n % 10)]

/-- A list of digits without its trailing zeros. -/
def trimZeros (ds : List Char) : List Char :=
  (ds.reverse.dropWhile (· == '0')).reverse

/-- A number of units with a fraction of `width` decimal places. -/
def withFraction (whole fraction width : Nat) (unit : String) : String :=
  match trimZeros (padded width fraction) with
  | [] => toString whole ++ unit
  | ds => toString whole ++ "." ++ String.ofList ds ++ unit

/-- The text of a length of time in its largest unit. -/
def text (d : Duration) : String :=
  if perSecond ≤ d then withFraction (d / perSecond) (d % perSecond) 9 "s"
  else if perMilli ≤ d then withFraction (d / perMilli) (d % perMilli) 6 "ms"
  else if 1000 ≤ d then withFraction (d / 1000) (d % 1000) 3 "µs"
  else withFraction d 0 0 "ns"

example : text 0 = "0ns" := by decide +kernel
example : text 1500 = "1.5µs" := by decide +kernel
example : text 20000000 = "20ms" := by decide +kernel
example : text 1234000000 = "1.234s" := by decide +kernel

end Duration

end Backpressure
