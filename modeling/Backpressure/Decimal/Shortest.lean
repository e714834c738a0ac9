import Backpressure.Time.Duration

/-!
# The shortest decimal of a double

A finite positive double is `m · 2 ^ e` for natural numbers `m` and an integer
`e`.  The reals that round to it form an interval around it, whose ends belong
to it exactly when `m` is even.  The shortest decimal is the one with the fewest
digits in that interval, and of several with as few digits the nearest.

*Search.*  For one digit, two digits and so on, the value lies between two
neighbours of that decimal grid.  If a point of the grid lies in the interval,
so does one of these two.  The first grid with a hit wins; of two hits the
nearer one does, and a tie goes to the even last digit.  Seventeen digits always
hit, so the search is bounded by that number.

All comparisons are made between natural numbers: both sides are multiplied by
the powers of two and ten that clear the negative exponents.
-/

namespace Backpressure.Decimal

/-- A decimal: `digits · 10 ^ scale`. -/
structure Scaled where
  /-- The digits, read as one number. -/
  digits : Nat
  /-- The power of ten. -/
  scale : Int
  deriving DecidableEq, Repr

/-- A finite positive double: `significand · 2 ^ exponent`. -/
structure Binary where
  significand : Nat
  /-- The power of two. -/
  exponent : Int
  /-- Whether the next smaller double lies at half the distance of the next larger one. -/
  narrowBelow : Bool
  deriving DecidableEq, Repr

/-- The parts of a double from its bits; the sign is left out. -/
def Binary.ofBits (bits : UInt64) : Binary :=
  let m := Duration.significand bits
  { significand := m
    exponent := (Duration.exponent bits : Int) - 1074
    narrowBelow := m = Nat.pow 2 52 && decide (0 < Duration.exponent bits) }

/-- The numerator of `n · 2 ^ e · 10 ^ (-s)` over the common denominator `denominator e s`. -/
def numerator (n : Nat) (e s : Int) : Nat := n * Nat.pow 2 e.toNat * Nat.pow 10 (-s).toNat

/-- The common denominator of the quantities compared at the scales `e` and `s`. -/
def denominator (e s : Int) : Nat := Nat.pow 2 (-e).toNat * Nat.pow 10 s.toNat

/-- Whether `c · 10 ^ s` rounds to the double. -/
def Binary.rounds (b : Binary) (c : Nat) (s : Int) : Bool :=
  let point := 4 * c * denominator b.exponent s
  let low := numerator (4 * b.significand - if b.narrowBelow then 1 else 2) b.exponent s
  let high := numerator (4 * b.significand + 2) b.exponent s
  if b.significand % 2 = 0 then decide (low ≤ point) && decide (point ≤ high)
  else decide (low < point) && decide (point < high)

/-- The better of the two neighbours `c` and `c + 1` of the double on the grid `10 ^ s`. -/
def Binary.nearer (b : Binary) (c : Nat) (s : Int) : Nat :=
  let value := numerator b.significand b.exponent s
  let unit := denominator b.exponent s
  let below := value - c * unit
  let above := (c + 1) * unit - value
  if below < above then c
  else if above < below then c + 1
  else if c % 2 = 0 then c else c + 1

/-- The point of the grid `10 ^ s` that stands for the double, if there is one. -/
def Binary.onGrid (b : Binary) (s : Int) : Option Nat :=
  let c := numerator b.significand b.exponent s / denominator b.exponent s
  match b.rounds c s, b.rounds (c + 1) s with
  | true, true => some (b.nearer c s)
  | true, false => some c
  | false, true => some (c + 1)
  | false, false => none

/-- A number of decimal digits that is enough for the integer part of a natural number. -/
def digitCount (n : Nat) : Nat := (Nat.toDigits 10 n).length

/-- The position of the leading digit: the largest `k` with `10 ^ k` not above the double. -/
def Binary.magnitude (b : Binary) : Int :=
  if 0 ≤ b.exponent then (digitCount (numerator b.significand b.exponent 0) : Int) - 1
  else
    let shift := (-b.exponent).toNat
    (digitCount (b.significand * Nat.pow 10 shift / Nat.pow 2 shift) : Int) - 1 - shift

/-- Tries the grids of `n`, `n + 1`, … digits; `budget` bounds how many. -/
def Binary.search (b : Binary) (top : Int) : Nat → Nat → Scaled
  | 0, n => ⟨b.significand, top - n⟩
  | budget + 1, n =>
    match b.onGrid (top - n + 1) with
    | some c => ⟨c, top - n + 1⟩
    | none => b.search top budget (n + 1)

/-- A decimal without trailing zeros; `budget` bounds how many are removed. -/
def Scaled.strip : Nat → Scaled → Scaled
  | 0, x => x
  | budget + 1, x =>
    if x.digits ≠ 0 ∧ x.digits % 10 = 0 then strip budget ⟨x.digits / 10, x.scale + 1⟩ else x

/-- The shortest decimal of a finite positive double. -/
def Binary.shortest (b : Binary) : Scaled := (b.search b.magnitude 17 1).strip 20

/-! ## Text -/

/-- Digits with a point after the first `n`. -/
def pointAfter (n : Nat) (ds : List Char) : String :=
  String.ofList (ds.take n) ++ "." ++ String.ofList (ds.drop n)

/-- A run of zeros. -/
def zeros (n : Nat) : String := String.ofList (List.replicate n '0')

/-- The text of a decimal.  With the point up to sixteen places after the first
digit, or up to four zeros before it, the decimal is written out with a fraction
of at least one digit; otherwise it has one digit before the point and a power
of ten. -/
def Scaled.text (x : Scaled) : String :=
  let ds := Nat.toDigits 10 x.digits
  let size := ds.length
  let point : Int := size + x.scale
  if 0 ≤ x.scale ∧ point ≤ 16 then String.ofList ds ++ zeros x.scale.toNat ++ ".0"
  else if 0 < point ∧ point ≤ 16 then pointAfter point.toNat ds
  else if -5 < point ∧ point ≤ 0 then "0." ++ zeros (-point).toNat ++ String.ofList ds
  else if size = 1 then String.ofList ds ++ "e" ++ toString (point - 1)
  else pointAfter 1 ds ++ "e" ++ toString (point - 1)

/-- The text of a finite double. -/
def text (x : Float) : String :=
  let bits := x.toBits
  let sign := if Nat.pow 2 63 ≤ bits.toNat then "-" else ""
  if bits.toNat % Nat.pow 2 63 = 0 then sign ++ "0.0"
  else sign ++ (Binary.ofBits bits).shortest.text

end Backpressure.Decimal
