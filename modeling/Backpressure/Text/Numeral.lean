import Backpressure.Text.Blank

/-!
# Unsigned numerals

A numeral is a run of decimal digits, with a plus sign allowed in front.  It is
read with a bound, and a text that is no numeral below the bound is refused for
one of three reasons.  The reason is the first fault met from the left: a wrong
character further right is not reported once the value is too large.
-/

namespace Backpressure.Text

/-- Why a text is no numeral. -/
inductive NumeralFault where
  /-- There is no character at all. -/
  | empty
  /-- A character is no digit, or a sign stands alone. -/
  | invalidDigit
  /-- The value reaches the bound. -/
  | tooLarge
  deriving DecidableEq, Repr

/-- The wording of a fault. -/
def NumeralFault.message : NumeralFault → String
  | .empty => "cannot parse integer from empty string"
  | .invalidDigit => "invalid digit found in string"
  | .tooLarge => "number too large to fit in target type"

/-- The value of a decimal digit. -/
def digitValue? (c : Char) : Option Nat :=
  if '0' ≤ c ∧ c ≤ '9' then some (c.toNat - 48) else none

/-- Reads digits onto a value, with every value staying below `bound`. -/
def readDigits (bound : Nat) : Nat → List Char → Except NumeralFault Nat
  | value, [] => .ok value
  | value, c :: rest =>
    match digitValue? c with
    | none => .error .invalidDigit
    | some d =>
      if bound ≤ value * 10 + d then .error .tooLarge
      else readDigits bound (value * 10 + d) rest

/-- The value of a numeral below `bound`. -/
def readNumeral (bound : Nat) (s : String) : Except NumeralFault Nat :=
  match s.toList with
  | [] => .error .empty
  | ['+'] | ['-'] => .error .invalidDigit
  | '+' :: digits => readDigits bound 0 digits
  | digits => readDigits bound 0 digits

end Backpressure.Text
