import Backpressure.Text.Escaped

/-!
# Quoted text

A message that repeats a value it was given puts the value in double quotes.
Inside, the quote and the backslash are preceded by a backslash, four control
characters have a letter, and every other character that is not shown as it
stands is written as `\u` with its number in braces.  The apostrophe is left
alone.
-/

namespace Backpressure.Text

/-- The number of a character in lower-case hexadecimal, without leading zeros. -/
def hexNumber (c : Char) : String := String.ofList (Nat.toDigits 16 c.toNat)

/-- One character of a quoted text. -/
def quoteChar (c : Char) : String :=
  if c = '"' then "\\\""
  else if c = '\\' then "\\\\"
  else if c = '\n' then "\\n"
  else if c = '\r' then "\\r"
  else if c = '\t' then "\\t"
  else if c.toNat = 0 then "\\0"
  else if isEscaped c then "\\u\x7b" ++ hexNumber c ++ "\x7d"
  else c.toString

/-- A text in double quotes. -/
def quoted (s : String) : String :=
  "\"" ++ String.join (s.toList.map quoteChar) ++ "\""

example : quoted "a'b" = "\"a'b\"" := by decide +kernel
example : quoted "\x7f" = "\"\\u\x7b7f\x7d\"" := by decide +kernel

end Backpressure.Text
