import Backpressure.Text.Alphanumeric
import Backpressure.Text.Numeral

/-!
# Filter directives

A filter is a list of directives separated by commas; empty ones are dropped, so
the empty text is a filter.  A directive names a target, a span with a field in
brackets, and a level after `=`; each part may be missing.  Blanks around a
directive are passed over, but one with a `=` has none.

The reader goes through a directive one character at a time.  `Place` is where
it stands, with the characters gathered there.
-/

namespace Backpressure.Logging

/-- Where a reader stands in a directive. -/
inductive Place where
  /-- Before the first character. -/
  | start
  /-- In a word that is a level or a target. -/
  | word
  | spanName
  /-- In a field of a span, with the number of characters read of it. -/
  | field (length : Nat)
  /-- After the fields of a span. -/
  | fields
  /-- After the bracket of a span. -/
  | target
  /-- In the level after `=`, with its characters in reverse. -/
  | level (taken : List Char)
  deriving DecidableEq, Repr

/-- The characters that may begin a directive. -/
def beginsWord (c : Char) : Bool :=
  Text.isAlphanumeric c || c == '-' || c == ':' || c == '_'

/-- The place after one more character, if the character fits. -/
def Place.next (p : Place) (c : Char) : Option Place :=
  match p with
  | .start => if c = '[' then some .spanName else if beginsWord c then some .word else none
  | .word => some (if c = '=' then .level [] else if c = '[' then .spanName else .word)
  | .spanName => some (if c = ']' then .target else if c = '\x7b' then .field 0 else .spanName)
  | .field n =>
    if c = '\x7d' then if n = 0 then none else some .fields
    else some (.field (n + 1))
  | .fields => if c = ']' then some .target else none
  | .target => if c = '=' then some (.level []) else none
  | .level taken => some (.level (c :: taken))

/-- The levels by name. -/
def levelWords : List String := ["trace", "debug", "info", "warn", "error", "off"]

/-- Whether a text is a level: a name in any case of letters, or a numeral up to five. -/
def isLevel (s : String) : Bool :=
  levelWords.contains (s.map Char.toLower) || (Text.readNumeral 6 s).isOk

/-- Whether a directive may end here; `bare` tells that no blanks stand around it. -/
def Place.isEnd (bare : Bool) : Place → Bool
  | .word | .target => true
  | .level taken => bare && (taken.isEmpty || isLevel (String.ofList taken.reverse))
  | .start | .spanName | .field _ | .fields => false

/-- Whether a text is a directive. -/
def isDirective (s : String) : Bool :=
  let inner := Text.trim s
  match inner.toList.foldlM Place.next .start with
  | some p => p.isEnd (inner == s)
  | none => false

/-- Whether a text is a filter. -/
def isFilter (s : String) : Bool :=
  ((s.splitOn ",").filter (!·.isEmpty)).all isDirective


end Backpressure.Logging
