import Backpressure.Json.Value

/-!
# Reading JSON text

A reader takes characters from the front of a text and gives a result, or the
first fault that it meets reading from left to right.  There are three kinds of
fault: the text ends too early, the text is not JSON, or the JSON does not have
the shape that was asked for.  What has not been read yet is never looked at, so
a value of the wrong shape hides a fault further right.

*Numbers.*  Digits are gathered into a 64-bit significand; a digit that would
overflow it, and all digits after it, count only as a power of ten.  A number
without point and power of ten that fits is an integer; every other number is a
real, formed from the significand by one multiplication or division by a power
of ten (or by several divisions for a very small one).  A real beyond the range
of doubles is a fault of the text.

*Strings.*  A `\u` escape of the first half of a surrogate pair is followed by
an escape of the second half; a half on its own is a fault.

Recursion is on the characters that are left, with a bound on the nesting where
values contain values; the bound is the length of the text, which no nesting can
exceed.
-/

namespace Backpressure.Json

/-- Why a text cannot be read. -/
inductive Fault where
  /-- The text ends too early. -/
  | unfinished
  /-- The text is not JSON, or holds a number that no double can hold. -/
  | malformed
  /-- The JSON has another shape than the one asked for. -/
  | mismatched
  deriving DecidableEq, Repr

/-- The name of a kind of fault. -/
def Fault.category : Fault → String
  | .unfinished => "eof"
  | .malformed => "syntax"
  | .mismatched => "data"

/-- Takes characters from the front of a text. -/
abbrev Reader := StateT (List Char) (Except Fault)

namespace Reader

variable {α β : Type}

/-- Reports a fault. -/
def fault (f : Fault) : Reader α := fun _ => .error f

/-- The next character, left in place. -/
def peek : Reader (Option Char) := fun cs => .ok (cs.head?, cs)

/-- Drops the next character. -/
def skip : Reader Unit := fun cs => .ok ((), cs.tail)

/-- Takes the next character. -/
def next : Reader (Option Char) := fun cs => .ok (cs.head?, cs.tail)

/-- The blanks of JSON. -/
def isSpace (c : Char) : Bool := c = ' ' || c = '\n' || c = '\t' || c = '\r'

/-- Drops blanks and shows the character after them. -/
def peekToken : Reader (Option Char) := fun cs =>
  let rest := cs.dropWhile isSpace
  .ok (rest.head?, rest)

/-- Takes the characters of a literal word. -/
def word : List Char → Reader Unit
  | [] => pure ()
  | c :: rest => do
    match ← next with
    | none => fault .unfinished
    | some d => if c = d then word rest else fault .malformed

/-! ## Numbers -/

/-- A number as it was written. -/
inductive Numeral where
  /-- A natural number below `2 ^ 64`. -/
  | natural (n : Nat)
  /-- A negative integer of 64 bits. -/
  | negative (n : Int)
  /-- Any other number. -/
  | real (x : Float)

/-- The digit of a character. -/
def digit? (c : Char) : Option Nat :=
  if '0' ≤ c ∧ c ≤ '9' then some (c.toNat - 48) else none

/-- Digits at the front of a text, and the rest. -/
def spanDigits (cs : List Char) : List Char × List Char :=
  cs.span fun c => (digit? c).isSome

/-- The significand reached by digits in order, the number of them that went into
it, and the number that came too late. -/
def gather : Nat → Nat → List Char → Nat × Nat × Nat
  | significand, taken, [] => (significand, taken, 0)
  | significand, taken, c :: rest =>
    let value := significand * 10 + (c.toNat - 48)
    if value < Nat.pow 2 64 then gather value (taken + 1) rest
    else (significand, taken, rest.length + 1)

/-- A power of ten that a double holds. -/
def power (n : Nat) : Float := Float.ofScientific 1 false n

/-- Divides by `10 ^ 308` until the remaining negative power of ten is a double;
zero stays zero. -/
def scaleDown : Nat → Float → Nat → Float
  | 0, x, _ => x
  | budget + 1, x, n =>
    if n ≤ 308 then x / power n
    else if x == 0.0 then x
    else scaleDown budget (x / power 308) (n - 308)

/-- The real `significand · 10 ^ scale`. -/
def realOf (positive : Bool) (significand : Nat) (scale : Int) : Reader Float := do
  let x := Float.ofNat significand
  let size ←
    if 0 ≤ scale then
      if scale ≤ 308 then
        let y := x * power scale.toNat
        if y.isInf then fault .malformed else pure y
      else if x == 0.0 then pure x
      else fault .malformed
    else pure (scaleDown 4 x (-scale).toNat)
  pure (if positive then size else -size)

/-- The largest power of ten that is told apart from a larger one. -/
def largestPower : Nat := 2147483647

/-- The value of digits. -/
def valueOf (ds : List Char) : Nat := ds.foldl (fun n c => n * 10 + (c.toNat - 48)) 0

/-- The power of ten after `e`, and the number it makes. -/
def powerOfTen (positive : Bool) (significand : Nat) (scale : Int) : Reader Float := do
  skip
  let upward ← do
    match ← peek with
    | some '+' => skip; pure true
    | some '-' => skip; pure false
    | _ => pure true
  let cs ← get
  match cs with
  | [] => fault .unfinished
  | _ =>
    let (ds, rest) := spanDigits cs
    set rest
    if ds.isEmpty then fault .malformed
    else
      let e := valueOf ds
      if largestPower < e then
        if significand ≠ 0 && upward then fault .malformed
        else pure (if positive then 0.0 else -0.0)
      else if upward then realOf positive significand (min (scale + e) largestPower)
      else realOf positive significand (max (scale - e) (-largestPower - 1))

/-- The fraction after the point, and the number it makes. -/
def fraction (positive : Bool) (significand : Nat) (scale : Int) : Reader Float := do
  skip
  let (ds, rest) := spanDigits (← get)
  set rest
  if ds.isEmpty then
    match rest with
    | [] => fault .unfinished
    | _ => fault .malformed
  else
    let (value, taken, _) := gather significand 0 ds
    match ← peek with
    | some 'e' | some 'E' => powerOfTen positive value (scale - taken)
    | _ => realOf positive value (scale - taken)

/-- A number, after its sign. -/
def number (positive : Bool) : Reader Numeral := do
  let cs ← get
  match cs with
  | [] => fault .unfinished
  | c :: _ =>
    if (digit? c).isNone then fault .malformed
    else
      let (ds, rest) := spanDigits cs
      if c = '0' && ds.length ≠ 1 then fault .malformed
      else
        set rest
        let (value, _, late) := gather 0 0 ds
        match ← peek with
        | some '.' => .real <$> fraction positive value late
        | some 'e' | some 'E' => .real <$> powerOfTen positive value late
        | _ =>
          if late ≠ 0 then .real <$> realOf positive value late
          else if positive then pure (.natural value)
          else if value = 0 || Nat.pow 2 63 < value then pure (.real (-Float.ofNat value))
          else pure (.negative (-(value : Int)))

/-! ## Strings -/

/-- The value of a hexadecimal digit. -/
def hexValue? (c : Char) : Option Nat :=
  if '0' ≤ c ∧ c ≤ '9' then some (c.toNat - 48)
  else if 'a' ≤ c ∧ c ≤ 'f' then some (c.toNat - 87)
  else if 'A' ≤ c ∧ c ≤ 'F' then some (c.toNat - 55)
  else none

/-- Four hexadecimal digits.  Fewer than four bytes before the end of the text
mean that the text ends too early, whatever they are. -/
def fourHex : List Char → Except Fault (Nat × List Char)
  | a :: b :: c :: d :: rest =>
    match hexValue? a, hexValue? b, hexValue? c, hexValue? d with
    | some a, some b, some c, some d => .ok (((a * 16 + b) * 16 + c) * 16 + d, rest)
    | _, _, _, _ => .error .malformed
  | few =>
    if (few.map Char.utf8Size).foldl (· + ·) 0 < 4 then .error .unfinished else .error .malformed

/-- The character of an escape with a letter. -/
def letterEscape? : Char → Option Char
  | '"' => some '"'
  | '\\' => some '\\'
  | '/' => some '/'
  | 'b' => some '\x08'
  | 'f' => some '\x0c'
  | 'n' => some '\n'
  | 'r' => some '\r'
  | 't' => some '\t'
  | _ => none

/-- The character of a `\u` escape, from the characters after the `u`. -/
def unicodeEscape (cs : List Char) : Except Fault (Char × List Char) := do
  let (high, rest) ← fourHex cs
  if 0xDC00 ≤ high ∧ high ≤ 0xDFFF then .error .malformed
  else if high < 0xD800 ∨ 0xDBFF < high then pure (Char.ofNat high, rest)
  else
    match rest with
    | [] => .error .unfinished
    | ['\\'] => .error .unfinished
    | '\\' :: 'u' :: more =>
      let (low, rest) ← fourHex more
      if low < 0xDC00 ∨ 0xDFFF < low then .error .malformed
      else pure (Char.ofNat (0x10000 + (high - 0xD800) * 0x400 + (low - 0xDC00)), rest)
    | _ => .error .malformed

/-- The characters of a string up to its closing quote, put onto `taken` in reverse order. -/
def stringOnto : Nat → List Char → List Char → Except Fault (List Char × List Char)
  | 0, _, _ => .error .unfinished
  | _ + 1, _, [] => .error .unfinished
  | budget + 1, taken, c :: rest =>
    if c = '"' then .ok (taken, rest)
    else if c = '\\' then
      match rest with
      | [] => .error .unfinished
      | 'u' :: more =>
        match unicodeEscape more with
        | .error f => .error f
        | .ok (d, left) => stringOnto budget (d :: taken) left
      | e :: more =>
        match letterEscape? e with
        | some d => stringOnto budget (d :: taken) more
        | none => .error .malformed
    else if c.toNat < 32 then .error .malformed
    else stringOnto budget (c :: taken) rest

/-- A string after its opening quote. -/
def string : Reader String := fun cs =>
  match stringOnto (cs.length + 1) [] cs with
  | .error f => .error f
  | .ok (taken, rest) => .ok (String.ofList taken.reverse, rest)

/-! ## Skipping -/

/-- Passes over a string after its opening quote.  Surrogate halves are not checked. -/
def passString : Nat → List Char → Except Fault (List Char)
  | 0, _ => .error .unfinished
  | _ + 1, [] => .error .unfinished
  | budget + 1, c :: rest =>
    if c = '"' then .ok rest
    else if c = '\\' then
      match rest with
      | [] => .error .unfinished
      | 'u' :: more =>
        match fourHex more with
        | .error f => .error f
        | .ok (_, left) => passString budget left
      | e :: more => if (letterEscape? e).isSome then passString budget more else .error .malformed
    else if c.toNat < 32 then .error .malformed
    else passString budget rest

/-- Passes over a string after its opening quote. -/
def skipString : Reader Unit := fun cs =>
  (passString (cs.length + 1) cs).map fun rest => ((), rest)

/-- Passes over at least one digit. -/
def skipDigits : Reader Unit := do
  let (ds, rest) := spanDigits (← get)
  set rest
  if ds.isEmpty then fault .malformed else pure ()

/-- Passes over a power of ten, if one follows. -/
def skipPower : Reader Unit := do
  match ← peek with
  | some 'e' | some 'E' =>
    skip
    match ← peek with
    | some '+' | some '-' => skip; skipDigits
    | _ => skipDigits
  | _ => pure ()

/-- Passes over a number, after its sign, of any size. -/
def skipNumber : Reader Unit := do
  let (ds, rest) := spanDigits (← get)
  set rest
  if ds.isEmpty || (ds.head? = some '0' && ds.length ≠ 1) then fault .malformed
  else
    match ← peek with
    | some '.' => skip; skipDigits; skipPower
    | _ => skipPower

mutual

/-- Passes over one value; `budget` bounds the nesting and the number of parts. -/
def skipValue : Nat → Reader Unit
  | 0 => fault .unfinished
  | budget + 1 => do
    match ← peekToken with
    | none => fault .unfinished
    | some 'n' => skip; word "ull".toList
    | some 't' => skip; word "rue".toList
    | some 'f' => skip; word "alse".toList
    | some '-' => skip; skipNumber
    | some '"' => skip; skipString
    | some '[' =>
      skip
      match ← peekToken with
      | none => fault .unfinished
      | some ']' => skip
      | some _ => skipItems budget
    | some '\x7b' =>
      skip
      match ← peekToken with
      | none => fault .unfinished
      | some '\x7d' => skip
      | some _ => skipMembers budget
    | some c => if (digit? c).isSome then skipNumber else fault .malformed

/-- Passes over the items of an array up to its closing bracket. -/
def skipItems : Nat → Reader Unit
  | 0 => fault .unfinished
  | budget + 1 => do
    skipValue budget
    match ← peekToken with
    | none => fault .unfinished
    | some ',' => skip; skipItems budget
    | some ']' => skip
    | some _ => fault .malformed

/-- Passes over the members of an object up to its closing brace. -/
def skipMembers : Nat → Reader Unit
  | 0 => fault .unfinished
  | budget + 1 => do
    match ← peekToken with
    | none => fault .unfinished
    | some '"' =>
      skip
      skipString
      match ← peekToken with
      | none => fault .unfinished
      | some ':' =>
        skip
        skipValue budget
        match ← peekToken with
        | none => fault .unfinished
        | some ',' => skip; skipMembers budget
        | some '\x7d' => skip
        | some _ => fault .malformed
      | some _ => fault .malformed
    | some _ => fault .malformed

end

/-- Passes over one value of any shape. -/
def skipAny : Reader Unit := do skipValue ((← get).length * 2 + 2)

/-! ## Whole values -/

/-- A numeral as a value. -/
def Numeral.value : Numeral → Value
  | .natural n => .integer n
  | .negative n => .integer n
  | .real x => .real x

mutual

/-- One value; `budget` bounds the nesting and the number of parts. -/
def value : Nat → Reader Value
  | 0 => fault .unfinished
  | budget + 1 => do
    match ← peekToken with
    | none => fault .unfinished
    | some 'n' => skip; word "ull".toList; pure .null
    | some 't' => skip; word "rue".toList; pure (.bool true)
    | some 'f' => skip; word "alse".toList; pure (.bool false)
    | some '-' => skip; return (← number false).value
    | some '"' => skip; return .text (← string)
    | some '[' =>
      skip
      match ← peekToken with
      | none => fault .unfinished
      | some ']' => skip; pure (.list [])
      | some _ => return .list (← items budget)
    | some '\x7b' =>
      skip
      match ← peekToken with
      | none => fault .unfinished
      | some '\x7d' => skip; pure (.object [])
      | some _ => return .record (← members budget)
    | some c => if (digit? c).isSome then return (← number true).value else fault .malformed

/-- The items of an array up to its closing bracket. -/
def items : Nat → Reader (List Value)
  | 0 => fault .unfinished
  | budget + 1 => do
    let v ← value budget
    match ← peekToken with
    | none => fault .unfinished
    | some ',' => skip; return v :: (← items budget)
    | some ']' => skip; pure [v]
    | some _ => fault .malformed

/-- The members of an object up to its closing brace. -/
def members : Nat → Reader (List (String × Value))
  | 0 => fault .unfinished
  | budget + 1 => do
    match ← peekToken with
    | none => fault .unfinished
    | some '"' =>
      skip
      let key ← string
      match ← peekToken with
      | none => fault .unfinished
      | some ':' =>
        skip
        let v ← value budget
        match ← peekToken with
        | none => fault .unfinished
        | some ',' => skip; return (key, v) :: (← members budget)
        | some '\x7d' => skip; pure [(key, v)]
        | some _ => fault .malformed
      | some _ => fault .malformed
    | some _ => fault .malformed

end

/-- Demands that nothing but blanks is left. -/
def finish : Reader Unit := do
  match ← peekToken with
  | none => pure ()
  | some _ => fault .malformed

/-- Reads a whole text. -/
def run (r : Reader α) (s : String) : Except Fault α :=
  match (do let a ← r; finish; pure a : Reader α) s.toList with
  | .error f => .error f
  | .ok (a, _) => .ok a

end Reader

/-- The value that a text stands for. -/
def parse (s : String) : Except Fault Value :=
  Reader.run (do Reader.value ((← get).length * 2 + 2)) s

end Backpressure.Json
