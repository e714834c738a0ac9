import Backpressure.Decimal.Shortest

/-!
# JSON values and their compact text

A value is what a telemetry item carries and what a configuration is written as.
The compact text has no blanks.  The members of an object stand in the order in
which the value holds them; `Value.record` keeps that order ascending by key and
keeps one member per key.

*Strings.*  A quote and a backslash are preceded by a backslash, five control
characters have a letter, and every other character below the space is written
as four hexadecimal digits.  All other characters stand as they are, so the text
of a value never holds a raw line feed.

*Reals.*  A finite real is written as its shortest decimal, which always has a
point or a power of ten; one that is not finite is written as `null`.
-/

namespace Backpressure.Json

/-- A JSON value. -/
inductive Value where
  /-- The absent value. -/
  | null
  /-- A truth value. -/
  | bool (b : Bool)
  /-- A number written without point and power of ten. -/
  | integer (n : Int)
  /-- Any other number. -/
  | real (x : Float)
  | text (s : String)
  /-- An array. -/
  | list (items : List Value)
  /-- An object, as its members in order. -/
  | object (members : List (String × Value))
  deriving Inhabited, BEq, Repr

/-! ## Strings -/

/-- A hexadecimal digit in lower case. -/
def hexDigit (n : Nat) : Char := Nat.digitChar n

/-- One character of a JSON string. -/
def escapeChar (c : Char) : List Char :=
  if c = '"' then ['\\', '"']
  else if c = '\\' then ['\\', '\\']
  else if c = '\x08' then ['\\', 'b']
  else if c = '\x0c' then ['\\', 'f']
  else if c = '\n' then ['\\', 'n']
  else if c = '\r' then ['\\', 'r']
  else if c = '\t' then ['\\', 't']
  else if c.toNat < 32 then
    ['\\', 'u', '0', '0', hexDigit (c.toNat / 16), hexDigit (c.toNat % 16)]
  else [c]

/-- A JSON string with its quotes. -/
def stringText (s : String) : List Char :=
  '"' :: (s.toList.flatMap escapeChar ++ ['"'])

/-! ## Values -/

/-- A real number; what is not finite has no JSON number and becomes `null`. -/
def realText (x : Float) : List Char :=
  if x.isFinite then (Decimal.text x).toList else "null".toList

mutual

/-- The compact text of a value. -/
def Value.chars : Value → List Char
  | .null => "null".toList
  | .bool true => "true".toList
  | .bool false => "false".toList
  | .integer n => (toString n).toList
  | .real x => realText x
  | .text s => stringText s
  | .list items => '[' :: (itemsText items ++ [']'])
  | .object members => '\x7b' :: (membersText members ++ ['\x7d'])

/-- The items of an array, separated by commas. -/
def itemsText : List Value → List Char
  | [] => []
  | [v] => v.chars
  | v :: w :: rest => v.chars ++ ',' :: itemsText (w :: rest)

/-- The members of an object, separated by commas. -/
def membersText : List (String × Value) → List Char
  | [] => []
  | [(k, v)] => stringText k ++ ':' :: v.chars
  | (k, v) :: m :: rest => stringText k ++ ':' :: (v.chars ++ ',' :: membersText (m :: rest))

end

/-- The compact text of a value. -/
def Value.render (v : Value) : String := String.ofList v.chars

/-! ## Objects with ascending keys -/

/-- Puts a member into a list of members with ascending keys; a member with the same key gives way. -/
def insertMember (key : String) (v : Value) : List (String × Value) → List (String × Value)
  | [] => [(key, v)]
  | (k, w) :: rest =>
    if key < k then (key, v) :: (k, w) :: rest
    else if key = k then (key, v) :: rest
    else (k, w) :: insertMember key v rest

/-- An object whose keys ascend; of members with the same key the last one stays. -/
def Value.record (members : List (String × Value)) : Value :=
  .object (members.foldl (fun acc m => insertMember m.1 m.2 acc) [])

/-- The member of an object under a key. -/
def Value.get? (v : Value) (key : String) : Option Value :=
  match v with
  | .object members => members.lookup key
  | _ => none

example : Value.render (.record [("z", .integer 1), ("a", .list [.null, .text "é\n"])])
    = "\x7b\"a\":[null,\"é\\n\"],\"z\":1\x7d" := by cbv

end Backpressure.Json
