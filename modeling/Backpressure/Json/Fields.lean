import Backpressure.Json.Reader
import Backpressure.Time.Duration

/-!
# Reading a JSON text into a record

A record type is described once, by the list of its fields in declared order.
Each field knows its key, how to read its value into a record, and how to write
it.  From the list come both directions: `readRecord` and `writeRecord`.

*Objects.*  A member whose key is no field is passed over, whatever its value.
A key that is given twice is a mismatch, and it is one before the second value is
looked at.  A field without a member keeps the value of the start record, unless
every field is required.

*Arrays.*  The items are the fields in declared order.  Missing items at the end
are treated as missing members; an item too many is a fault of the text.

*Single values.*  A value of the wrong kind is a mismatch.  A number, string or
word is read to its end first, so a fault inside it comes before the mismatch; an
array or object is a mismatch at its bracket.
-/

namespace Backpressure.Json

namespace Reader

variable {α : Type}

/-- Passes over a value of the wrong kind as far as it has to be read, and reports the mismatch. -/
def wrongKind : Reader α := do
  match ← peekToken with
  | none => fault .unfinished
  | some 'n' => skip; word "ull".toList; fault .mismatched
  | some 't' => skip; word "rue".toList; fault .mismatched
  | some 'f' => skip; word "alse".toList; fault .mismatched
  | some '-' => skip; let _ ← number false; fault .mismatched
  | some '"' => skip; let _ ← string; fault .mismatched
  | some '[' | some '\x7b' => fault .mismatched
  | some c =>
    if (digit? c).isSome then do
      let _ ← number true
      fault .mismatched
    else fault .malformed

/-- A numeral at the front, or the report that there is none. -/
def numeral : Reader Numeral := do
  match ← peekToken with
  | some '-' => skip; number false
  | some c => if (digit? c).isSome then number true else wrongKind
  | none => fault .unfinished

/-- A natural number below a bound. -/
def natural (bound : Nat) : Reader Nat := do
  match ← numeral with
  | .natural n => if n < bound then pure n else fault .mismatched
  | .negative _ | .real _ => fault .mismatched

/-- A real number; an integer counts as one. -/
def realNumber : Reader Float := do
  match ← numeral with
  | .natural n => pure (Float.ofNat n)
  | .negative n => pure (Float.ofInt n)
  | .real x => pure x

/-- A string value. -/
def textValue : Reader String := do
  match ← peekToken with
  | some '"' => skip; string
  | _ => wrongKind

/-- A string value, or `null` for none. -/
def optionalText : Reader (Option String) := do
  match ← peekToken with
  | some 'n' => skip; word "ull".toList; pure none
  | _ => return some (← textValue)

/-- The colon after a key. -/
def colon : Reader Unit := do
  match ← peekToken with
  | none => fault .unfinished
  | some ':' => skip
  | some _ => fault .malformed

/-- One of several words, written as a string, or as an object whose only key is
the word and whose value is `null`. -/
def oneOf (words : List (String × α)) : Reader α := do
  let pick (key : String) : Reader α :=
    match words.lookup key with
    | some a => pure a
    | none => fault .mismatched
  match ← peekToken with
  | none => fault .unfinished
  | some '"' => skip; pick (← string)
  | some '\x7b' =>
    skip
    let a ← pick (← textValue)
    colon
    match ← peekToken with
    | some 'n' =>
      skip
      word "ull".toList
      match ← peekToken with
      | none => fault .unfinished
      | some '\x7d' => skip; pure a
      | some _ => fault .malformed
    | _ => wrongKind
  | some _ => fault .malformed

end Reader

/-- One field of a record type. -/
structure Field (σ : Type) where
  /-- The key of the field. -/
  key : String
  /-- Reads a value and puts it into a record. -/
  read : σ → Reader σ
  /-- The value that a record has in this field. -/
  write : σ → Value

namespace Field

variable {σ : Type}

/-- A string field. -/
def text (key : String) (get : σ → String) (put : σ → String → σ) : Field σ where
  key
  read := fun s => return put s (← Reader.textValue)
  write := fun s => .text (get s)

/-- A field with a natural number below a bound. -/
def natural (key : String) (bound : Nat) (get : σ → Nat) (put : σ → Nat → σ) : Field σ where
  key
  read := fun s => return put s (← Reader.natural bound)
  write := fun s => .integer (get s)

/-- A field with a real number. -/
def real (key : String) (get : σ → Float) (put : σ → Float → σ) : Field σ where
  key
  read := fun s => return put s (← Reader.realNumber)
  write := fun s => .real (get s)

/-- A length of time, in whole milliseconds of a 64-bit word. -/
def duration (key : String) (get : σ → Duration) (put : σ → Duration → σ) : Field σ where
  key
  read := fun s => return put s (Duration.ofMillis (← Reader.natural (Nat.pow 2 64)))
  write := fun s => .integer (Duration.millisWord (get s))

/-- A string that may be absent. -/
def optionalText (key : String) (get : σ → Option String) (put : σ → Option String → σ) :
    Field σ where
  key
  read := fun s => return put s (← Reader.optionalText)
  write := fun s => match get s with
    | none => .null
    | some t => .text t

end Field

section Records

variable {σ : Type}

/-- The members of an object, after its opening brace or a comma, up to its
closing brace; gives the keys of the fields that were read as well. -/
def readMembers (fields : List (Field σ)) : Nat → List String → σ → Reader (List String × σ)
  | 0, _, _ => Reader.fault .unfinished
  | budget + 1, seen, s => do
    match ← Reader.peekToken with
    | none => Reader.fault .unfinished
    | some '"' =>
      Reader.skip
      let key ← Reader.string
      let (seen, s) ← match fields.find? (fun f => f.key == key) with
        | none => do
          Reader.colon
          Reader.skipAny
          pure (seen, s)
        | some f =>
          if seen.contains key then Reader.fault .mismatched
          else do
            Reader.colon
            let s ← f.read s
            pure (key :: seen, s)
      match ← Reader.peekToken with
      | none => Reader.fault .unfinished
      | some ',' => Reader.skip; readMembers fields budget seen s
      | some '\x7d' => Reader.skip; pure (seen, s)
      | some _ => Reader.fault .malformed
    | some _ => Reader.fault .malformed

/-- The items of an array after its opening bracket, each into the next field;
`first` tells that no comma is needed.  Gives the fields that are left. -/
def readItems : List (Field σ) → Bool → σ → Reader (List (Field σ) × σ)
  | [], _, s => pure ([], s)
  | f :: rest, first, s => do
    match ← Reader.peekToken with
    | none => Reader.fault .unfinished
    | some ']' => pure (f :: rest, s)
    | some c =>
      if first then
        let s ← f.read s
        readItems rest false s
      else if c = ',' then
        Reader.skip
        match ← Reader.peekToken with
        | none => Reader.fault .unfinished
        | some ']' => Reader.fault .malformed
        | some _ =>
          let s ← f.read s
          readItems rest false s
      else Reader.fault .malformed

/-- A record read from an object or an array onto a start record.  With
`required`, a missing field is a mismatch. -/
def readRecord (fields : List (Field σ)) (required : Bool) (start : σ) : Reader σ := do
  match ← Reader.peekToken with
  | none => Reader.fault .unfinished
  | some '[' =>
    Reader.skip
    let (left, s) ← readItems fields true start
    if required && !left.isEmpty then Reader.fault .mismatched
    else
      match ← Reader.peekToken with
      | none => Reader.fault .unfinished
      | some ']' => Reader.skip; pure s
      | some _ => Reader.fault .malformed
  | some '\x7b' =>
    Reader.skip
    let (seen, s) ← match ← Reader.peekToken with
      | some '\x7d' => do Reader.skip; pure ([], start)
      | _ => do readMembers fields ((← get).length + 1) [] start
    if required && fields.any (fun f => !seen.contains f.key) then Reader.fault .mismatched
    else pure s
  | some _ => Reader.wrongKind

/-- The object of a record, with the fields in declared order. -/
def writeRecord (fields : List (Field σ)) (s : σ) : Value :=
  .object (fields.map fun f => (f.key, f.write s))

/-- A field that is a record itself; what it does not mention stays as it was. -/
def Field.record {τ : Type} (key : String) (fields : List (Field τ)) (get : σ → τ)
    (put : σ → τ → σ) : Field σ where
  key
  read := fun s => return put s (← readRecord fields false (get s))
  write := fun s => writeRecord fields (get s)

end Records

end Backpressure.Json
