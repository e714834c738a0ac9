import Backpressure.Json.Value
import Backpressure.Time.Timestamp

/-!
# Telemetry items

An item is what a producer hands in, with the time at which it was made.  The time
at which it was written is set once; a second mark is refused.  As long as it is
not set, the text of the item does not mention it.
-/

namespace Backpressure.Telemetry

/-- A telemetry item. -/
structure Item (κ : Type) where
  /-- What the producer handed in. -/
  content : κ
  /-- When the item was made. -/
  createdAt : Timestamp
  /-- When the item was written. -/
  writtenAt : Option Timestamp := none
  deriving Inhabited, BEq, Repr

namespace Item

variable {κ : Type}

/-- Records when the item was written, and tells whether that was news. -/
def markWritten (i : Item κ) (t : Timestamp) : Bool × Item κ :=
  match i.writtenAt with
  | some _ => (false, i)
  | none => (true, { i with writtenAt := some t })

/-- Whether the item was written. -/
def isWritten (i : Item κ) : Bool := i.writtenAt.isSome

/-- The item as a JSON value. -/
def toJson (i : Item Json.Value) : Json.Value :=
  .object ([("content", i.content), ("created_at", .text i.createdAt.text)]
    ++ match i.writtenAt with
      | none => []
      | some t => [("written_at", .text t.text)])

/-- The text of an item. -/
def render (i : Item Json.Value) : String := i.toJson.render

/-- The whole milliseconds from the making of an item to its writing, none if the clock went back. -/
def latency (i : Item κ) : Option Nat :=
  i.writtenAt.map fun t => ((t - i.createdAt).toNat) / Duration.perMilli

end Item

/-- An item whose content may have no JSON form. -/
abbrev Record := Item (Option Json.Value)

/-- The text of a record, if its content has a JSON form. -/
def Record.encode (r : Record) : Option String :=
  r.content.map fun v => Item.render { r with content := v }

end Backpressure.Telemetry
