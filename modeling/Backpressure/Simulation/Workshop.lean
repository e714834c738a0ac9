import Backpressure.Poller.Basic
import Backpressure.Simulation.Stage

/-!
# Handling items in a script

The handling of an item is laid down by the item: it takes some time, then passes
a gate if the item says so, and then ends.  The gate lets one item through per
permit, in the order of their arrival at it.
-/

namespace Backpressure.Simulation

/-- An item with the way in which it is handled. -/
structure Job where
  /-- The number of the item. -/
  id : Int
  /-- The milliseconds that the handling takes. -/
  delay : Nat := 0
  how : HandlerEnd := .handled
  /-- Whether the handling passes the gate. -/
  gated : Bool := false
  deriving Repr, Inhabited, DecidableEq

/-- The handling of an item, on record. -/
structure Handling where
  /-- The number of the item. -/
  id : Int
  /-- When it began. -/
  began : Instant
  /-- When it ended, if it has. -/
  ended : Option Instant := none
  deriving Repr, Inhabited

/-- Where the handling of an item stands. -/
inductive JobPoint where
  /-- Taking time. -/
  | busy (ends : Instant)
  | gate
  deriving Repr, DecidableEq

/-- The handling of an item under way. -/
structure Shift where
  /-- Its place on record, which is its ticket at the gate too. -/
  number : Nat
  /-- Who handles the item. -/
  worker : Nat
  /-- The item. -/
  job : Job
  /-- Where it stands. -/
  point : JobPoint
  deriving Repr

/-- All handling of items. -/
structure Workshop where
  /-- What is under way. -/
  shifts : List Shift := []
  gate : Permits := { free := 0 }
  /-- The record, in the order of the beginnings. -/
  record : Array Handling := #[]

namespace Workshop

/-- The handling of an item begins. -/
def begin (w : Workshop) (now : Instant) (worker : Nat) (job : Job) : Workshop :=
  { w with
    shifts := w.shifts ++
      [⟨w.record.size, worker, job, .busy (now.afterWait (Duration.ofMillis job.delay))⟩]
    record := w.record.push { id := job.id, began := now } }

/-- Gives permits to the gate. -/
def release (w : Workshop) (n : Nat) : Workshop := { w with gate := w.gate.release n }

/-- The handling of an item has ended. -/
def finish (w : Workshop) (now : Instant) (s : Shift) : Workshop :=
  { w with
    shifts := w.shifts.filter (·.number != s.number)
    record := w.record.modify s.number fun h => { h with ended := some now } }

/-- Moves one item on: gives the handling that has ended, if it was that. -/
def moveOn (w : Workshop) (now : Instant) (s : Shift) : Option (Option Shift × Workshop) :=
  match s.point with
  | .busy ends =>
    if ends ≤ now then
      if s.job.gated then
        match w.gate.tryTake with
        | some gate => some (some s, { w with gate }.finish now s)
        | none =>
          some (none, { w with
            gate := w.gate.enroll s.number
            shifts := w.shifts.map fun t => if t.number == s.number then { t with point := .gate } else t })
      else some (some s, w.finish now s)
    else none
  | .gate =>
    match w.gate.resume s.number with
    | .served gate => some (some s, { w with gate }.finish now s)
    | .refused _ | .pending => none

/-- Moves the first item on that can move. -/
def step? (w : Workshop) (now : Instant) : Option (Option Shift × Workshop) :=
  w.shifts.findSome? fun s => w.moveOn now s

/-- The next moment at which an item can move. -/
def next? (w : Workshop) : Option Instant :=
  earliest (w.shifts.map fun s => match s.point with
    | .busy ends => some ends
    | .gate => none)

end Workshop

end Backpressure.Simulation

namespace Backpressure.Poller

variable {α : Type}

/-- What a poller can do by itself now.  Chance spreads no sleep. -/
def onward (s : PollerSettings) (now : Instant) (p : Poller α) (b : Bench α) : Option (Outcome α) :=
  match p.worker.place with
  | .between false => p.turn s now 1.0 b
  | .inside (.polling _ _) => (p.look s now 1.0 b).or (p.quit b)
  | .inside (.idling _ _) => (p.quit b).or <| (p.wake s b).or (p.rise s now b)
  | .leaving _ .next => p.drain b
  | _ => none

/-- What a poller that stepped aside can do now. -/
def onwardAside (s : PollerSettings) (now : Instant) (p : Poller α) (b : Bench α) :
    Option (Outcome α) :=
  match p.worker.place with
  | .between true => p.turn s now 1.0 b
  | _ => none

end Backpressure.Poller
