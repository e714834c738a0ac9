import Backpressure.Rate.Counter
import Backpressure.Rate.Throttle
import Backpressure.Scaling.Policy
import Backpressure.Simulation.Stage
import Backpressure.Telemetry.Item

/-!
# Scripts for components that never wait

Items, counters, throttled triggers and policies only look at the clock.  Their
scripts move it and call the component.
-/

namespace Backpressure.Simulation

/-! ## Items -/

/-- A step of a script for an item. -/
inductive ItemStep where
  /-- Lets time pass. -/
  | advance (millis : Nat)
  /-- Marks the item as written some nanoseconds after it was made. -/
  | mark (nanos : Int)
  /-- Marks the item as written now. -/
  | markNow
  /-- Goes on with a copy. -/
  | copy
  /-- Asks for the text of the item. -/
  | render
  deriving Repr

/-- What a step of a script for an item gives. -/
inductive ItemResult where
  | nothing
  /-- Whether the mark was news. -/
  | marked (fresh : Bool)
  /-- The text of the item. -/
  | text (s : String)
  deriving Repr

/-- The answers of a script for an item made at the start: each result, and whether the item is
written. -/
def runItem (clock : WallClock) (content : Json.Value) (steps : List ItemStep) :
    List (ItemResult × Bool) :=
  let start : Instant × Telemetry.Item Json.Value := (0, { content, createdAt := clock.at 0 })
  perform (fun (now, item) step =>
    let (r, now, item) : ItemResult × Instant × Telemetry.Item Json.Value := match step with
      | .advance ms => (.nothing, now + Duration.ofMillis ms, item)
      | .mark ns =>
        let (fresh, item) := item.markWritten (item.createdAt + ns)
        (.marked fresh, now, item)
      | .markNow =>
        let (fresh, item) := item.markWritten (clock.at now)
        (.marked fresh, now, item)
      | .copy => (.nothing, now, item)
      | .render => (.text item.render, now, item)
    ((r, item.isWritten), now, item)) start steps

/-! ## Counters -/

/-- A step of a script for a counter; without a second, the present one is meant. -/
inductive CounterStep where
  /-- Counts events. -/
  | increment (second : Option Nat) (times : Nat)
  /-- Counts events below a cap. -/
  | tryIncrement (second : Option Nat) (cap : Nat) (times : Nat)
  /-- Asks for the count of a second. -/
  | countAt (second : Nat)
  /-- Asks for the counts of some seconds. -/
  | window (second : Option Nat) (seconds : Nat)
  /-- Asks for the place of the present second. -/
  | slot
  /-- Lets time pass. -/
  | advance (millis : Nat)
  deriving Repr

/-- What a step of a script for a counter gives. -/
inductive CounterResult where
  /-- A number, if there is one. -/
  | number (n : Option Nat)
  /-- The outcome of an event with a cap. -/
  | added (a : Rate.Added)
  /-- Counts of some seconds. -/
  | window (w : Rate.WindowStats)
  deriving Repr

/-- Counts an event a number of times; the last outcome is given. -/
def repeatAdd (second cap : Nat) : Nat → Rate.Counter → Rate.Added × Rate.Counter
  | 0, c => (.refused 0, c)
  | 1, c => c.add second cap
  | n + 2, c => repeatAdd second cap (n + 1) (c.add second cap).2

/-- The answers of a script for a counter. -/
def runCounter (clock : WallClock) (counter : Rate.Counter) (steps : List CounterStep) :
    List CounterResult :=
  let start : Instant × Rate.Counter := (0, counter)
  perform (fun (now, c) step =>
    let present := (clock.at now).epochSecond
    match step with
    | .increment second times =>
      let (a, c) := repeatAdd (second.getD present) Rate.largestCount times c
      let n := match second with
        | some _ => a.count?
        | none => some (a.count?.getD 0)
      (.number n, now, c)
    | .tryIncrement second cap times =>
      let (a, c) := repeatAdd (second.getD present) cap times c
      (.added a, now, c)
    | .countAt second => (.number (some (c.countAt second)), now, c)
    | .window second seconds => (.window (c.windowAt (second.getD present) seconds), now, c)
    | .slot => (.number (some (c.slot present)), now, c)
    | .advance ms =>
      let now := now + Duration.ofMillis ms
      (.number (some (Duration.wholeMillis now)), now, c)) start steps

/-! ## Throttled triggers -/

/-- A step of a script for a throttled trigger. -/
inductive ThrottleStep where
  /-- Turns the switch on. -/
  | enable
  /-- Turns the switch off. -/
  | disable
  /-- Pulls the trigger. -/
  | trigger
  /-- Lets time pass. -/
  | advance (millis : Nat)
  deriving Repr

/-- What can be seen of a throttled trigger. -/
structure ThrottleView where
  /-- Whether the switch is on. -/
  enabled : Bool
  /-- The wall-clock time of the last firing, if the script ran by this clock. -/
  lastFiredAt : WallClock → Option Timestamp

/-- The answers of a script for a throttled trigger: whether it fired, if it was
pulled, the moment, and the trigger after the step.  The script does not name its
wall clock, so the trigger is run by every clock. -/
def runThrottle (throttle : Rate.Throttle) (steps : List ThrottleStep) :
    List (Option Bool × Instant × ThrottleView) :=
  let start : Instant × (WallClock → Rate.Throttle) := (0, fun _ => throttle)
  perform (fun (now, t) step =>
    let (r, now, t) : Option Bool × Instant × (WallClock → Rate.Throttle) := match step with
      | .enable => (none, now, fun clock => (t clock).enable)
      | .disable => (none, now, fun clock => (t clock).disable)
      | .trigger => (some ((t ⟨0⟩).isDue now), now, fun clock => ((t clock).trigger clock now).2)
      | .advance ms => (none, now + Duration.ofMillis ms, t)
    let view : ThrottleView :=
      { enabled := (t ⟨0⟩).enabled, lastFiredAt := fun clock => (t clock).lastFiredAt }
    ((r, now, view), now, t)) start steps

/-! ## Policies -/

/-- The decisions of a policy on observations in order. -/
def runPolicy (policy : Scaling.Policy) (observations : List Scaling.Observation) :
    List Scaling.Decision :=
  perform (fun p o => p.evaluate o) policy observations

end Backpressure.Simulation
