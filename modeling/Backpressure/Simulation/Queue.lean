import Backpressure.Json.Value
import Backpressure.Queue.Traffic
import Backpressure.Simulation.Stage

/-!
# Scripts for a queue

The items are JSON values.  An offer or poll without a name runs to its end before
the next step; one with a name goes on in the background.
-/

namespace Backpressure.Simulation

/-- A step of a script for a queue. -/
inductive QueueStep where
  /-- Does something that takes no time. -/
  | act (a : Traffic.Action Json.Value)
  /-- Offers or polls with a wait, in the background if it has a name. -/
  | call (a : Traffic.Action Json.Value) (id : Option String)
  /-- Lets time pass. -/
  | advance (millis : Nat)
  deriving Inhabited

/-- A queue with the calls in the background. -/
structure QueueDesk where
  /-- The queue with those who wait. -/
  traffic : Traffic Json.Value
  /-- The visitors in the background, with their names. -/
  named : List (Ticket × String) := []
  /-- The calls in the background that are done. -/
  done : List (Done (Reply Json.Value)) := []
  /-- The last call in the foreground that ended a wait. -/
  last : Option (Reply Json.Value) := none

/-- What a step of a script for a queue gives. -/
inductive QueueResult where
  | nothing
  /-- The end of an offer or a poll. -/
  | replied (r : Reply Json.Value)
  | drained (items : List Json.Value)
  /-- The number of items thrown away. -/
  | cleared (n : Nat)

namespace QueueDesk

/-- A visitor who can go on now goes on. -/
def step? (now : Instant) (d : QueueDesk) : Option QueueDesk :=
  d.traffic.visitors.findSome? fun v =>
    (d.traffic.resume now v.ticket).map fun (r, traffic) =>
      match d.named.lookup v.ticket with
      | some id => { d with traffic, done := d.done ++ [⟨now, id, r⟩] }
      | none => { d with traffic, last := some r }

/-- What can happen at a queue. -/
def stage : Stage QueueDesk where
  step? := step?
  next? := fun d => earliest (d.traffic.visitors.map (some ·.deadline))

/-- One step of a script. -/
def act (scene : Scene QueueDesk) : QueueStep → QueueResult × Scene QueueDesk
  | .advance ms => (.nothing, stage.advance ms scene)
  | .act a =>
    match scene.state.traffic.step scene.now a with
    | none => (.nothing, scene)
    | some (outcome, traffic) =>
      let scene := { scene with state.traffic := traffic }
      match outcome with
      | .replied r => (.replied r, scene)
      | .drained items => (.drained items, scene)
      | .cleared n => (.cleared n, scene)
      | .waits _ | .silent => (.nothing, scene)
  | .call a id =>
    match scene.state.traffic.step scene.now a with
    | none => (.nothing, scene)
    | some (outcome, traffic) =>
      let scene := { scene with state.traffic := traffic }
      match outcome, id with
      | .replied r, none => (.replied r, scene)
      | .replied r, some id =>
        (.nothing, { scene with state.done := scene.state.done ++ [⟨scene.now, id, r⟩] })
      | .waits t, some id =>
        (.nothing, { scene with state.named := scene.state.named ++ [(t, id)] })
      | .waits _, none =>
        let scene := stage.await (fun d => d.last.isSome) { scene with state.last := none }
        (match scene.state.last with
          | some r => .replied r
          | none => .nothing, scene)
      | _, _ => (.nothing, scene)

end QueueDesk

/-- The answers of a script for a queue, each with the queue after the step. -/
def runQueue (capacity : Nat) (steps : List QueueStep) :
    List (Entry QueueResult (Reply Json.Value) × Queue Json.Value) :=
  let start : Scene QueueDesk := { state := { traffic := { queue := .ofCapacity capacity } } }
  perform (fun scene step =>
    let (result, scene) := QueueDesk.act scene step
    let scene := QueueDesk.stage.settle scene
    let done := scene.state.done.mergeSort Done.before
    (({ result, now := scene.now, done }, scene.state.traffic.queue),
      { scene with state.done := [] })) start steps

end Backpressure.Simulation
