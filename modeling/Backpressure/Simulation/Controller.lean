import Backpressure.Rate.Calls
import Backpressure.Simulation.Stage

/-!
# Scripts for a rate controller

The call behind the controller is laid down by the script: it takes some time and
then gives its number, or fails.
-/

namespace Backpressure.Simulation

/-- How the call behind a controller goes. -/
structure CallPlan where
  /-- The time that the attempt gives to the call. -/
  limit : Duration
  /-- The milliseconds that the call takes. -/
  delay : Nat := 0
  /-- The error that the call ends with, if it fails. -/
  fails : Option CallError := none
  deriving Repr

/-- A step of a script for a controller. -/
inductive ControllerStep where
  /-- Attempts calls: one after another, or side by side in the background if they have a name. -/
  | call (plan : CallPlan) (times : Nat) (id : Option String)
  /-- Admits calls again. -/
  | enable
  /-- Refuses every call. -/
  | disable
  /-- Asks for the admissions of some seconds. -/
  | window (seconds : Nat)
  /-- Lets time pass. -/
  | advance (millis : Nat)
  deriving Repr

/-- The result of an attempt. -/
abbrev CallResult := Except CallError Nat

/-- A controller with the calls behind it, under way. -/
structure ControllerDesk where
  /-- The controller with its calls. -/
  calls : Rate.Calls Nat
  clock : WallClock
  /-- The number of calls made. -/
  invoked : Nat := 0
  /-- The time given to each call since the last answer. -/
  budgets : List Duration := []
  /-- The attempts that are done, with their results. -/
  results : List (Nat × Instant × CallResult) := []
  /-- The attempts in the background, with their names. -/
  named : List (Nat × String) := []

namespace ControllerDesk

/-- Notes what can be seen. -/
def note (now : Instant) (d : ControllerDesk) : Rate.CallEvent Nat → ControllerDesk
  | .invoked _ limit => { d with invoked := d.invoked + 1, budgets := d.budgets ++ [limit] }
  | .answered attempt r => { d with results := d.results ++ [(attempt, now, r)] }

/-- An action, if it can happen. -/
def perform? (now : Instant) (a : Rate.Calls.Action Nat) (d : ControllerDesk) :
    Option ControllerDesk :=
  (d.calls.step d.clock now a).map fun o => o.events.foldl (note now) { d with calls := o.calls }

/-- An action, which happens if it can. -/
def perform (now : Instant) (a : Rate.Calls.Action Nat) (d : ControllerDesk) : ControllerDesk :=
  (d.perform? now a).getD d

/-- A call ends, or an attempt is cancelled at its deadline; calls that end now come first. -/
def step? (now : Instant) (d : ControllerDesk) : Option ControllerDesk :=
  (d.calls.due? now).bind fun attempt => d.perform? now (.resume attempt)

/-- What can happen behind a controller. -/
def stage : Stage ControllerDesk where
  step? := step?
  next? := fun d => earliest d.calls.deadlines

/-- The call that a plan lays down, as the `n`-th one. -/
def planned (now : Instant) (plan : CallPlan) (n : Nat) : Rate.CallPlan Nat where
  lasts := some (now.afterWait (Duration.ofMillis plan.delay) - now)
  result := match plan.fails with
    | some e => .error e
    | none => .ok n

/-- Starts an attempt. -/
def begin (now : Instant) (plan : CallPlan) (d : ControllerDesk) : Nat × ControllerDesk :=
  (d.calls.nextAttempt,
    d.perform now (.attempt plan.limit (planned now plan (d.invoked + 1))))

/-- The result of an attempt that is done. -/
def result? (d : ControllerDesk) (attempt : Nat) : Option CallResult :=
  (d.results.lookup attempt).map (·.2)

/-- Attempts one after another, each up to its result. -/
def attemptAll (plan : CallPlan) : Nat → Scene ControllerDesk → List CallResult × Scene ControllerDesk
  | 0, scene => ([], scene)
  | n + 1, scene =>
    let (attempt, state) := scene.state.begin scene.now plan
    let scene := stage.await (fun d => (d.result? attempt).isSome) { scene with state }
    let (rest, later) := attemptAll plan n scene
    match scene.state.result? attempt with
    | some r => (r :: rest, later)
    | none => (rest, later)

/-- Starts attempts side by side under one name. -/
def beginAll (now : Instant) (plan : CallPlan) (id : String) : Nat → ControllerDesk → ControllerDesk
  | 0, d => d
  | n + 1, d =>
    let (attempt, d) := d.begin now plan
    beginAll now plan id n { d with named := d.named ++ [(attempt, id)] }

end ControllerDesk

/-- What a step of a script for a controller gives. -/
inductive ControllerResult where
  | nothing
  /-- The results of attempts. -/
  | results (each : List CallResult)
  /-- The number of attempts that go on in the background. -/
  | begun (times : Nat)
  /-- The admissions of some seconds. -/
  | window (w : Rate.WindowStats)

/-- The answer to a step of a script for a controller. -/
structure ControllerEntry where
  /-- The result, the moment, and what was done in the background. -/
  entry : Entry ControllerResult CallResult
  /-- The counts of outcomes. -/
  stats : Rate.ControllerStats
  /-- Whether calls are admitted. -/
  enabled : Bool
  /-- The number of calls made. -/
  invoked : Nat
  /-- The time given to each call since the last answer. -/
  budgets : List Duration

namespace ControllerDesk

/-- One step of a script. -/
def act (scene : Scene ControllerDesk) : ControllerStep → ControllerResult × Scene ControllerDesk
  | .call plan times none =>
    let (each, scene) := attemptAll plan times scene
    (.results each, scene)
  | .call plan times (some id) =>
    (.begun times, { scene with state := scene.state.beginAll scene.now plan id times })
  | .enable => (.nothing, { scene with state := scene.state.perform scene.now .enable })
  | .disable => (.nothing, { scene with state := scene.state.perform scene.now .disable })
  | .window seconds =>
    (.window (scene.state.calls.controller.windowStats scene.state.clock scene.now seconds), scene)
  | .advance ms => (.nothing, stage.advance ms scene)

/-- The results of attempts in the background. -/
def doneNow (d : ControllerDesk) : List (Done CallResult) :=
  (d.results.filterMap fun (attempt, moment, r) =>
    (d.named.lookup attempt).map fun id => ⟨moment, id, r⟩).mergeSort Done.before

end ControllerDesk

/-- The answers of a script for a controller. -/
def runController (clock : WallClock) (settings : RateSettings) (steps : List ControllerStep) :
    List ControllerEntry :=
  let start : Scene ControllerDesk := { state := { calls := .ofSettings settings, clock } }
  Simulation.perform (fun scene step =>
    let (result, scene) := ControllerDesk.act scene step
    let scene := ControllerDesk.stage.settle scene
    let d := scene.state
    ({ entry := { result, now := scene.now, done := d.doneNow }
       stats := d.calls.controller.stats
       enabled := d.calls.controller.switch.enabled
       invoked := d.invoked
       budgets := d.budgets },
      { scene with state := { d with results := [], budgets := [] } })) start steps

end Backpressure.Simulation
