import Backpressure.Rate.Requests
import Backpressure.Simulation.Stage

/-!
# Scripts for a limiter

A request that has to wait sleeps until its permit is delivered.  After every
step the permits at hand are looked at, which refills the bucket.
-/

namespace Backpressure.Simulation

/-- A step of a script for a limiter. -/
inductive LimiterStep where
  /-- Takes permits if they are there at once. -/
  | tryAcquire (times : Nat)
  /-- Takes a permit with a wait, in the background if it has a name. -/
  | acquire (wait : Duration) (id : Option String)
  /-- Lets time pass. -/
  | advance (millis : Nat)
  deriving Repr

/-- A limiter with the requests for its permits. -/
structure LimiterDesk where
  /-- The limiter with the requests that sleep. -/
  requests : Rate.Requests Float Duration
  /-- The requests that are done, with their results. -/
  results : List (Nat × Instant × Bool) := []
  /-- The requests in the background, with their names. -/
  named : List (Nat × String) := []

/-- What a step of a script for a limiter gives. -/
inductive LimiterResult where
  | nothing
  /-- Whether each permit was taken. -/
  | taken (each : List Bool)
  /-- Whether the permit was taken. -/
  | acquired (taken : Bool)
  deriving Repr

namespace LimiterDesk

/-- Notes what can be seen. -/
def note (now : Instant) (d : LimiterDesk) : Rate.PermitEvent Duration → LimiterDesk
  | .promised _ _ => d
  | .answered call taken => { d with results := d.results ++ [(call, now, taken)] }

/-- An action, if it can happen. -/
def perform? (now : Instant) (a : Rate.Requests.Action Duration) (d : LimiterDesk) :
    Option LimiterDesk :=
  (d.requests.step .doubles now a).map fun o =>
    o.events.foldl (note now) { d with requests := o.requests }

/-- An action, which happens if it can. -/
def perform (now : Instant) (a : Rate.Requests.Action Duration) (d : LimiterDesk) : LimiterDesk :=
  (d.perform? now a).getD d

/-- A request whose moment has come wakes. -/
def step? (now : Instant) (d : LimiterDesk) : Option LimiterDesk :=
  (d.requests.due? .doubles now).bind fun call => d.perform? now (.resume call)

/-- Sleeping requests wake at their moments. -/
def stage : Stage LimiterDesk where
  step? := step?
  next? := fun d => earliest (d.requests.pending.map (some ·.ready))

/-- The result of a request that is done. -/
def result? (d : LimiterDesk) (call : Nat) : Option Bool := (d.results.lookup call).map (·.2)

/-- Takes permits one after another. -/
def tryAcquire (now : Instant) : Nat → LimiterDesk → List Bool × LimiterDesk
  | 0, d => ([], d)
  | n + 1, d =>
    let call := d.requests.nextCall
    let d := d.perform now .tryAcquire
    let (rest, later) := tryAcquire now n d
    match d.result? call with
    | some taken => (taken :: rest, later)
    | none => (rest, later)

/-- One step of a script. -/
def act (scene : Scene LimiterDesk) : LimiterStep → LimiterResult × Scene LimiterDesk
  | .tryAcquire times =>
    let (taken, state) := tryAcquire scene.now times scene.state
    (.taken taken, { scene with state })
  | .acquire wait (some id) =>
    let call := scene.state.requests.nextCall
    let d := scene.state.perform scene.now (.acquire wait)
    (.nothing, { scene with state := { d with named := d.named ++ [(call, id)] } })
  | .acquire wait none =>
    let call := scene.state.requests.nextCall
    let state := scene.state.perform scene.now (.acquire wait)
    let scene := stage.await (fun d => (d.result? call).isSome) { scene with state }
    match scene.state.result? call with
    | some taken => (.acquired taken, scene)
    | none => (.nothing, scene)
  | .advance ms => (.nothing, stage.advance ms scene)

/-- The results of requests in the background. -/
def doneNow (d : LimiterDesk) : List (Done Bool) :=
  (d.results.filterMap fun (call, moment, taken) =>
    (d.named.lookup call).map fun id => ⟨moment, id, taken⟩).mergeSort Done.before

end LimiterDesk

/-- The answers of a script for a limiter, each with the permits at hand. -/
def runLimiter (permitsPerSecond : Nat) (steps : List LimiterStep) :
    List (Entry LimiterResult Bool × Nat) :=
  let start : Scene LimiterDesk :=
    { state := { requests := .ofRate .doubles permitsPerSecond 0 } }
  perform (fun scene step =>
    let (result, scene) := LimiterDesk.act scene step
    let scene := LimiterDesk.stage.settle scene
    let d := scene.state
    let available := (Rate.Limiter.available d.requests.bucket scene.now).1
    (({ result, now := scene.now, done := d.doneNow }, available),
      { scene with state := { d.perform scene.now .look with results := [] } })) start steps

end Backpressure.Simulation
