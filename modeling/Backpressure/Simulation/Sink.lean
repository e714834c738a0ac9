import Backpressure.Simulation.Store
import Backpressure.Sink.Machine

/-!
# Scripts for a sink

The writer and the alerter are laid down by the script.  An alert takes some time
and may be given up; without an alerter it takes none and leaves no trace.

Several contents in one step are offered one after the other, each as soon as the
offer before it has ended.
-/

namespace Backpressure.Simulation

/-- Several offers of a script. -/
structure Offers where
  permitWait : Duration := 0
  /-- The wait for a place in the buffer. -/
  slotWait : Duration := 0
  /-- Whether a record may be dropped. -/
  mayDrop : Bool := false
  deriving Repr

/-- A step of a script for a sink. -/
inductive SinkStep where
  /-- Offers contents one after the other, in the background if it has a name. -/
  | offer (contents : List (Option Json.Value)) (how : Offers) (id : Option String)
  /-- Shuts the sink down, in the background if it has a name. -/
  | shutDown (reason : String) (id : Option String)
  /-- Asks for a flush. -/
  | flush
  /-- Switches the sink on. -/
  | enable
  /-- Switches the sink off. -/
  | disable
  /-- Lets time pass. -/
  | advance (millis : Nat)
  deriving Repr

/-- The end of a call to a sink. -/
inductive SinkCallResult where
  /-- What each offer came to. -/
  | offered (each : List (Except CallError Bool))
  /-- Whether the call brought the sink down. -/
  | shutDown (initiated : Bool)

/-- A line of the log of a sink. -/
inductive SinkNote where
  /-- Of the writer. -/
  | store (n : StoreNote)
  /-- An alert begins. -/
  | alert (subject body : String)
  /-- An alert has been sent. -/
  | alerted
  deriving Repr

/-- Contents that are offered one after the other. -/
structure Row where
  /-- The offer that is under way. -/
  call : CallId
  /-- The name of the step, if it runs in the background. -/
  id : Option String
  /-- How they are offered. -/
  how : Offers
  /-- The contents that come later. -/
  rest : List (Option Json.Value)
  /-- What each offer so far came to, in reverse order. -/
  results : List (Except CallError Bool)

/-- What the flush worker waits for. -/
inductive Outside where
  /-- The writer. -/
  | store (job : StoreJob)
  | alert
  deriving Repr

/-- A sink with its surroundings. -/
structure SinkDesk where
  clock : WallClock
  sink : Sink
  /-- The writer. -/
  store : Store
  /-- The milliseconds that an alert takes, if there is an alerter. -/
  alertDelay : Option Nat
  /-- What the flush worker waits for, and when that comes to its end. -/
  outside : Option (Instant × Outside) := none
  /-- The log since the last answer. -/
  log : List (Instant × SinkNote) := []
  /-- The number of lines that were seen before. -/
  seen : Nat := 0
  /-- The offers that wait. -/
  rows : List Row := []
  /-- The shutdowns in the background, with their names. -/
  named : List (CallId × String) := []
  /-- The calls in the background that are done. -/
  done : List (Done SinkCallResult) := []
  /-- The end of the call in the foreground. -/
  last : Option SinkCallResult := none

namespace SinkDesk

/-- Writes into the log. -/
def note (d : SinkDesk) (now : Instant) (n : SinkNote) : SinkDesk :=
  { d with log := d.log ++ [(now, n)] }

/-- Something outside begins that takes some milliseconds. -/
def occupy (d : SinkDesk) (now : Instant) (millis : Nat) (o : Outside) : SinkDesk :=
  { d with outside := some (now.afterWait (Duration.ofMillis millis), o) }

/-- Takes note of what could be seen, the ends of calls apart. -/
def watch (now : Instant) (d : SinkDesk) : SinkEvent → SinkDesk
  | .asked request =>
    let turn := d.store.ask request
    let d := match turn.note with
      | some n => d.note now (.store n)
      | none => d
    { d with store := turn.store }.occupy now turn.job.delay (.store turn.job)
  | .alerted subject body =>
    match d.alertDelay with
    | some delay => (d.note now (.alert subject body)).occupy now delay .alert
    | none => d.occupy now 0 .alert
  | .abandoned => { d with outside := none }
  | .accepted _ | .served _ | .discarded _ | .answered _ _ => d

/-- The end of a call, in the foreground or the background. -/
def finish (d : SinkDesk) (now : Instant) (id : Option String) (r : SinkCallResult) : SinkDesk :=
  match id with
  | some id => { d with done := d.done ++ [⟨now, id, r⟩] }
  | none => { d with last := some r }

/-- The first call that has ended, with its end. -/
def firstAnswer : List SinkEvent → Option (CallId × SinkAnswer)
  | [] => none
  | .answered call a :: _ => some (call, a)
  | _ :: rest => firstAnswer rest

/-- The desk after the sink did something, with the call that has ended by it. -/
def apply (now : Instant) (d : SinkDesk) (o : SinkOutcome) :
    SinkDesk × Option (CallId × SinkAnswer) :=
  (o.events.foldl (watch now) { d with sink := o.sink }, firstAnswer o.events)

/-- Offers contents one after the other, up to the first offer that waits. -/
def offerOn (now : Instant) (id : Option String) (how : Offers) :
    List (Option Json.Value) → List (Except CallError Bool) → SinkDesk → SinkDesk
  | [], results, d => d.finish now id (.offered results.reverse)
  | content :: rest, results, d =>
    let call := d.sink.nextCall
    match d.sink.step d.clock now (.offer content how.permitWait how.slotWait how.mayDrop) with
    | none => d
    | some o =>
      match d.apply now o with
      | (d, some (_, .offered r)) => offerOn now id how rest (r :: results) d
      | (d, _) => { d with rows := d.rows ++ [{ call, id, how, rest, results }] }

/-- The desk after a call has ended. -/
def settleCall (now : Instant) (d : SinkDesk) : Option (CallId × SinkAnswer) → SinkDesk
  | none => d
  | some (call, .offered r) =>
    match d.rows.find? (·.call == call) with
    | none => d
    | some row =>
      { d with rows := d.rows.filter (·.call != call) }.offerOn now row.id row.how row.rest
        (r :: row.results)
  | some (call, .shutDown initiated) =>
    d.finish now (d.named.lookup call) (.shutDown initiated)

/-- The desk after the sink did something. -/
def follow (now : Instant) (d : SinkDesk) (o : SinkOutcome) : SinkDesk :=
  let (d, ended) := d.apply now o
  d.settleCall now ended

/-- The desk after an action of the sink, if it can happen. -/
def act? (now : Instant) (d : SinkDesk) (a : Sink.Action) : Option SinkDesk :=
  (d.sink.step d.clock now a).map (d.follow now)

/-- The writer or an alert comes to its end. -/
def outsideStep? (now : Instant) (d : SinkDesk) : Option SinkDesk :=
  match d.outside with
  | none => none
  | some (ends, o) =>
    if now < ends then none
    else
      let d := { d with outside := none }
      match o with
      | .store job => { d with store := job.after }.act? now (.worker (.reply job.reply))
      | .alert =>
        let d := if d.alertDelay.isSome then d.note now .alerted else d
        d.act? now (.worker .alertDone)

/-- What the flush worker can do by itself now, in the order in which it is tried. -/
def workerActions (aside : Bool) (s : Sink) : List Sink.FlushAction :=
  match s.worker.place with
  | .between waits => if waits == aside then [.turn] else []
  | .inside (.waiting _) => if aside then [] else [.quit, .notice, .tick]
  | .leaving _ .start => if aside then [] else [.leave]
  | .inside _ | .leaving _ _ => if aside then [] else [.runOut]
  | _ => []

/-- The flush worker goes on, if it stepped aside or not. -/
def workerStep? (now : Instant) (aside : Bool) (d : SinkDesk) : Option SinkDesk :=
  (workerActions aside d.sink).findSome? fun a => d.act? now (.worker a)

/-- A call that waits goes on. -/
def callStep? (now : Instant) (d : SinkDesk) : Option SinkDesk :=
  d.sink.calls.findSome? fun (call, _) => d.act? now (.resume call)

/-- Writer and alerts, then the flush worker, then calls; then a worker that stepped aside. -/
def step? (now : Instant) (d : SinkDesk) : Option SinkDesk :=
  (d.outsideStep? now).or <| (d.workerStep? now false).or <| (d.callStep? now).or <|
    d.workerStep? now true

/-- Whether a call is in the foreground. -/
def isForeground (d : SinkDesk) (call : CallId) : Bool :=
  (d.named.lookup call).isNone && d.rows.all fun r => r.call != call || r.id.isNone

/-- A call in the foreground whose wait ends now goes on. -/
def arrive (now : Instant) (d : SinkDesk) : SinkDesk :=
  (d.sink.calls.findSome? fun (call, errand) =>
    if d.isForeground call && errand.deadline ≤ now then d.act? now (.resume call) else none).getD d

/-- What can happen at the desk of a sink. -/
def stage : Stage SinkDesk where
  step? := step?
  next? := fun d => earlier (d.outside.map (·.1)) (earliest (d.sink.deadlines.map some))
  arrive := arrive

/-- Runs until the call in the foreground has ended. -/
def awaitLast (scene : Scene SinkDesk) : Option SinkCallResult × Scene SinkDesk :=
  let scene := stage.await (fun d => d.last.isSome) scene
  (scene.state.last, scene)

/-- One step of a script. -/
def act (scene : Scene SinkDesk) : SinkStep → Option SinkCallResult × Scene SinkDesk
  | .offer contents how id =>
    let d := { scene.state with last := none }
    let scene := { scene with state := d.offerOn scene.now id how contents [] }
    if id.isSome then (none, scene) else awaitLast scene
  | .shutDown reason id =>
    let d := { scene.state with last := none }
    let d := match id with
      | some id => { d with named := d.named ++ [(d.sink.nextCall, id)] }
      | none => d
    let scene := { scene with state := (d.act? scene.now (.shutDown reason)).getD d }
    if id.isSome then (none, scene) else awaitLast scene
  | .flush => (none, { scene with state := (scene.state.act? scene.now .flush).getD scene.state })
  | .enable => (none, { scene with state := (scene.state.act? scene.now .enable).getD scene.state })
  | .disable => (none, { scene with state := (scene.state.act? scene.now .disable).getD scene.state })
  | .advance ms => (none, stage.advance ms scene)

end SinkDesk

/-- The answer to a step of a script for a sink. -/
structure SinkEntry where
  /-- The result, the moment, and what was done in the background. -/
  entry : Entry (Option SinkCallResult) SinkCallResult
  /-- The sink after the step. -/
  sink : Sink
  /-- The lines that can be seen and could not be seen before. -/
  lines : List String
  /-- The new lines of the log. -/
  log : List (Instant × SinkNote)

/-- The answers of a script for a sink. -/
def runSink (desk : SinkDesk) (steps : List SinkStep) : List SinkEntry :=
  let start : Scene SinkDesk := { state := desk }
  perform (fun scene step =>
    let (result, scene) := SinkDesk.act scene step
    let scene := SinkDesk.stage.settle scene
    let d := scene.state
    let lines := d.store.lines
    (({ entry := { result, now := scene.now, done := d.done.mergeSort Done.before }
        sink := d.sink
        lines := lines.drop d.seen
        log := d.log } : SinkEntry),
      { scene with state := { d with log := [], done := [], seen := lines.length } })) start steps

end Backpressure.Simulation
