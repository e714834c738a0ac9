import Backpressure.Simulation.Workshop

/-!
# Scripts for one poller

A single poller works at a queue of its own.
-/

namespace Backpressure.Simulation

/-- A step of a script for a poller. -/
inductive PollerStep where
  /-- Starts the poller. -/
  | start
  /-- Offers items without waiting. -/
  | offer (jobs : List Job)
  /-- Opens the gate for some items. -/
  | release (n : Nat)
  /-- Ends offers. -/
  | sealUp
  /-- Ends offers and polls. -/
  | close
  /-- Requests a stop and waits for it. -/
  | shutdown (limit : Duration)
  /-- Lets time pass. -/
  | advance (millis : Nat)
  deriving Repr

/-- What a step of a script for a poller gives. -/
inductive PollerResult where
  | nothing
  /-- Whether each item was accepted. -/
  | accepted (each : List Bool)
  /-- The end of a request. -/
  | ended (r : Except WorkerError Unit)

/-- A line about the iterations of a poller. -/
inductive IdleNote where
  /-- An iteration ended; this is the idle interval. -/
  | interval (d : Duration)
  /-- An iteration panicked. -/
  | panicked
  /-- The hook ended. -/
  | left
  deriving Repr

/-- A poller at work. -/
structure PollerDesk where
  name : String
  settings : PollerSettings
  poller : Poller Job
  bench : Bench Job
  /-- The handling of its items. -/
  shop : Workshop := {}
  /-- The log since the last answer. -/
  log : List (Instant × IdleNote) := []
  /-- When the caller who waits for the stop gives up, if there is one. -/
  caller : Option Instant := none
  /-- Whether the poller stopped in time for the last caller. -/
  stopped : Bool := false

/-- The answer to a step of a script for a poller. -/
structure PollerEntry where
  result : PollerResult
  /-- The moment after the step. -/
  now : Instant
  /-- The new lines of the log. -/
  log : List (Instant × IdleNote)
  /-- The poller and its bench. -/
  desk : PollerDesk

namespace PollerDesk

/-- Takes note of what could be seen. -/
def watch (now : Instant) (d : PollerDesk) : Poller.Event Job → PollerDesk
  | .began job => { d with shop := d.shop.begin now 0 job }
  | .ended _ _ => d
  | .iterated => { d with log := d.log ++ [(now, .interval d.poller.idle)] }
  | .panicked => { d with log := d.log ++ [(now, .panicked)] }
  | .left _ => { d with log := d.log ++ [(now, .left)] }

/-- The desk after the poller did something. -/
def follow (now : Instant) (d : PollerDesk) (o : Poller.Outcome Job) : PollerDesk :=
  o.events.foldl (watch now) { d with poller := o.poller, bench := o.bench }

/-- The poller after something it may have done. -/
def after (now : Instant) (d : PollerDesk) (o : Option (Poller.Outcome Job)) : Option PollerDesk :=
  o.map (d.follow now)

/-- The caller who waits for the stop goes on. -/
def callerEnds? (now : Instant) (d : PollerDesk) : Option PollerDesk :=
  d.caller.bind fun deadline =>
    (d.poller.worker.stopWait deadline now).map fun stopped => { d with caller := none, stopped }

/-- An item moves on, or the poller does, or the caller, or a poller that stepped aside. -/
def step? (now : Instant) (d : PollerDesk) : Option PollerDesk :=
  match d.shop.step? now with
  | some (none, shop) => some { d with shop }
  | some (some shift, shop) =>
    let d := { d with shop }
    some ((d.after now (d.poller.handled shift.job.how d.bench)).getD d)
  | none =>
    (d.after now (d.poller.onward d.settings now d.bench)).or <|
      (d.callerEnds? now).or <| d.after now (d.poller.onwardAside d.settings now d.bench)

/-- What can happen at the desk of a poller. -/
def stage : Stage PollerDesk where
  step? := step?
  next? := fun d => earliest [d.shop.next?, d.poller.next?, d.caller]
  arrive := fun now d =>
    if d.caller.any (fun deadline => deadline ≤ now) then (d.callerEnds? now).getD d else d

/-- Offers items one after another. -/
def offerAll : List Job → Bench Job → List Bool × Bench Job
  | [], b => ([], b)
  | job :: rest, b =>
    let (accepted, queue) := b.queue.tryOffer job
    let (each, b) := offerAll rest { b with queue }
    (accepted :: each, b)

/-- The end of a wait for the stop. -/
def stopResult (d : PollerDesk) (limit : Duration) (stopped : Bool) : Except WorkerError Unit :=
  if stopped then .ok () else .error (.stopTimeout d.name limit)

/-- One step of a script. -/
def act (scene : Scene PollerDesk) : PollerStep → PollerResult × Scene PollerDesk
  | .start =>
    match scene.state.poller.worker.start with
    | some worker => (.ended (.ok ()), { scene with state.poller.worker := worker })
    | none =>
      (.ended (.error (.invalidPhase scene.state.name scene.state.poller.worker.phase)), scene)
  | .offer jobs =>
    let (each, bench) := offerAll jobs scene.state.bench
    (.accepted each, { scene with state.bench := bench })
  | .release n => (.nothing, { scene with state.shop := scene.state.shop.release n })
  | .sealUp =>
    (.nothing, { scene with state.bench.queue := scene.state.bench.queue.sealUp })
  | .close => (.nothing, { scene with state.bench.queue := scene.state.bench.queue.close })
  | .shutdown limit =>
    let scene := { scene with state.poller.worker := scene.state.poller.worker.requestStop }
    let deadline := scene.now.afterWait limit
    match scene.state.poller.worker.stopWait deadline scene.now with
    | some stopped => (.ended (scene.state.stopResult limit stopped), scene)
    | none =>
      let scene := stage.await (fun d => d.caller.isNone) { scene with state.caller := some deadline }
      (.ended (scene.state.stopResult limit scene.state.stopped), scene)
  | .advance ms => (.nothing, stage.advance ms scene)

end PollerDesk

/-- The answers of a script for a poller. -/
def runPoller (desk : PollerDesk) (steps : List PollerStep) : List PollerEntry × Array Handling :=
  let start : Scene PollerDesk := { state := desk }
  let (entries, last) := steps.foldl (fun (entries, scene) step =>
    let (result, scene) := PollerDesk.act scene step
    let scene := PollerDesk.stage.settle scene
    let d := scene.state
    (({ result, now := scene.now, log := d.log, desk := d } : PollerEntry) :: entries,
      { scene with state := { d with log := [] } })) (([] : List PollerEntry), start)
  (entries.reverse, last.state.shop.record)

end Backpressure.Simulation
