import Backpressure.Simulation.Stage
import Backpressure.Worker.Vigil

/-!
# Scripts for a worker

The unit of work plays a list of deeds, one per iteration, and afterwards sleeps
for a second at a time.  Every deed but a sleep first takes some time in which it
does not look at the stop flag.
-/

namespace Backpressure.Simulation

/-- What one iteration does. -/
inductive Deed where
  /-- Sleeps unless a stop is requested. -/
  | sleep (millis : Nat)
  /-- Only takes time. -/
  | block (millis : Nat)
  | waitStop (millis : Nat)
  /-- Fails, and the worker goes on. -/
  | recoverable (millis : Nat) (reason : String)
  /-- Fails for good. -/
  | fatal (millis : Nat) (reason : String)
  | panic (millis : Nat)
  deriving Repr, Inhabited

/-- The time that a deed takes before it looks around. -/
def Deed.millis : Deed → Nat
  | .sleep n | .block n | .waitStop n | .recoverable n _ | .fatal n _ | .panic n => n

/-- Where an iteration of the unit stands. -/
inductive DeedPoint where
  /-- Taking time. -/
  | busy (deed : Deed) (ends : Instant)
  | asleep (ends : Instant)
  /-- Waiting for a stop. -/
  | held
  deriving Repr, Inhabited

/-- Where the hook of the unit stands. -/
inductive HookPoint where
  | start
  /-- Taking time. -/
  | busy (ends : Instant)
  deriving Repr, Inhabited

/-- What the unit writes into its log. -/
inductive WorkNote where
  /-- A sleep ended; tells whether it was cut short. -/
  | slept (cut : Bool)
  /-- A deed took its time; tells whether a stop is requested. -/
  | blocked (stop : Bool)
  /-- A wait for a stop ended. -/
  | stopped (stop : Bool)
  /-- A deed failed. -/
  | failed (fault : WorkFault)
  /-- A deed panics. -/
  | panicked
  /-- The hook began. -/
  | leaving (reason : ExitReason)
  /-- The hook took its time. -/
  | left
  deriving Repr

/-- A line of the log: the moment, the number of the iteration, and the note. -/
structure WorkLine where
  /-- The moment. -/
  now : Instant
  /-- The number of the iteration. -/
  iteration : Nat
  note : WorkNote
  deriving Repr

/-- A worker with its script. -/
structure WorkerDesk where
  /-- The name of the worker. -/
  name : String
  /-- The group of the worker. -/
  group : String
  /-- The worker with those who wait for its stop. -/
  vigil : Vigil DeedPoint HookPoint := {}
  /-- The deeds that are left. -/
  script : List Deed
  /-- The milliseconds that the hook takes. -/
  hookMillis : Nat := 0
  /-- The number of the iteration. -/
  iteration : Nat := 0
  /-- The log since the last answer. -/
  log : List WorkLine := []
  /-- The shutdowns in the background, with their names. -/
  named : List (CallId × String) := []
  /-- The calls in the background that are done. -/
  done : List (Done (Except WorkerError Unit)) := []
  /-- The end of the call in the foreground. -/
  last : Option (Except WorkerError Unit) := none
  /-- Whether the owner of the worker has gone. -/
  dropped : Bool := false

namespace WorkerDesk

/-- Writes into the log. -/
def note (d : WorkerDesk) (now : Instant) (n : WorkNote) : WorkerDesk :=
  { d with log := d.log ++ [⟨now, d.iteration, n⟩] }

/-- The worker at the desk. -/
def worker (d : WorkerDesk) : Worker DeedPoint HookPoint := d.vigil.worker

/-- Replaces the worker if it can move. -/
def put (d : WorkerDesk) (w : Option (Worker DeedPoint HookPoint)) : Option WorkerDesk :=
  w.map fun worker => { d with vigil := d.vigil.put worker }

/-- Before an iteration. -/
def turn (d : WorkerDesk) (now : Instant) : Option WorkerDesk :=
  let deed := d.script.headD (.sleep 1000)
  let ends := now.afterWait (Duration.ofMillis deed.millis)
  let first : DeedPoint := match deed with
    | .sleep _ => .asleep ends
    | _ => .busy deed ends
  let d' := if d.worker.stop then d
    else { d with script := d.script.tail, iteration := d.iteration + 1 }
  d'.put (d.worker.turn first .start)

/-- The end of the time that a deed takes. -/
def endOf (d : WorkerDesk) (now : Instant) : Deed → Option WorkerDesk
  | .sleep _ | .block _ => (d.note now (.blocked d.worker.stop)).put (d.worker.finish .done .start)
  | .waitStop _ => d.put (d.worker.move .held)
  | .recoverable _ reason =>
    (d.note now (.failed (.recoverable reason))).put
      (d.worker.finish (.failed (.recoverable reason)) .start)
  | .fatal _ reason =>
    (d.note now (.failed (.fatal reason))).put (d.worker.finish (.failed (.fatal reason)) .start)
  | .panic _ => (d.note now .panicked).put (d.worker.finish .panicked .start)

/-- The loop goes on by itself, unless it stepped aside. -/
def work? (now : Instant) (d : WorkerDesk) : Option WorkerDesk :=
  match d.worker.place with
  | .between false => d.turn now
  | .inside (.asleep ends) =>
    if d.worker.stop then (d.note now (.slept true)).put (d.worker.finish .done .start)
    else if ends ≤ now then (d.note now (.slept false)).put (d.worker.finish .done .start)
    else none
  | .inside (.busy deed ends) => if ends ≤ now then d.endOf now deed else none
  | .inside .held =>
    if d.worker.stop then (d.note now (.stopped true)).put (d.worker.finish .done .start) else none
  | .leaving reason .start =>
    let d := d.note now (.leaving reason)
    if d.hookMillis = 0 then d.put d.worker.finishHook
    else d.put (d.worker.moveHook (.busy (now.afterWait (Duration.ofMillis d.hookMillis))))
  | .leaving _ (.busy ends) =>
    if ends ≤ now then (d.note now .left).put d.worker.finishHook else none
  | .unstarted | .between true | .finished _ => none

/-- One shutdown that waits goes on. -/
def endWait? (now : Instant) (d : WorkerDesk) (c : StopWait) : Option WorkerDesk :=
  (d.vigil.resume d.name now c.call).map fun (r, vigil) =>
    match d.named.lookup c.call with
    | some id => { d with vigil, done := d.done ++ [⟨now, id, r⟩] }
    | none => { d with vigil, last := some r }

/-- A shutdown that waits goes on. -/
def waitEnds? (now : Instant) (d : WorkerDesk) : Option WorkerDesk :=
  d.vigil.waits.findSome? (d.endWait? now)

/-- The shutdown in the foreground looks whether its wait has ended. -/
def arrive (now : Instant) (d : WorkerDesk) : WorkerDesk :=
  ((d.vigil.waits.find? fun c => (d.named.lookup c.call).isNone && c.deadline ≤ now).bind
    (d.endWait? now)).getD d

/-- The loop, then the shutdowns that wait, then a loop that stepped aside. -/
def step? (now : Instant) (d : WorkerDesk) : Option WorkerDesk :=
  (d.work? now).or <| (d.waitEnds? now).or <|
    match d.worker.place with
    | .between true => d.turn now
    | _ => none

/-- What can happen around a worker. -/
def stage : Stage WorkerDesk where
  step? := step?
  next? := fun d =>
    let work : Option Instant := match d.worker.place with
      | .inside (.asleep ends) | .inside (.busy _ ends) | .leaving _ (.busy ends) => some ends
      | _ => none
    earlier work (earliest (d.vigil.waits.map (some ·.deadline)))
  arrive := arrive

end WorkerDesk

/-- A step of a script for a worker. -/
inductive WorkerStep where
  /-- Starts the worker. -/
  | start
  /-- Requests a stop and waits for it, in the background if it has a name. -/
  | shutdown (limit : Duration) (id : Option String)
  | requestStop
  /-- Asks for a description. -/
  | describe
  /-- Drops the worker. -/
  | drop
  /-- Lets time pass. -/
  | advance (millis : Nat)
  deriving Repr

/-- What a step of a script for a worker gives. -/
inductive WorkerResult where
  | nothing
  /-- The end of a request. -/
  | ended (r : Except WorkerError Unit)
  | description (s : String)

/-- The answer to a step of a script for a worker. -/
structure WorkerEntry where
  /-- The result, the moment, and what was done in the background. -/
  entry : Entry WorkerResult (Except WorkerError Unit)
  /-- The phase, and whether the worker runs; absent once its owner has gone. -/
  view : Option (WorkerPhase × Bool)
  /-- The new lines of the log. -/
  log : List WorkLine

namespace WorkerDesk

/-- One step of a script. -/
def act (scene : Scene WorkerDesk) : WorkerStep → WorkerResult × Scene WorkerDesk
  | .start =>
    let (r, vigil) := scene.state.vigil.start scene.state.name
    (.ended r, { scene with state.vigil := vigil })
  | .shutdown limit id =>
    let call := scene.state.vigil.nextCall
    let (r, vigil) := scene.state.vigil.shutdown scene.state.name scene.now limit
    let scene := { scene with state.vigil := vigil }
    match r, id with
    | some r, none => (.ended r, scene)
    | some r, some id =>
      (.nothing, { scene with state.done := scene.state.done ++ [⟨scene.now, id, r⟩] })
    | none, some id =>
      (.nothing, { scene with state.named := scene.state.named ++ [(call, id)] })
    | none, none =>
      let scene := stage.await (fun d => d.last.isSome) { scene with state.last := none }
      (match scene.state.last with
        | some r => .ended r
        | none => .nothing, scene)
  | .requestStop =>
    (.nothing, { scene with state.vigil := scene.state.vigil.put scene.state.worker.requestStop })
  | .describe =>
    (.description (scene.state.worker.describe scene.state.name scene.state.group), scene)
  | .drop =>
    (.nothing, { scene with
      state.vigil := scene.state.vigil.put scene.state.worker.drop
      state.dropped := true })
  | .advance ms => (.nothing, stage.advance ms scene)

/-- What everybody sees of the worker. -/
def view (d : WorkerDesk) : WorkerPhase × Bool := (d.worker.phase, d.worker.isRunning)

end WorkerDesk

/-- The answers of a script for a worker.  Once the worker is dropped, time passes and nothing else. -/
def runWorker (desk : WorkerDesk) (steps : List (WorkerStep × Nat)) : List WorkerEntry :=
  let start : Scene WorkerDesk := { state := desk }
  perform (fun scene (step, millis) =>
    let gone := scene.state.dropped
    let before := scene.state.view
    let (result, scene) := WorkerDesk.act scene (if gone then .advance millis else step)
    let scene := WorkerDesk.stage.settle scene
    let d := scene.state
    ({ entry := { result, now := scene.now, done := d.done.mergeSort Done.before }
       view := if gone then none else if d.dropped then some before else some d.view
       log := d.log },
      { scene with state := { d with log := [], done := [] } })) start steps

end Backpressure.Simulation
