import Backpressure.Pool.Machine
import Backpressure.Simulation.Workshop

/-!
# Scripts for a pool

The factory and the policy are laid down by the script.  A factory refuses some
names, and finds a member unfit that does not run or that the script has marked.
Without a factory every worker gets the same handler; without a policy the pool
follows its backlog if it is elastic, and stays as it is if not.

Several items in one step are offered one after the other, each as soon as the
offer before it has ended.
-/

namespace Backpressure.Simulation

/-- A factory of a script. -/
structure Factory where
  /-- The names for which there is no handler. -/
  broken : List String := []
  deriving Repr

/-- A step of a script for a pool. -/
inductive PoolStep where
  /-- Starts the pool. -/
  | start
  /-- Offers items one after the other, in the background if it has a name. -/
  | offer (jobs : List Job) (wait : Duration) (id : Option String)
  /-- Opens the gate for some items. -/
  | release (n : Nat)
  /-- Marks a name as unfit. -/
  | unfit (name : String)
  /-- Wakes the members that are asleep. -/
  | flush
  /-- Switches the log of items on or off. -/
  | setDebug (on : Bool)
  /-- Asks for the numbers of lines in the log of items. -/
  | itemLogs
  /-- Shuts the pool down, in the background if it has a name. -/
  | shutdown (graceful : Bool) (id : Option String)
  /-- Keeps the active members in view. -/
  | track
  /-- Asks for the members in view. -/
  | tracked
  /-- Asks for the active members. -/
  | members
  /-- Lets time pass. -/
  | advance (millis : Nat)
  deriving Repr

/-- The end of a call to a pool. -/
inductive PoolCallResult where
  /-- Whether each item was accepted. -/
  | accepted (each : List Bool)
  /-- The end of a start or a shutdown. -/
  | ended (r : Except PoolError Unit)

/-- What a step of a script for a pool gives. -/
inductive PoolResult where
  | nothing
  /-- The end of a call. -/
  | call (r : PoolCallResult)
  /-- A truth value. -/
  | flag (b : Bool)
  | number (n : Nat)
  /-- The lines about handled items, and those about offers without a slot. -/
  | itemLogs (handled turnedAway : Nat)
  /-- Members with all that is known of them. -/
  | tracked (ms : List (Member Job))
  | members (ms : List (Member Job))

/-- A line of the log of a pool. -/
inductive PoolNote where
  /-- The factory made a handler. -/
  | created (name : String)
  /-- The factory had no handler. -/
  | refused (name : String)
  /-- The factory let go of a member. -/
  | destroyed (name : String)
  /-- The policy was asked. -/
  | observed (o : Scaling.Observation)
  deriving Repr

/-- Items that are offered one after the other. -/
structure Batch where
  /-- The offer that is under way. -/
  call : CallId
  /-- The name of the step, if it runs in the background. -/
  id : Option String
  /-- The wait of each offer. -/
  wait : Duration
  /-- The items that come later. -/
  rest : List Job
  /-- Whether each item so far was accepted, in reverse order. -/
  accepted : List Bool

/-- The policy of a pool in a script. -/
inductive ScriptPolicy where
  /-- One that the pool has of its own. -/
  | own (policy : Scaling.Policy)
  /-- Decisions that the script lays down; after the last it holds. -/
  | listed (decisions : List Scaling.Decision)

/-- One evaluation. -/
def ScriptPolicy.evaluate (o : Scaling.Observation) :
    ScriptPolicy → Scaling.Decision × ScriptPolicy
  | .own policy =>
    let (d, policy) := policy.evaluate o
    (d, .own policy)
  | .listed [] => (.hold, .listed [])
  | .listed (d :: rest) => (d, .listed rest)

/-- Whether the script lays the policy down. -/
def ScriptPolicy.isListed : ScriptPolicy → Bool
  | .own _ => false
  | .listed _ => true

/-- A pool with its surroundings. -/
structure PoolDesk where
  pool : Pool Job
  /-- The factory, if there is one. -/
  factory : Option Factory
  policy : ScriptPolicy
  /-- The handling of items. -/
  shop : Workshop := {}
  /-- The names marked as unfit. -/
  unfit : List String := []
  /-- Whether items are logged. -/
  debug : Bool := false
  /-- The lines about handled items and about offers without a slot. -/
  itemLines : Nat × Nat := (0, 0)
  /-- The members in view. -/
  tracked : List MemberId := []
  /-- The log since the last answer. -/
  log : List (Instant × PoolNote) := []
  /-- The offers that wait. -/
  batches : List Batch := []
  /-- The shutdowns in the background, with their names. -/
  named : List (CallId × String) := []
  /-- The calls in the background that are done. -/
  done : List (Done PoolCallResult) := []
  /-- The end of the call in the foreground. -/
  last : Option PoolCallResult := none

namespace PoolDesk

/-- What the factory and the policy say now. -/
def surroundings (d : PoolDesk) : Surroundings Job where
  refusal := fun name =>
    if d.factory.any (·.broken.contains name) then some ("no handler for " ++ name) else none
  isFit := fun m => m.phase == .running && !d.unfit.contains m.name
  decide := fun o => (d.policy.evaluate o).1

/-- Writes into the log. -/
def note (d : PoolDesk) (wanted : Bool) (now : Instant) (n : PoolNote) : PoolDesk :=
  if wanted then { d with log := d.log ++ [(now, n)] } else d

/-- Takes note of what could be seen, the ends of calls apart. -/
def watch (now : Instant) (d : PoolDesk) : PoolEvent Job → PoolDesk
  | .poller i (.began job) => { d with shop := d.shop.begin now i job }
  | .poller _ (.ended _ .handled) =>
    if d.debug then { d with itemLines := (d.itemLines.1 + 1, d.itemLines.2) } else d
  | .poller _ _ => d
  | .created name => d.note d.factory.isSome now (.created name)
  | .refused name => d.note d.factory.isSome now (.refused name)
  | .destroyed name => d.note d.factory.isSome now (.destroyed name)
  | .observed o =>
    { d with policy := (d.policy.evaluate o).2 }.note d.policy.isListed now (.observed o)
  | .turnedAway => if d.debug then { d with itemLines := (d.itemLines.1, d.itemLines.2 + 1) } else d
  | .discarded _ | .answered _ _ => d

/-- The end of a call, in the foreground or the background. -/
def finish (d : PoolDesk) (now : Instant) (id : Option String) (r : PoolCallResult) : PoolDesk :=
  match id with
  | some id => { d with done := d.done ++ [⟨now, id, r⟩] }
  | none => { d with last := some r }

/-- The first call that has ended, with its end. -/
def firstAnswer : List (PoolEvent Job) → Option (CallId × PoolAnswer)
  | [] => none
  | .answered call a :: _ => some (call, a)
  | _ :: rest => firstAnswer rest

/-- The desk after the pool did something, with the call that has ended by it. -/
def apply (now : Instant) (d : PoolDesk) (o : PoolOutcome Job) :
    PoolDesk × Option (CallId × PoolAnswer) :=
  (o.events.foldl (watch now) { d with pool := o.pool }, firstAnswer o.events)

/-- Offers items one after the other, up to the first offer that waits. -/
def offerOn (now : Instant) (id : Option String) (wait : Duration) :
    List Job → List Bool → PoolDesk → PoolDesk
  | [], accepted, d => d.finish now id (.accepted accepted.reverse)
  | job :: rest, accepted, d =>
    let call := d.pool.nextCall
    match d.pool.step d.surroundings now (.offer job wait) with
    | none => d
    | some o =>
      match d.apply now o with
      | (d, some (_, .offered b)) => offerOn now id wait rest (b :: accepted) d
      | (d, _) => { d with batches := d.batches ++ [{ call, id, wait, rest, accepted }] }

/-- Deals with the end of a call. -/
def settleCall (now : Instant) (d : PoolDesk) : Option (CallId × PoolAnswer) → PoolDesk
  | none => d
  | some (call, .offered b) =>
    match d.batches.find? (·.call == call) with
    | none => d
    | some batch =>
      { d with batches := d.batches.filter (·.call != call) }.offerOn now batch.id batch.wait
        batch.rest (b :: batch.accepted)
  | some (call, .ended r) => d.finish now (d.named.lookup call) (.ended r)

/-- The desk after the pool did something. -/
def follow (now : Instant) (d : PoolDesk) (o : PoolOutcome Job) : PoolDesk :=
  let (d, ended) := d.apply now o
  d.settleCall now ended

/-- The desk after an action of the pool, if it can happen. -/
def act? (now : Instant) (d : PoolDesk) (a : Pool.Action Job) : Option PoolDesk :=
  (d.pool.step d.surroundings now a).map (d.follow now)

/-- What a poller can do by itself now, in the order in which it is tried. -/
def memberActions (aside : Bool) (m : Member Job) : List Poller.Action :=
  match m.poller.worker.place with
  | .between waits => if waits == aside then [.turn 1.0] else []
  | .inside (.polling _ _) => if aside then [] else [.look 1.0, .quit]
  | .inside (.idling _ _) => if aside then [] else [.quit, .wake, .rise]
  | .leaving _ .next => if aside then [] else [.drain]
  | _ => []

/-- A member goes on, one that stepped aside or any other. -/
def memberStep? (now : Instant) (aside : Bool) (d : PoolDesk) : Option PoolDesk :=
  d.pool.crew.zipIdx.findSome? fun (m, i) =>
    (memberActions aside m).findSome? fun a => d.act? now (.member i a)

/-- The scaler goes on, if it stepped aside or not. -/
def scalerStep? (now : Instant) (aside : Bool) (d : PoolDesk) : Option PoolDesk :=
  let actions : List Pool.ScalerAction := match d.pool.scaler.place with
    | .between waits => if waits == aside then [.turn] else []
    | .inside (.sleeping _) => if aside then [] else [.quit, .evaluate]
    | .inside _ => if aside then [] else [.retired]
    | .leaving _ _ => if aside then [] else [.leave]
    | _ => []
  actions.findSome? fun a => d.act? now (.scaler a)

/-- A call that waits goes on. -/
def callStep? (now : Instant) (d : PoolDesk) : Option PoolDesk :=
  d.pool.calls.findSome? fun (call, _) => d.act? now (.resume call)

/-- An item moves on; then members, scaler and calls; then those that stepped aside. -/
def step? (now : Instant) (d : PoolDesk) : Option PoolDesk :=
  match d.shop.step? now with
  | some (none, shop) => some { d with shop }
  | some (some shift, shop) =>
    let d := { d with shop }
    some ((d.act? now (.member shift.worker (.handled shift.job.how))).getD d)
  | none =>
    (d.memberStep? now false).or <| (d.scalerStep? now false).or <| (d.callStep? now).or <|
      (d.memberStep? now true).or (d.scalerStep? now true)

/-- Whether a call is in the foreground. -/
def isForeground (d : PoolDesk) (call : CallId) : Bool :=
  (d.named.lookup call).isNone && d.batches.all fun b => b.call != call || b.id.isNone

/-- A call in the foreground whose wait ends now goes on. -/
def arrive (now : Instant) (d : PoolDesk) : PoolDesk :=
  (d.pool.calls.findSome? fun (call, errand) =>
    if d.isForeground call && errand.deadlines.any (· ≤ now) then d.act? now (.resume call)
    else none).getD d

/-- What can happen at the desk of a pool. -/
def stage : Stage PoolDesk where
  step? := step?
  next? := fun d => earlier d.shop.next? (earliest d.pool.deadlines)
  arrive := arrive

/-- Runs until the call in the foreground has ended. -/
def awaitLast (scene : Scene PoolDesk) : PoolResult × Scene PoolDesk :=
  let scene := stage.await (fun d => d.last.isSome) scene
  (match scene.state.last with
    | some r => .call r
    | none => .nothing, scene)

/-- The desk before a call in the foreground. -/
def ready (d : PoolDesk) : PoolDesk := { d with last := none }

/-- One step of a script. -/
def act (scene : Scene PoolDesk) : PoolStep → PoolResult × Scene PoolDesk
  | .start =>
    let d := scene.state.ready
    awaitLast { scene with state := (d.act? scene.now .start).getD d }
  | .offer jobs wait id =>
    let scene := { scene with state := scene.state.ready.offerOn scene.now id wait jobs [] }
    if id.isSome then (.nothing, scene) else awaitLast scene
  | .release n => (.nothing, { scene with state.shop := scene.state.shop.release n })
  | .unfit name =>
    if scene.state.unfit.contains name then (.flag false, scene)
    else (.flag true, { scene with state.unfit := name :: scene.state.unfit })
  | .flush =>
    (.nothing, { scene with state := (scene.state.act? scene.now .flush).getD scene.state })
  | .setDebug on => (.flag on, { scene with state.debug := on })
  | .itemLogs =>
    (.itemLogs scene.state.itemLines.1 scene.state.itemLines.2,
      { scene with state.itemLines := (0, 0) })
  | .shutdown graceful id =>
    let d := scene.state.ready
    let d := match id with
      | some id => { d with named := d.named ++ [(d.pool.nextCall, id)] }
      | none => d
    let scene := { scene with state := (d.act? scene.now (.shutdown graceful)).getD d }
    if id.isSome then (.nothing, scene) else awaitLast scene
  | .track =>
    let tracked := scene.state.tracked ++ scene.state.pool.active
    (.number tracked.length, { scene with state.tracked := tracked })
  | .tracked => (.tracked (scene.state.tracked.filterMap (scene.state.pool.crew[·]?)), scene)
  | .members => (.members scene.state.pool.members, scene)
  | .advance ms => (.nothing, stage.advance ms scene)

end PoolDesk

/-- The answer to a step of a script for a pool. -/
structure PoolEntry where
  /-- The result, the moment, and what was done in the background. -/
  entry : Entry PoolResult PoolCallResult
  /-- The pool after the step. -/
  pool : Pool Job
  /-- The new lines of the log. -/
  log : List (Instant × PoolNote)

/-- The desk of a pool with a factory and a policy, if they are given. -/
def PoolDesk.ofPool (pool : Pool Job) (factory : Option Factory)
    (decisions : Option (List Scaling.Decision)) : PoolDesk where
  pool := pool
  factory := factory
  policy := match decisions with
    | some ds => .listed ds
    | none => .own (if pool.settings.isElastic then .backlog pool.settings.scaling {} else .fixed)

/-- The answers of a script for a pool, and the record of the handling of items. -/
def runPool (desk : PoolDesk) (steps : List PoolStep) : List PoolEntry × Array Handling :=
  let start : Scene PoolDesk := { state := desk }
  let (entries, last) := steps.foldl (fun (entries, scene) step =>
    let (result, scene) := PoolDesk.act scene step
    let scene := PoolDesk.stage.settle scene
    let d := scene.state
    let entry : PoolEntry :=
      { entry := { result, now := scene.now, done := d.done.mergeSort Done.before }
        pool := d.pool
        log := d.log }
    (entry :: entries, { scene with state := { d with log := [], done := [] } }))
    (([] : List PoolEntry), start)
  (entries.reverse, last.state.shop.record)

end Backpressure.Simulation
