import Backpressure.CallError
import Backpressure.Worker.Lifecycle

/-!
# A worker and those who call it

Callers start a worker, request its stop, and shut it down.  A shutdown requests the
stop and then waits for the end of the loop, up to a deadline; several shutdowns can
wait at the same time.

*What can be seen.*  `Vigil.step` gives the events of an action beside the new state.
They are read off the worker before and after the action: that its loop began an
iteration or the hook, that the hook ended, and that its phase changed.
-/

namespace Backpressure

/-- A shutdown that waits for the stop of a worker. -/
structure StopWait where
  /-- The name of the call. -/
  call : CallId
  /-- How long it waits. -/
  limit : Duration
  /-- When it gives up. -/
  deadline : Instant
  deriving DecidableEq, Repr

/-- A worker with the shutdowns that wait for its stop. -/
structure Vigil (ι η : Type) where
  worker : Worker ι η := {}
  /-- The shutdowns that wait. -/
  waits : List StopWait := []
  /-- The name of the next shutdown. -/
  nextCall : CallId := 0
  deriving Repr, Inhabited

namespace Vigil

/-- What can be seen of a worker. -/
inductive Event where
  /-- A start succeeded. -/
  | started
  /-- A start failed, for the phase in which it found the worker. -/
  | refused (found : WorkerPhase)
  /-- A stop was requested. -/
  | told
  /-- The owner went away. -/
  | dropped
  /-- The phase changed. -/
  | became (phase : WorkerPhase)
  /-- An iteration began. -/
  | began
  | ended (how : IterationEnd)
  /-- The hook began. -/
  | leaving (reason : ExitReason)
  /-- The hook ended. -/
  | left
  /-- A shutdown ended. -/
  | answered (call : CallId) (result : Except WorkerError Unit)

/-- What is done to a worker or by it. -/
inductive Action (ι η : Type) where
  /-- The worker acts or is acted upon, shutdowns apart. -/
  | worker (a : Worker.Action ι η)
  /-- A caller shuts the worker down. -/
  | shutdown (limit : Duration)
  /-- A shutdown that waits looks again. -/
  | resume (call : CallId)
  deriving Repr

variable {ι η : Type}

/-- What can be seen when a loop goes from one place to another. -/
def passage : Place ι η → Place ι η → List Event
  | .between _, .inside _ => [.began]
  | .between _, .leaving reason _ | .inside _, .leaving reason _ => [.leaving reason]
  | .leaving _ _, .finished _ => [.left]
  | _, _ => []

/-- What can be seen of an action itself. -/
def deed : Worker.Action ι η → List Event
  | .start => [.started]
  | .requestStop => [.told]
  | .drop => [.dropped]
  | .finish how _ => [.ended how]
  | .turn _ _ | .move _ | .moveHook _ | .finishHook => []

/-- What can be seen when an action takes a worker from one state to another. -/
def observe (a : Worker.Action ι η) (w w' : Worker ι η) : List Event :=
  deed a ++ passage w.place w'.place
    ++ if w'.phase = w.phase then [] else [.became w'.phase]

/-- The worker after an action. -/
def put (v : Vigil ι η) (w : Worker ι η) : Vigil ι η := { v with worker := w }

/-- A caller starts the worker. -/
def start (name : String) (v : Vigil ι η) : Except WorkerError Unit × Vigil ι η :=
  match v.worker.start with
  | some w => (.ok (), v.put w)
  | none => (.error (.invalidPhase name v.worker.phase), v)

/-- What a shutdown of a worker with a name has come to, if it has ended. -/
def result? (name : String) (now : Instant) (c : StopWait) (v : Vigil ι η) :
    Option (Except WorkerError Unit) :=
  (v.worker.stopWait c.deadline now).map fun stopped =>
    if stopped then .ok () else .error (.stopTimeout name c.limit)

/-- A caller shuts the worker down; without a result the shutdown waits. -/
def shutdown (name : String) (now : Instant) (limit : Duration) (v : Vigil ι η) :
    Option (Except WorkerError Unit) × Vigil ι η :=
  let wait : StopWait := { call := v.nextCall, limit, deadline := now.afterWait limit }
  let v := { v.put v.worker.requestStop with nextCall := v.nextCall + 1 }
  match v.result? name now wait with
  | some r => (some r, v)
  | none => (none, { v with waits := v.waits ++ [wait] })

/-- A shutdown that waits looks again. -/
def resume (name : String) (now : Instant) (call : CallId) (v : Vigil ι η) :
    Option (Except WorkerError Unit × Vigil ι η) :=
  match v.waits.find? (·.call == call) with
  | none => none
  | some c =>
    (v.result? name now c).map fun r =>
      (r, { v with waits := v.waits.filter (·.call != call) })

/-- One action at a moment. -/
def step (name : String) (now : Instant) (v : Vigil ι η) :
    Action ι η → Option (List Event × Vigil ι η)
  | .worker .start =>
    match v.start name with
    | (.ok (), v') => some (observe (.start : Worker.Action ι η) v.worker v'.worker, v')
    | (.error _, v') => some ([.refused v.worker.phase], v')
  | .worker a => (v.worker.step a).map fun w => (observe a v.worker w, v.put w)
  | .shutdown limit =>
    let (r, v') := v.shutdown name now limit
    some (observe (.requestStop : Worker.Action ι η) v.worker v'.worker
      ++ (r.map (Event.answered v.nextCall)).toList, v')
  | .resume call => (v.resume name now call).map fun (r, v') => ([.answered call r], v')

end Vigil

end Backpressure
