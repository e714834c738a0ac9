import Backpressure.Text.Quoted
import Backpressure.Time.Timer
import Backpressure.Worker.Phase

/-!
# The life of a worker

A worker has a phase, which everybody sees, a stop flag, and a place where its
loop stands.  The three are changed by different tasks, so they need not agree:
the phase can be `stopRequested` while the loop is deep inside an iteration.

*The loop.*  Before each iteration the loop looks at the stop flag.  If it is up,
or if an iteration failed for good, the loop leaves through the hook, and the
worker is stopped when the hook has ended.  An iteration that failed in any other
way, or panicked, only makes the loop step aside for a moment: others who can run
now run first.

*Stopping.*  A request to stop puts up the flag.  A worker that was never started
is stopped at once, without a hook.  Dropping a worker puts up the flag too, but
leaves the phase alone.

The unit of work is not part of the worker.  `ι` is where an iteration can stand
and `η` where the hook can stand; whoever drives the worker moves these.
-/

namespace Backpressure

/-- Where the loop of a worker stands. -/
inductive Place (ι η : Type) where
  /-- The loop has not begun. -/
  | unstarted
  /-- Before an iteration; `aside` when others who can run now run first. -/
  | between (aside : Bool)
  /-- Inside an iteration. -/
  | inside (point : ι)
  /-- In the hook. -/
  | leaving (reason : ExitReason) (point : η)
  /-- The loop has ended. -/
  | finished (reason : ExitReason)
  deriving DecidableEq, Repr, Inhabited

/-- How an iteration ends. -/
inductive IterationEnd where
  /-- As it should. -/
  | done
  | failed (fault : WorkFault)
  | panicked
  deriving DecidableEq, Repr

/-- A worker. -/
structure Worker (ι η : Type) where
  /-- What everybody sees. -/
  phase : WorkerPhase := .created
  /-- Whether the loop is to end. -/
  stop : Bool := false
  /-- Where the loop stands. -/
  place : Place ι η := .unstarted
  deriving DecidableEq, Repr, Inhabited

/-- What a worker does or what is done to it. -/
inductive Worker.Action (ι η : Type) where
  /-- Somebody starts it. -/
  | start
  /-- Somebody requests a stop. -/
  | requestStop
  /-- Its owner goes away. -/
  | drop
  /-- The loop looks at the flag, and begins an iteration or the hook. -/
  | turn (first : ι) (firstOfHook : η)
  /-- The iteration goes on to another point. -/
  | move (point : ι)
  | finish (how : IterationEnd) (firstOfHook : η)
  /-- The hook goes on to another point. -/
  | moveHook (point : η)
  /-- The hook ends. -/
  | finishHook
  deriving DecidableEq, Repr

namespace Worker

variable {ι η : Type}

/-- Starts a worker that was never started; any other stays as it is. -/
def start (w : Worker ι η) : Option (Worker ι η) :=
  if w.phase = .created then some { w with phase := .running, place := .between false } else none

/-- Requests a stop. -/
def requestStop (w : Worker ι η) : Worker ι η :=
  { w with
    stop := true
    phase := match w.phase with
      | .running => .stopRequested
      | .created => .stopped
      | other => other }

/-- The owner of a worker goes away. -/
def drop (w : Worker ι η) : Worker ι η := { w with stop := true }

/-- Whether the worker runs and was not told to stop. -/
def isRunning (w : Worker ι η) : Bool := w.phase = .running

/-- Before an iteration: begins it at its first point, or the hook at its own. -/
def turn (w : Worker ι η) (first : ι) (firstOfHook : η) : Option (Worker ι η) :=
  match w.place with
  | .between _ =>
    some { w with
      place := if w.stop then .leaving .stopRequested firstOfHook else .inside first }
  | _ => none

/-- The iteration goes on to another point. -/
def move (w : Worker ι η) (point : ι) : Option (Worker ι η) :=
  match w.place with
  | .inside _ => some { w with place := .inside point }
  | _ => none

/-- The iteration ends. -/
def finish (w : Worker ι η) (how : IterationEnd) (firstOfHook : η) : Option (Worker ι η) :=
  match w.place with
  | .inside _ =>
    some { w with
      place := match how with
        | .done => .between false
        | .failed (.recoverable _) | .panicked => .between true
        | .failed (.fatal reason) => .leaving (.fatal reason) firstOfHook }
  | _ => none

/-- The hook goes on to another point. -/
def moveHook (w : Worker ι η) (point : η) : Option (Worker ι η) :=
  match w.place with
  | .leaving reason _ => some { w with place := .leaving reason point }
  | _ => none

/-- The hook ends, and with it the life of the worker. -/
def finishHook (w : Worker ι η) : Option (Worker ι η) :=
  match w.place with
  | .leaving reason _ => some { w with phase := .stopped, place := .finished reason }
  | _ => none

/-- One action. -/
def step (w : Worker ι η) : Action ι η → Option (Worker ι η)
  | .start => w.start
  | .requestStop => some w.requestStop
  | .drop => some w.drop
  | .turn first firstOfHook => w.turn first firstOfHook
  | .move point => w.move point
  | .finish how firstOfHook => w.finish how firstOfHook
  | .moveHook point => w.moveHook point
  | .finishHook => w.finishHook

/-- What a wait for the stop of a worker has come to: whether it stopped, or nothing
yet.  The phase counts first, the deadline second. -/
def stopWait (w : Worker ι η) (deadline now : Instant) : Option Bool :=
  if w.phase = .stopped then some true
  else if deadline ≤ now then some false
  else none

/-- A description of a worker. -/
def describe (name group : String) (w : Worker ι η) : String :=
  "Worker \x7b name: " ++ Text.quoted name ++ ", group: " ++ Text.quoted group ++ ", state: "
    ++ w.phase.label ++ " \x7d"

end Worker

end Backpressure
