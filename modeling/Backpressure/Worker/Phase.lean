import Backpressure.Time.Duration

/-!
# The phases of a worker

A worker runs a unit of work again and again until it is told to stop or the unit
gives up.  Its phase moves forward only:

* `created → running → stopRequested → stopped` is the ordinary way,
* `running → stopped` when the unit gave up,
* `created → stopped` when it is told to stop before it was started.

A stopped worker is never started again.
-/

namespace Backpressure

/-- The phase of a worker. -/
inductive WorkerPhase where
  /-- Not started yet. -/
  | created
  /-- Running its unit. -/
  | running
  /-- Told to stop while running. -/
  | stopRequested
  /-- Done for good. -/
  | stopped
  deriving DecidableEq, Repr, Inhabited

/-- The name of a phase. -/
def WorkerPhase.name : WorkerPhase → String
  | .created => "created"
  | .running => "running"
  | .stopRequested => "stop_requested"
  | .stopped => "stopped"

/-- The phases in order. -/
def WorkerPhase.all : List WorkerPhase := [.created, .running, .stopRequested, .stopped]

/-- The label of a phase in a description of a worker. -/
def WorkerPhase.label : WorkerPhase → String
  | .created => "Created"
  | .running => "Running"
  | .stopRequested => "StopRequested"
  | .stopped => "Stopped"

/-- How one iteration of a unit can fail. -/
inductive WorkFault where
  /-- The worker goes on. -/
  | recoverable (reason : String)
  /-- The worker ends its loop. -/
  | fatal (reason : String)
  deriving DecidableEq, Repr

/-- The wording of a failed iteration. -/
def WorkFault.message : WorkFault → String
  | .recoverable reason => reason
  | .fatal reason => "fatal: " ++ reason

/-- Whether a fault ends the loop. -/
def WorkFault.isFatal : WorkFault → Bool
  | .recoverable _ => false
  | .fatal _ => true

/-- Why a loop ended. -/
inductive ExitReason where
  | stopRequested
  /-- An iteration failed for good. -/
  | fatal (reason : String)
  deriving DecidableEq, Repr

/-- Why a request to a worker fails. -/
inductive WorkerError where
  /-- It cannot be started from its phase. -/
  | invalidPhase (name : String) (phase : WorkerPhase)
  /-- It did not stop in time. -/
  | stopTimeout (name : String) (limit : Duration)
  deriving DecidableEq, Repr

/-- The wording of a failed request. -/
def WorkerError.message : WorkerError → String
  | .invalidPhase name phase => "worker " ++ name ++ " cannot start from state " ++ phase.name
  | .stopTimeout name limit => "worker " ++ name ++ " did not stop within " ++ limit.text

end Backpressure
