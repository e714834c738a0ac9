import Backpressure.Settings.Pool
import Backpressure.Worker.Phase

/-!
# The phases of a pool, and its errors

A pool is created, runs, drains and is stopped, in this order; a pool that was
never started goes from created to stopped at once.
-/

namespace Backpressure

/-- The phase of a pool. -/
inductive PoolPhase where
  /-- Not started yet. -/
  | created
  /-- Accepting items. -/
  | running
  /-- Shutting down; items are no longer accepted. -/
  | draining
  /-- All workers are done. -/
  | stopped
  deriving DecidableEq, Repr, Inhabited

/-- The name of a phase. -/
def PoolPhase.name : PoolPhase → String
  | .created => "created"
  | .running => "running"
  | .draining => "draining"
  | .stopped => "stopped"

/-- The phases in order. -/
def PoolPhase.all : List PoolPhase := [.created, .running, .draining, .stopped]

/-- Why a request to a pool fails. -/
inductive PoolError where
  /-- The settings are refused. -/
  | invalidSettings (reason : String)
  /-- The pool has been started before. -/
  | alreadyStarted (name : String)
  /-- There is no handler for a new worker. -/
  | factory (reason : String)
  /-- A request to a worker failed. -/
  | worker (error : WorkerError)
  /-- Some workers did not stop in time. -/
  | stragglers (count : Nat)
  /-- Another shutdown is not done yet. -/
  | stillDraining (name : String)
  deriving DecidableEq, Repr

/-- The wording of a failed request. -/
def PoolError.message : PoolError → String
  | .invalidSettings reason => "invalid pool configuration: " ++ reason
  | .alreadyStarted name => "worker pool " ++ name ++ " was already started"
  | .factory reason => "worker factory failed: " ++ reason
  | .worker error => "worker error: " ++ error.message
  | .stragglers count =>
    toString count ++ " worker(s) did not stop within the shutdown timeout"
  | .stillDraining name => "worker pool " ++ name ++ " is still draining"

/-- The error of a pool that refuses its settings. -/
def PoolFault.error (fault : PoolFault) : PoolError := .invalidSettings fault.message

end Backpressure
