import Backpressure.Worker.Phase

/-!
# The phases of a sink, and the errors of sinks and writers

A sink runs, is switched off, or is shut down.  Only the last is final.
-/

namespace Backpressure

/-- The phase of a telemetry sink. -/
inductive SinkPhase where
  /-- Accepting items. -/
  | running
  /-- Switched off; items are refused. -/
  | disabled
  /-- Shut down for good. -/
  | shutDown
  deriving DecidableEq, Repr, Inhabited

/-- The name of a phase. -/
def SinkPhase.name : SinkPhase → String
  | .running => "running"
  | .disabled => "disabled"
  | .shutDown => "shut_down"

/-- The phases in order. -/
def SinkPhase.all : List SinkPhase := [.running, .disabled, .shutDown]

/-- Why a sink is not made. -/
inductive SinkError where
  /-- The settings are refused. -/
  | invalidSettings (reason : String)
  /-- A request to the flush worker failed. -/
  | worker (error : WorkerError)
  deriving DecidableEq, Repr

/-- The wording of a failed request. -/
def SinkError.message : SinkError → String
  | .invalidSettings reason => "invalid sink configuration: " ++ reason
  | .worker error => "worker error: " ++ error.message

/-- Why a writer does not write. -/
inductive WriteError where
  /-- The store failed. -/
  | failed (reason : String)
  /-- A line could not be put into the form that the store wants. -/
  | unencodable (reason : String)
  /-- The writer is closed. -/
  | closed
  deriving DecidableEq, Repr

/-- The wording of a failed write. -/
def WriteError.message : WriteError → String
  | .failed reason => "I/O error: " ++ reason
  | .unencodable reason => "encode error: " ++ reason
  | .closed => "writer is closed"

end Backpressure
