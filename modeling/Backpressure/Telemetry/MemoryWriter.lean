import Backpressure.Telemetry.Phase

/-!
# A writer that keeps its lines in memory

Lines are pending until the writer is flushed, and visible from then on.  A writer
can be made to fail: then it takes a number of lines and no more.  Closing flushes
once; a closed writer takes nothing and cannot be flushed, but can be closed again.
-/

namespace Backpressure.Telemetry

/-- A writer that keeps its lines in memory. -/
structure MemoryWriter where
  /-- The visible lines. -/
  lines : List String := []
  /-- The lines that are not visible yet. -/
  pending : List String := []
  /-- The number of lines after which the writer fails, if it does. -/
  failAfter : Option Nat := none
  /-- The number of lines that were taken. -/
  taken : Nat := 0
  /-- Whether the writer is closed. -/
  closed : Bool := false
  deriving Repr, Inhabited, DecidableEq

namespace MemoryWriter

/-- Takes a line. -/
def append (w : MemoryWriter) (line : String) : Except WriteError MemoryWriter :=
  if w.closed then .error .closed
  else if w.failAfter.any (· ≤ w.taken) then .error (.failed "injected append failure")
  else .ok { w with pending := w.pending ++ [line], taken := w.taken + 1 }

/-- Makes all lines visible. -/
def flush (w : MemoryWriter) : Except WriteError MemoryWriter :=
  if w.closed then .error .closed
  else .ok { w with lines := w.lines ++ w.pending, pending := [] }

/-- Flushes and closes; a closed writer stays as it is. -/
def close (w : MemoryWriter) : Except WriteError MemoryWriter :=
  if w.closed then .ok w else w.flush.map fun w => { w with closed := true }

end MemoryWriter

end Backpressure.Telemetry
