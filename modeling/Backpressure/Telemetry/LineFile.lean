import Backpressure.Telemetry.Phase

/-!
# A writer that appends lines to a file

Each line is followed by a line feed.  What is written goes through a buffer of
8 KiB: when a piece does not fit behind what is there, the buffer goes to the file
first, and a piece as large as the buffer goes to the file at once.  A flush sends
the rest.  What is still in the buffer of a writer that is thrown away is lost.

Closing flushes; a closed writer takes nothing and cannot be flushed, but can be
closed again.
-/

namespace Backpressure.Telemetry

/-- The size of the buffer in bytes. -/
def bufferSize : Nat := 8192

/-- A writer that appends lines to a file. -/
structure LineFile where
  /-- What the file holds. -/
  stored : String := ""
  /-- What the buffer holds. -/
  buffer : String := ""
  /-- Whether the writer is closed. -/
  closed : Bool := false
  deriving Repr, Inhabited, DecidableEq

namespace LineFile

/-- A writer at the end of what a file holds. -/
def ofText (s : String) : LineFile := { stored := s }

/-- Sends the buffer to the file. -/
def drain (w : LineFile) : LineFile := { w with stored := w.stored ++ w.buffer, buffer := "" }

/-- Writes a piece of text. -/
def write (w : LineFile) (s : String) : LineFile :=
  let w := if bufferSize < w.buffer.utf8ByteSize + s.utf8ByteSize then w.drain else w
  if bufferSize ≤ s.utf8ByteSize then { w with stored := w.stored ++ s }
  else { w with buffer := w.buffer ++ s }

/-- Takes a line. -/
def append (w : LineFile) (line : String) : Except WriteError LineFile :=
  if w.closed then .error .closed else .ok ((w.write line).write "\n")

/-- Sends everything to the file. -/
def flush (w : LineFile) : Except WriteError LineFile :=
  if w.closed then .error .closed else .ok w.drain

/-- Flushes and closes; a closed writer stays as it is. -/
def close (w : LineFile) : Except WriteError LineFile :=
  if w.closed then .ok w else .ok { w.drain with closed := true }

/-- Everything that was written, on its way or in the file. -/
def text (w : LineFile) : String := w.stored ++ w.buffer

end LineFile

end Backpressure.Telemetry
