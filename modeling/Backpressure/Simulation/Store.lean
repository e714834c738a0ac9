import Backpressure.Simulation.Stage
import Backpressure.Sink.Basic
import Backpressure.Telemetry.MemoryWriter

/-!
# Writers of a script

A writer of a script either keeps its lines in memory or plays what the script
says.  A request takes some time, and its effect comes at the end of that time:
a request that nobody waits for any more has none.
-/

namespace Backpressure.Simulation

open Telemetry (MemoryWriter)

/-- How a request to a writer is played. -/
structure Play where
  /-- The milliseconds that it takes. -/
  delay : Nat := 0
  reply : WriterReply := .done
  deriving Repr, Inhabited

/-- A writer that plays what the script says, and afterwards does what it is asked for. -/
structure PlayedWriter where
  /-- The lines that it took. -/
  stored : List String := []
  /-- How lines are taken. -/
  appends : List Play := []
  /-- How flushes go. -/
  flushes : List Play := []
  /-- How closing goes; if that is not said, closing is a flush. -/
  close : Option Play := none
  deriving Repr, Inhabited

/-- A writer of a script. -/
inductive Store where
  /-- Lines are kept in memory, and each takes some milliseconds. -/
  | memory (writer : MemoryWriter) (delay : Nat)
  /-- Everything goes as the script says. -/
  | played (writer : PlayedWriter)
  deriving Repr, Inhabited

/-- A line that a writer writes into the log. -/
inductive StoreNote where
  /-- A flush begins. -/
  | flush
  /-- Closing begins. -/
  | close
  deriving Repr, DecidableEq

/-- A request to a writer that is under way. -/
structure StoreJob where
  /-- How many milliseconds it takes. -/
  delay : Nat := 0
  reply : WriterReply
  /-- The writer at the end. -/
  after : Store
  deriving Repr

/-- A request to a writer begins: the log, the writer meanwhile, and what is under way. -/
structure StoreTurn where
  /-- What is written into the log. -/
  note : Option StoreNote := none
  /-- The writer meanwhile. -/
  store : Store
  /-- What is under way. -/
  job : StoreJob

namespace PlayedWriter

/-- Takes a line as the script says. -/
def append (w : PlayedWriter) (line : String) : StoreTurn :=
  let play := w.appends.headD {}
  let w := { w with appends := w.appends.tail }
  let after := if play.reply = .done then { w with stored := w.stored ++ [line] } else w
  { store := .played w, job := { delay := play.delay, reply := play.reply, after := .played after } }

/-- Flushes as the script says. -/
def flush (w : PlayedWriter) : StoreTurn :=
  let play := w.flushes.headD {}
  let w := { w with flushes := w.flushes.tail }
  { note := some .flush
    store := .played w
    job := { delay := play.delay, reply := play.reply, after := .played w } }

/-- Closes as the script says. -/
def shut (w : PlayedWriter) : StoreTurn :=
  match w.close with
  | none => w.flush
  | some play =>
    { note := some .close
      store := .played w
      job := { delay := play.delay, reply := play.reply, after := .played w } }

end PlayedWriter

namespace Store

/-- What a writer in memory does in some milliseconds. -/
def ofMemory (w : MemoryWriter) (delay taken : Nat) (r : Except WriteError MemoryWriter) :
    StoreTurn where
  store := .memory w delay
  job := match r with
    | .ok after => { delay := taken, reply := .done, after := .memory after delay }
    | .error e => { delay := taken, reply := .failed e, after := .memory w delay }

/-- A request begins. -/
def ask : Store → WriterRequest → StoreTurn
  | .memory w delay, .append line => ofMemory w delay (if w.closed then 0 else delay) (w.append line)
  | .memory w delay, .flush => ofMemory w delay 0 w.flush
  | .memory w delay, .close => ofMemory w delay 0 w.close
  | .played w, .append line => w.append line
  | .played w, .flush => w.flush
  | .played w, .close => w.shut

/-- The lines that can be seen. -/
def lines : Store → List String
  | .memory w _ => w.lines
  | .played w => w.stored

end Store

end Backpressure.Simulation
