import Backpressure.Simulation.Stage
import Backpressure.Telemetry.FileTree
import Backpressure.Telemetry.LineFile
import Backpressure.Telemetry.MemoryWriter

/-!
# Scripts for a writer

A writer is used directly, without a sink.  A writer in memory is there from the
start.  Writers to files are opened by the script, and a writer that is opened
takes the place of the one before, whose buffer is lost.
-/

namespace Backpressure.Simulation

open Telemetry (FileFault FileTree LineFile Location MemoryWriter)

/-- A step of a script for a writer. -/
inductive WriterStep where
  | openFile (path : String)
  | append (lines : List String)
  | flush
  | close
  /-- Asks for the text of the file that was opened last. -/
  | read
  /-- Lets time pass. -/
  | advance (millis : Nat)
  deriving Repr

/-- What a step of a script for a writer gives. -/
inductive WriterResult where
  | nothing
  /-- The file that was opened, or why there is none. -/
  | opened (r : Except FileFault String)
  /-- What became of each line. -/
  | appended (each : List (Except WriteError Unit))
  /-- What became of a flush or a close. -/
  | ended (r : Except WriteError Unit)
  /-- The text of a file, if there is one. -/
  | text (s : Option String)

/-- The writers of a script. -/
inductive WriterDesk where
  /-- A writer in memory; each line takes some milliseconds. -/
  | memory (writer : MemoryWriter) (delay : Nat)
  /-- A tree of files, the writer and its place, if there is one, and the path that
  was opened last. -/
  | files (tree : FileTree) (writer : Option (Location × LineFile)) (path : Option String)
  deriving Repr

namespace WriterDesk

/-- A result without its value, and the value, or what was there before. -/
def keep {α : Type} (old : α) : Except WriteError α → Except WriteError Unit × α
  | .ok new => (.ok (), new)
  | .error e => (.error e, old)

/-- Appends lines to a writer in memory; gives the moment of the end. -/
def appendToMemory (delay : Nat) : List String → Instant → MemoryWriter →
    List (Except WriteError Unit) × Instant × MemoryWriter
  | [], now, w => ([], now, w)
  | line :: rest, now, w =>
    let now := if w.closed then now else now.afterWait (Duration.ofMillis delay)
    let (r, w) := keep w (w.append line)
    let (each, now, w) := appendToMemory delay rest now w
    (r :: each, now, w)

/-- Appends lines to a file. -/
def appendToFile : List String → LineFile → List (Except WriteError Unit) × LineFile
  | [], w => ([], w)
  | line :: rest, w =>
    let (r, w) := keep w (w.append line)
    let (each, w) := appendToFile rest w
    (r :: each, w)

/-- The writer to a file did something; what it stored is in the tree. -/
def stored (tree : FileTree) (place : Location) (w : LineFile) (path : Option String) : WriterDesk :=
  .files (tree.put place (.file w.stored)) (some (place, w)) path

/-- One step of a script. -/
def act (scene : Scene WriterDesk) (step : WriterStep) : WriterResult × Scene WriterDesk :=
  match step, scene.state with
  | .advance ms, _ => (.nothing, { scene with now := scene.now + Duration.ofMillis ms })
  | .append lines, .memory w delay =>
    let (each, now, w) := appendToMemory delay lines scene.now w
    (.appended each, { now, state := .memory w delay })
  | .flush, .memory w delay =>
    let (r, w) := keep w w.flush
    (.ended r, { scene with state := .memory w delay })
  | .close, .memory w delay =>
    let (r, w) := keep w w.close
    (.ended r, { scene with state := .memory w delay })
  | .openFile path, .files tree writer _ =>
    match tree.openFile path with
    | (.ok (place, text), tree) =>
      (.opened (.ok (FileTree.shortened path)),
        { scene with state := .files tree (some (place, .ofText text)) (some path) })
    | (.error fault, tree) =>
      (.opened (.error fault), { scene with state := .files tree writer (some path) })
  | .append lines, .files tree (some (place, w)) path =>
    let (each, w) := appendToFile lines w
    (.appended each, { scene with state := stored tree place w path })
  | .flush, .files tree (some (place, w)) path =>
    let (r, w) := keep w w.flush
    (.ended r, { scene with state := stored tree place w path })
  | .close, .files tree (some (place, w)) path =>
    let (r, w) := keep w w.close
    (.ended r, { scene with state := stored tree place w path })
  | .read, .files tree _ path => (.text (path.bind tree.readFile), scene)
  | _, _ => (.nothing, scene)

/-- The lines of a writer in memory that can be seen. -/
def lines : WriterDesk → Option (List String)
  | .memory w _ => some w.lines
  | .files .. => none

end WriterDesk

/-- The answers of a script for a writer, each with the lines that can be seen. -/
def runWriter (desk : WriterDesk) (steps : List WriterStep) :
    List (WriterResult × Instant × Option (List String)) :=
  let start : Scene WriterDesk := { state := desk }
  perform (fun scene step =>
    let (result, scene) := WriterDesk.act scene step
    ((result, scene.now, scene.state.lines), scene)) start steps

end Backpressure.Simulation
