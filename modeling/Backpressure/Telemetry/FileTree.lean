/-!
# Files and directories

A tree of directories with text files, as far as opening a file for appending
needs it.  A path is taken apart at its slashes; `.` stays where it is, and `..`
goes up, but not above the root.

*Opening* first makes the directories that lead to the file, and then the file if
there is none.  It fails where a file stands in place of a directory, where the
path is a directory, or where a name cannot be a name.  A path that ends in a slash
or in `.` asks for a directory, which is not made.
-/

namespace Backpressure.Telemetry

/-- Why a file cannot be opened. -/
inductive FileFault where
  /-- There is nothing at the path, which asks for a directory. -/
  | missing
  /-- The path is a directory. -/
  | isDirectory
  /-- A file stands before the end of the path. -/
  | notDirectory
  /-- A file stands where the last directory of the path should be. -/
  | alreadyExists
  /-- A name has a character that no name has. -/
  | invalidName
  | nameTooLong
  deriving DecidableEq, Repr

/-- What stands at a place in the tree. -/
inductive FileNode where
  | directory
  | file (text : String)
  deriving DecidableEq, Repr

/-- A place in the tree: the names from the root. -/
abbrev Location := List String

/-- Directories and files below a root, which is a directory. -/
structure FileTree where
  /-- What stands at each place but the root. -/
  nodes : List (Location × FileNode) := []
  deriving Repr, Inhabited

namespace FileTree

/-- What stands at a place. -/
def node? (t : FileTree) (p : Location) : Option FileNode :=
  if p.isEmpty then some .directory else t.nodes.lookup p

/-- Puts something at a place. -/
def put (t : FileTree) (p : Location) (n : FileNode) : FileTree :=
  { nodes := (p, n) :: t.nodes.filter (·.1 != p) }

/-- The parts of a path between its slashes. -/
def parts (path : String) : List String := (path.splitOn "/").filter (!·.isEmpty)

/-- The names of a path that say where to go. -/
def names (path : String) : List String := (parts path).filter (· != ".")

/-- Whether a path ends in `.`. -/
def endsInDot (path : String) : Bool := (parts path).getLast? == some "."

/-- A path without the slashes and the `.` at its start. -/
def shortened (path : String) : String :=
  let rec trim : List Char → List Char
    | '/' :: rest => trim rest
    | '.' :: '/' :: rest => trim rest
    | cs => cs
  String.ofList (trim path.toList)

/-- Whether a name has a null character. -/
def hasNull (s : String) : Bool := s.toList.any (·.toNat == 0)

/-- The fault of a name, if it has one. -/
def nameFault (s : String) : Option FileFault :=
  if hasNull s then some .invalidName
  else if 255 < s.utf8ByteSize then some .nameTooLong
  else none

/-- Goes along names from a directory and makes the directories that are missing. -/
def makeDirectories (t : FileTree) (here : Location) : List String → Except FileFault (Location × FileTree)
  | [] => .ok (here, t)
  | name :: rest =>
    if name = ".." then t.makeDirectories here.dropLast rest
    else
      match nameFault name with
      | some fault => .error fault
      | none =>
        let next := here ++ [name]
        match t.node? next with
        | some .directory => t.makeDirectories next rest
        | some (.file _) => .error (if rest.isEmpty then .alreadyExists else .notDirectory)
        | none => (t.put next .directory).makeDirectories next rest

/-- Opens a file for appending; gives its place and what it holds, and the tree
after it, which has more directories even when the file cannot be opened. -/
def openFile (t : FileTree) (path : String) : Except FileFault (Location × String) × FileTree :=
  let ns := names path
  match ns.getLast? with
  | none => (.error .isDirectory, t)
  | some last =>
    match if ns.dropLast.any hasNull then .error .invalidName else t.makeDirectories [] ns.dropLast with
    | .error fault => (.error fault, t)
    | .ok (here, t) =>
      let p := here ++ [last]
      if last = ".." || (path.endsWith "/" && !endsInDot path) then (.error .isDirectory, t)
      else
        match nameFault last, t.node? p with
        | some fault, _ => (.error fault, t)
        | none, some .directory => (.error .isDirectory, t)
        | none, some (.file text) =>
          (if endsInDot path then .error .notDirectory else .ok (p, text), t)
        | none, none =>
          if endsInDot path then (.error .missing, t) else (.ok (p, ""), t.put p (.file ""))

/-- Goes along names from a directory to a place. -/
def follow (t : FileTree) (here : Location) : List String → Option Location
  | [] => some here
  | name :: rest =>
    match t.node? here with
    | some .directory =>
      t.follow (if name = ".." then here.dropLast else here ++ [name]) rest
    | _ => none

/-- The text of the file at a path, if there is one. -/
def readFile (t : FileTree) (path : String) : Option String :=
  if path.endsWith "/" || endsInDot path then none
  else
    match (t.follow [] (names path)).bind t.node? with
    | some (.file text) => some text
    | _ => none

end FileTree

end Backpressure.Telemetry
