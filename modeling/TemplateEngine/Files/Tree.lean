import TemplateEngine.Encoding.Unicode
import TemplateEngine.Files.Error
import TemplateEngine.Text.Basic

/-!
# File trees

Files and directories, each at its place below the root, and the directory that
relative paths start from. A file has the time of its last change. Following a path
goes from directory to directory, so a path through a file leads nowhere, and so
does one with a slash after a file.
-/

/-!
## Paths

A path is a text whose parts are separated by slashes. Two paths are the same path
if they differ only in repeated slashes, in a slash at the end, or in dots between
slashes; that they lead to the same file is not enough.
-/
namespace TemplateEngine.Path

/-- Whether a path starts at the root. -/
def isAbsolute (path : Text) : Bool := path.head? = some '/'

/-- The parts of a path between its slashes. -/
def parts (path : Text) : List Text := Text.cutAt '/' path

/-- A path below a directory, unless it is absolute. -/
def join (dir path : Text) : Text :=
  if isAbsolute path then path
  else if dir.isEmpty || dir.getLast? = some '/' then dir ++ path
  else dir ++ '/' :: path

/-- What two spellings of the same path have in common: the parts that count, after an
empty one if the path starts at the root. A dot counts only where a path starts. -/
def key (path : Text) : List Text :=
  let counts (part : Text) : Bool := !part.isEmpty && part != ['.']
  if isAbsolute path then [] :: (parts path).filter counts
  else
    match parts path with
    | first :: rest => (if first.isEmpty then [] else [first]) ++ rest.filter counts
    | [] => []

end TemplateEngine.Path

/-! ## Trees -/

namespace TemplateEngine

/-- What is at a place in a file tree. -/
inductive FileNode where
  | directory
  | file (bytes : Bytes) (stamp : Nat)
  deriving DecidableEq, Repr

/-- Files and directories, and where relative paths start. -/
structure FileTree where
  nodes : List (List Text × FileNode)
  working : List Text
  deriving DecidableEq, Repr

namespace FileTree

/-- A tree that is empty but for the directory that relative paths start from. -/
def fresh : FileTree := ⟨[(["work".toList], .directory)], ["work".toList]⟩

/-- What is at a place. The root is always a directory. -/
def node? (t : FileTree) (place : List Text) : Option FileNode :=
  if place.isEmpty then some .directory else t.nodes.lookup place

/-- The tree with something put at a place, and directories above it where there is
nothing. -/
def put (place : List Text) (node : FileNode) (t : FileTree) : FileTree :=
  let above := (List.range place.length).map fun n => place.take n
  let missing := above.filter fun dir => (t.node? dir).isNone
  let others := t.nodes.filter fun entry => entry.1 ≠ place
  { t with nodes := missing.map (fun dir => (dir, .directory)) ++ others ++ [(place, node)] }

/-- The tree without what is at a place. -/
def erase (place : List Text) (t : FileTree) : FileTree :=
  { t with nodes := t.nodes.filter fun entry => entry.1 ≠ place }

/-- Where the parts of a path lead from a place. -/
def follow (t : FileTree) : List Text → List Text → Except FileError (List Text)
  | place, [] => .ok place
  | place, part :: parts =>
    match t.node? place with
    | none => .error .missing
    | some (.file _ _) => .error .notDirectory
    | some .directory =>
      if part.isEmpty || part = ['.'] then follow t place parts
      else if part = ['.', '.'] then follow t place.dropLast parts
      else
        match t.node? (place ++ [part]) with
        | none => .error .missing
        | some _ => follow t (place ++ [part]) parts

/-- Where relative or absolute paths start. -/
def origin (t : FileTree) (path : Text) : List Text :=
  if Path.isAbsolute path then [] else t.working

/-- The place that a path leads to. -/
def resolve (t : FileTree) (path : Text) : Except FileError (List Text) :=
  if path.isEmpty then .error .missing else t.follow (t.origin path) (Path.parts path)

/-- The place that a path would lead to if nothing were missing on the way. -/
def target (t : FileTree) (path : Text) : List Text :=
  (Path.parts path).foldl (fun place part =>
    if part.isEmpty || part = ['.'] then place
    else if part = ['.', '.'] then place.dropLast
    else place ++ [part]) (t.origin path)

/-- Whether a path leads to something. -/
def exists? (t : FileTree) (path : Text) : Bool :=
  match t.resolve path with
  | .ok _ => true
  | .error _ => false

/-- The time of the last change of what a path leads to. Directories have none that
matters. -/
def stamp (t : FileTree) (path : Text) : Except FileError Nat :=
  (t.resolve path).map fun place =>
    match t.node? place with
    | some (.file _ stamp) => stamp
    | _ => 0

/-- The bytes of the file that a path leads to. -/
def read (t : FileTree) (path : Text) : Except FileError Bytes := do
  match t.node? (← t.resolve path) with
  | some (.file bytes _) => return bytes
  | _ => throw .isDirectory

/-- The names in the directory that a path leads to. -/
def names? (t : FileTree) (path : Text) : Option (List Text) :=
  match t.resolve path with
  | .error _ => none
  | .ok place =>
    match t.node? place with
    | some .directory =>
      some ((t.nodes.filter fun entry => !entry.1.isEmpty && entry.1.dropLast = place).filterMap
        fun entry => entry.1.getLast?)
    | _ => none

/-- The tree with a file written where a path points. -/
def write (path : Text) (bytes : Bytes) (stamp : Nat) (t : FileTree) : FileTree :=
  t.put (t.target path) (.file bytes stamp)

/-- The tree with another time on the file that a path leads to. -/
def touch (path : Text) (stamp : Nat) (t : FileTree) : FileTree :=
  match t.resolve path with
  | .error _ => t
  | .ok place =>
    match t.node? place with
    | some (.file bytes _) => t.put place (.file bytes stamp)
    | _ => t

/-- The tree without the file that a path leads to. -/
def remove (path : Text) (t : FileTree) : FileTree :=
  match t.resolve path with
  | .error _ => t
  | .ok place =>
    match t.node? place with
    | some (.file _ _) => t.erase place
    | _ => t

/-- The tree with a directory at a place and above it, if no file is in the way. -/
def makeDirectory? (place : List Text) (t : FileTree) : Option FileTree :=
  let above := (List.range (place.length + 1)).map fun n => place.take n
  let isFile (dir : List Text) : Bool :=
    match t.node? dir with
    | some (.file _ _) => true
    | _ => false
  if above.any isFile then none
  else if (t.node? place).isSome then some t
  else some (t.put place .directory)

/-- The tree with a file in a directory that is made if it is missing. Nothing is written
where a file takes the place of the directory or a directory that of the file. -/
def writeInto (dir name : Text) (bytes : Bytes) (stamp : Nat) (t : FileTree) : FileTree :=
  let place := if dir.isEmpty then t.working else t.target dir
  match t.makeDirectory? place with
  | none => t
  | some t =>
    match t.node? (place ++ [name]) with
    | some .directory => t
    | _ => t.put (place ++ [name]) (.file bytes stamp)

end FileTree

end TemplateEngine
