import TemplateEngine.CommandLine.Run

/-!
# The program

Runs the command line on the files below the working directory, on the files that the
arguments name, and on the settings of the user. Below the working directory, large
files and deep directories are passed over. Afterwards it prints what the run prints
and writes the files that the run changed.
-/
namespace TemplateEngine.Main

/-- How deep directories are read below the working directory. -/
def maxDepth : Nat := 8

/-- How many bytes a file has at most that no argument names. -/
def maxBytes : Nat := 0x100000

/-- The tree with a file of the system, unless the file is too large. -/
def withFile (largest : Option Nat) (path : String) (tree : FileTree) : IO FileTree := do
  let place := (← IO.currentDir) / path
  try
    let known ← place.metadata
    if largest.any (· < known.byteSize.toNat) then return tree
    let bytes ← IO.FS.readBinFile place
    return tree.write path bytes.toList known.modified.sec.toNat
  catch _ => return tree

/-- The tree with a directory of the system and what is in it, down to a depth. -/
def withDirectory : Nat → String → FileTree → IO FileTree
  | 0, _, tree => return tree
  | depth + 1, path, tree => do
    let mut tree := (tree.makeDirectory? (tree.target path)).getD tree
    for entry in ← ((← IO.currentDir) / path).readDir do
      let inner := entry.path.toString
      if ← entry.path.isDir then tree ← withDirectory depth inner tree
      else tree ← withFile maxBytes inner tree
    return tree

/-- The tree with what a path leads to, unless it is there or the path is empty. -/
def withPath (tree : FileTree) (path : String) : IO FileTree := do
  if path.isEmpty || tree.exists? path then return tree
  else if ← ((← IO.currentDir) / path).isDir then withDirectory 1 path tree
  else withFile none path tree

/-- Variables of the environment that a run looks at. -/
def environment : IO Environment := do
  let mut known : Environment := []
  for name in ["XDG_CONFIG_HOME", "HOME", "APPDATA"] do
    if let some value ← IO.getEnv name then known := known ++ [(name.toList, value.toList)]
  return known

/-- The paths that arguments may name, alone or after an equals sign. -/
def named (arguments : List String) : List String :=
  arguments.flatMap fun argument =>
    [argument, String.ofList ((argument.toList.dropWhile (· ≠ '=')).drop 1)]

/-- What a run of the program is started with. No file is newer than the run. -/
def surroundings (arguments : List String) : IO CommandLine.Surroundings := do
  let environment ← environment
  let working := (← IO.currentDir).toString
  let below := (Path.parts working).filter fun part => !part.isEmpty
  let user := (Settings.userFile? environment).toList.map String.ofList
  let tree ← withDirectory maxDepth working ⟨[], below⟩
  let files ← (named arguments ++ user).foldlM withPath tree
  let stamps := files.nodes.map fun (_, node) =>
    match node with
    | .file _ stamp => stamp
    | .directory => 0
  return ⟨files, environment, stamps.foldl max 0⟩

/-- Writes the files of a tree that another tree does not have. -/
def writeChanges (before after : FileTree) : IO Unit := do
  for (place, node) in after.nodes do
    if let .file bytes _ := node then
      if before.node? place ≠ some node then
        let path (parts : List Text) : String :=
          String.ofList (parts.flatMap fun part => '/' :: part)
        IO.FS.createDirAll (path place.dropLast)
        IO.FS.writeBinFile (path place) ⟨bytes.toArray⟩

end TemplateEngine.Main

open TemplateEngine in
/-- The program. -/
def main (arguments : List String) : IO UInt32 := do
  let start ← Main.surroundings arguments
  let outcome := CommandLine.run start (arguments.map String.toList)
  Main.writeChanges start.files outcome.files
  IO.print (String.ofList outcome.output)
  IO.eprint (String.ofList outcome.errors)
  return UInt32.ofNat outcome.exitCode
