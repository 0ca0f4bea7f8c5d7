import ScriptPreprocessor.CommandLine.Execution
import Std.Time.Zoned

namespace ScriptPreprocessor

/-!
# The program

Reads the files that a command may need into a file tree, executes the command line over it, and
carries its outcome out: texts on the standard streams and files that have changed.
-/

namespace Terminal

/-- How deep directories are followed.  A link that leads back up would otherwise be followed
forever. -/
def maxDepth : Nat := 64

def systemPath (place : Place) : String :=
  String.ofList (FileTree.pathOf place)

/-- The place of a path, as far as the path itself tells. -/
def placeOf (working : Place) (path : Text) : Place :=
  let start := if Path.isAbsolute path then [] else working
  (Path.names path).foldl (fun place name =>
    if Path.isSilent name then place
    else if name == "..".toList then place.dropLast
    else place ++ [name]) start

/-- The tree with the file at a place, if there is one.  What cannot be read is left out, and the
command finds nothing there. -/
def withFile (tree : FileTree) (place : Place) : IO FileTree := do
  if (tree.fileAt? place).isSome then return tree
  try
    let bytes ← IO.FS.readBinFile (systemPath place)
    return { tree with files := (place, bytes.toList) :: tree.files }
  catch _ => return tree

def withDirectory : Nat → FileTree → Place → IO FileTree
  | 0, tree, _ => return tree
  | depth + 1, tree, place => do
    if tree.directories.contains place then return tree
    try
      let mut tree := tree
      for entry in ← (← IO.FS.realPath (systemPath place)).readDir do
        let inner := place ++ [entry.fileName.toList]
        if ← entry.path.isDir then tree ← withDirectory depth tree inner
        else tree ← withFile tree inner
      return { tree with directories := place :: tree.directories }
    catch _ => return tree

def withConfigurations (tree : FileTree) (place : Place) : IO FileTree := do
  let mut tree := tree
  for directory in FileTree.placesUpward place do
    for name in Configuration.fileNames do
      tree ← withFile tree (directory ++ [name])
  return tree

/-- The directories whose contents a command may need. -/
def directoriesOf : Command → List Text
  | .preprocess script _ _ | .save script _ _ | .remap script _ _ =>
    Script.directoryOf script.file :: script.includeRoot.toList ++ script.inventory.toList
  | .load file _ _ => [Script.directoryOf file]
  | _ => []

/-- The directories that a command writes to.  They are read too, so that writing into one that is
not there fails as it should. -/
def destinationOf : Command → List Text
  | .preprocess _ _ output | .save _ _ output | .load _ _ output =>
    output.toList.map Script.directoryOf
  | _ => []

def directoriesOfConfiguration (configuration : Configuration) : List Text :=
  let settings := configuration.includes.getD {}
  settings.includeRoot.toList ++ settings.homeDirectory.toList

/-- Whether a file may ask for the home directory.  Reading all of it is worth avoiding, and no
search path leads there without these two characters. -/
def asksHome (bytes : Bytes) : Bool :=
  (Utf8.decode bytes).contains "~/".toList

/-- The tree with everything below some paths, and the configuration files above them. -/
def withPaths (tree : FileTree) (paths : List Text) : IO FileTree := do
  let mut tree := tree
  for path in paths do
    let place := placeOf tree.workingDirectory path
    tree ← withDirectory maxDepth tree place
    tree ← withConfigurations tree place
  return tree

/-- Reads what an invocation may need.  This is more than it will look at: the command itself runs
on the tree alone, and so it cannot reach for a file later. -/
def surroundingsOf (invocation : Invocation) : IO Surroundings := do
  let now ← Std.Time.PlainDateTime.now
  let clock : Instant :=
    ⟨now.year.toInt.toNat, now.month.toNat, now.day.toNat, now.hour.toNat, now.minute.toNat,
      now.second.toNat⟩
  let home := (← IO.getEnv "HOME").map String.toList
  let workingDirectory := placeOf [] (← IO.currentDir).toString.toList
  let directories := directoriesOf invocation.command
  let mut tree ← withPaths { workingDirectory } (['.'] :: directories)
  if let some path := invocation.configurationFile then
    tree ← withFile tree (placeOf workingDirectory path)
  let here : Surroundings := { tree, home, clock }
  match here.configuration invocation.configurationFile (directories.headD ['.']) with
  | .ok configuration => tree ← withPaths tree (directoriesOfConfiguration configuration)
  | .error _ => pure ()
  if tree.files.any fun (_, bytes) => asksHome bytes then
    tree ← withPaths tree home.toList
  tree ← withPaths tree (destinationOf invocation.command)
  return { tree, home, clock }

def writeChanges (before after : FileTree) : IO Unit := do
  for (place, bytes) in after.files do
    if before.fileAt? place != some bytes then
      IO.FS.writeBinFile (systemPath place) ⟨bytes.toArray⟩

def run (arguments : List Text) : IO Nat := do
  match Invocation.parse? arguments with
  | none => IO.eprint (String.ofList helpText)
  | some invocation =>
    let surroundings ← surroundingsOf invocation
    let outcome := invocation.perform surroundings
    writeChanges surroundings.tree outcome.tree
    IO.print (String.ofList outcome.output)
    IO.eprint (String.ofList outcome.remarks)
    if let some failure := outcome.failure then
      IO.eprintln (String.ofList (programName ++ " failed: ".toList ++ failure.message))
    return exitCode (some outcome)
  return exitCode none

end Terminal

end ScriptPreprocessor

def main (arguments : List String) : IO UInt32 := do
  return UInt32.ofNat (← ScriptPreprocessor.Terminal.run (arguments.map String.toList))
