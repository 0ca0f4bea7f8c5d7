import ScriptPreprocessor.Configuration.Form
import ScriptPreprocessor.Failure
import ScriptPreprocessor.FileTree

namespace ScriptPreprocessor

/-!
# Configuration files

A configuration is loaded from a file that is named, or from the nearest one above a place: each
directory on the way up to the root is searched for the known file names in order.  A named file
must be there; without any file the defaults count.
-/

/-- Why no configuration could be loaded.  Finding none is no problem unless a file was named, so
there is no case for it among the searches. -/
inductive ConfigurationProblem where
  /-- A file that was named is not there. -/
  | missing (path : Text)
  | unreadable (path cause : Text)
  /-- The ending of a file name says neither TOML nor JSON. -/
  | unsupported (path : Text)
  /-- The contents of a file are no configuration. -/
  | malformed (path : Text)
  /-- The place to search from is not there. -/
  | invalidStart (cause : Text)
  deriving DecidableEq, Repr

namespace ConfigurationProblem

/-- The wording of a problem.  A file that cannot be read is told twice, as a failure to load and
with the failure of the file in it; for the others the path is enough. -/
def message : ConfigurationProblem → Text
  | .missing path =>
    "Config file not found: ".toList ++ path ++
      ". Run 'lslpp config init' to create one.".toList
  | .unreadable path cause =>
    "Failed to load config from '".toList ++ path ++ "': ".toList ++
      (Failure.file path cause).message
  | .unsupported path =>
    "Unsupported config file extension (expected .toml or .json): ".toList ++ path
  | .malformed path => path ++ ": not a configuration".toList
  | .invalidStart cause => "Invalid path: ".toList ++ cause

def failure (problem : ConfigurationProblem) : Failure :=
  .configuration problem.message

end ConfigurationProblem

namespace FileTree

def notText : Text :=
  "stream did not contain valid UTF-8".toList

/-- The text of the file at a path, or why it cannot be had.  Bytes that are no text count as
unreadable, as in a reader that returns strings. -/
def readText (tree : FileTree) (path : Text) : Except Text Text :=
  match tree.read path with
  | .error problem => .error problem.message
  | .ok bytes => if Utf8.isValid bytes then .ok (Utf8.decode bytes) else .error notText

/-- The places of a place and of the directories above it, from the innermost to the root. -/
def placesUpward (place : Place) : List Place :=
  (List.range (place.length + 1)).reverse.map fun length => place.take length

def pathOf (place : Place) : Text :=
  '/' :: Text.join ['/'] place

end FileTree

namespace Configuration

/-- The names of configuration files, in the order in which they are looked for.  In one directory
the hidden files come first, and TOML comes before JSON. -/
def fileNames : List Text :=
  [".lslpprc.toml".toList, ".lslpprc.json".toList, "lslpp.toml".toList, "lslpp.json".toList]

/-- The ending of a file name behind its last dot.  A dot at the beginning begins no ending. -/
def extension? (path : Text) : Option Text := do
  let name ← Path.fileName? path
  let (stem, ending) ← name.splitLast? '.'
  if stem.isEmpty then none else some ending

/-- The reader for files with an ending.  The ending decides, never the contents, and its letters
have to be small. -/
def reader? (extension : Option Text) : Option (Text → Option Configuration) :=
  if extension = some "toml".toList then some parseToml?
  else if extension = some "json".toList then some parseJson?
  else none

/-- Loads the file at a path.  The file is read before its ending is looked at, so a file that is
not there is unreadable whatever its name is. -/
def loadFile (tree : FileTree) (path : Text) : Except ConfigurationProblem Configuration :=
  match tree.readText path with
  | .error cause => .error (.unreadable path cause)
  | .ok text =>
    match reader? (extension? path) with
    | none => .error (.unsupported path)
    | some reader =>
      match reader text with
      | some configuration => .ok configuration
      | none => .error (.malformed path)

/-- The nearest configuration file above the place that a path leads to.  Nearness counts before the
order of the names: a file with the last name in a directory hides all of those further up. -/
def discover (tree : FileTree) (start : Text) : Except ConfigurationProblem (Option Place) :=
  match tree.existing start with
  | .error problem => .error (.invalidStart problem.message)
  | .ok place =>
    let candidates := (FileTree.placesUpward place).flatMap fun directory =>
      fileNames.map fun name => directory ++ [name]
    .ok (candidates.find? fun candidate => (tree.fileAt? candidate).isSome)

/-- Loads a file that is named, or the nearest one above the place that a path leads to.  Only a
named file has to be there; the search may find nothing, and a directory with the name of a file
does not end it. -/
def load (tree : FileTree) (named : Option Text) (start : Text) :
    Except ConfigurationProblem Configuration :=
  match named with
  | some path => if tree.pathExists path then loadFile tree path else .error (.missing path)
  | none =>
    match discover tree start with
    | .error problem => .error problem
    | .ok none => .ok {}
    | .ok (some place) => loadFile tree (FileTree.pathOf place)

end Configuration

end ScriptPreprocessor
