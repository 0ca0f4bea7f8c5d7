import ScriptPreprocessor.CommandLine.Command
import ScriptPreprocessor.Configuration.File
import ScriptPreprocessor.LiveSession

namespace ScriptPreprocessor

/-!
# Scripts of the command line

A command works on a script in a file.  The configuration is the one that is named, or the nearest
one above the script; relative includes start at the directory of the script, unless another root
is chosen.  A stored document is worked on as the source that it holds.
-/

/-- What a command finds around it. -/
structure Surroundings where
  tree : FileTree
  /-- The home directory of the user. -/
  home : Option Text := none
  clock : Instant

inductive CommandFailure where
  | failure (cause : Failure)
  | unreadableScript (file cause : Text)
  | unreadableDocument (file cause : Text)
  | missingInventory (directory : Text)
  /-- A document was never saved with a compiled text. -/
  | notCompiled (file : Text)
  /-- There are errors in a script. -/
  | erroneousScript (file : Text)
  | configurationExists (file : Text)
  | unwritableConfiguration (file cause : Text)
  | unwritable (file cause : Text)
  /-- The format of the date or the time has no meaning. -/
  | meaninglessFormat
  deriving DecidableEq, Repr

def CommandFailure.message : CommandFailure → Text
  | .failure cause => cause.message
  | .unreadableScript file cause =>
    "Failed to read script '".toList ++ file ++ "': ".toList ++ cause
  | .unreadableDocument file cause =>
    "Failed to read document '".toList ++ file ++ "': ".toList ++ cause
  | .missingInventory directory => "Inventory directory not found: ".toList ++ directory
  | .notCompiled file => '\'' :: file ++ "' holds no compiled text".toList
  | .erroneousScript file => "Preprocessing '".toList ++ file ++ "' reported errors".toList
  | .configurationExists file =>
    "Configuration file '".toList ++ file ++ "' already exists".toList
  | .unwritableConfiguration file cause =>
    "Failed to write '".toList ++ file ++ "': ".toList ++ cause
  | .unwritable file cause => (Failure.file file cause).message ++ ": ".toList ++ cause
  | .meaninglessFormat => "Invalid date or time format".toList

/-- The configuration that is named, or the nearest one above a place. -/
def Surroundings.configuration (surroundings : Surroundings) (named : Option Text)
    (place : Text) : Except CommandFailure Configuration :=
  (Configuration.load surroundings.tree named place).mapError fun problem =>
    .failure problem.failure

/-- A script with all that its preprocessing needs. -/
structure Script where
  unit : SourceUnit
  sources : IncludeSources
  configuration : Configuration

namespace Script

/-- The directory of a file.  Path functions give the empty path for the current directory, but
nothing can be found below that, so it is spelled out. -/
def directoryOf (file : Text) : Text :=
  let directory := Path.directory file
  if directory.isEmpty then ['.'] else directory

/-- The inventory that a directory stands for.  The directory must be there: an inventory that is
chosen by mistake would otherwise only make every include fail. -/
def inventory? (tree : FileTree) : Option Text → Except CommandFailure (Option AssetStore)
  | none => .ok none
  | some directory =>
    if tree.isDirectory directory then .ok (some { catalog := .directory tree directory })
    else .error (.missingInventory directory)

/-- The unit of a script with a text.  It bears the name of its file without the directories, and
its text is the source that the stored document holds. -/
def unitOf (choice : ScriptChoice) (text : Text) : SourceUnit where
  name := (Path.fileName? choice.file).getD choice.file
  text := (Document.load text).text
  location :=
    match choice.folder with
    | some folder => some (.inventory (Folder.ofPath folder).path)
    | none => some (.filesystem (directoryOf choice.file))

/-- Loads a script.  What is chosen on the command line goes before the configuration, and the
configuration before the places that the script itself suggests. -/
def load (surroundings : Surroundings) (configurationFile : Option Text)
    (choice : ScriptChoice) : Except CommandFailure Script := do
  let tree := surroundings.tree
  let directory := directoryOf choice.file
  let chosen ← surroundings.configuration configurationFile directory
  let text ← (tree.readText choice.file).mapError (.unreadableScript choice.file)
  let settings := chosen.includeSettings surroundings.home directory
  let store ← inventory? tree choice.inventory
  return { unit := unitOf choice text
           configuration := chosen
           sources :=
             { settings :=
                 { settings with includeRoot := choice.includeRoot.getD settings.includeRoot }
               files := .ofTree tree
               store } }

/-- Preprocesses a script to its end. -/
def run (script : Script) (clock : Instant) : Except CommandFailure LiveSession :=
  match script.configuration.environmentAt? clock with
  | none => .error .meaninglessFormat
  | some environment =>
    let (session, sources) :=
      LiveSession.start script.sources script.configuration.runOptions environment script.unit
    .ok (session.wait sources).1

end Script

end ScriptPreprocessor
