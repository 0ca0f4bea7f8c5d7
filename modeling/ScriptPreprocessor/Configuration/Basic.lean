import ScriptPreprocessor.Include.Target
import ScriptPreprocessor.Run.Preprocessor

namespace ScriptPreprocessor

/-!
# Configurations

A configuration has a section for the preprocessor, one for the places where includes are looked
up, and one for what scripts can ask about their surroundings.  Every section and every setting in
it may be missing; then its default counts.
-/

def IncludeMode.word : IncludeMode → Text
  | .always => "always".toList
  | .once => "once".toList

def IncludeMode.ofWord? (word : Text) : Option IncludeMode :=
  [IncludeMode.always, IncludeMode.once].find? fun mode => mode.word == word

/-- Settings of the preprocessor.  Each is optional here, and not filled with its default, so that a
configuration is written back as it was given. -/
structure PreprocessorSection where
  includeMode : Option IncludeMode := none
  maxExpansionDepth : Option Nat := none
  skipShebang : Option Bool := none
  deriving DecidableEq, Repr

/-- Settings of the places where includes are looked up.  Paths are texts here and are not looked at
until an include asks for them. -/
structure IncludesSection where
  defaultFolder : Option Text := none
  homeDirectory : Option Text := none
  includeRoot : Option Text := none
  fallbackDirectory : Option Text := none
  deriving DecidableEq, Repr

/-- Settings of what the built-in macros show, and predefined macros in the order of their names.
The macros are not checked here: one that cannot be defined is passed over when a run begins. -/
structure EnvironmentSection where
  agentId : Option Text := none
  agentName : Option Text := none
  viewerName : Option Text := none
  viewerVersion : Option Text := none
  viewerNumber : Option Nat := none
  dateFormat : Option Text := none
  timeFormat : Option Text := none
  defines : Option (List (Text × Text)) := none
  deriving DecidableEq, Repr

structure Configuration where
  preprocessor : Option PreprocessorSection := none
  includes : Option IncludesSection := none
  environment : Option EnvironmentSection := none
  deriving DecidableEq, Repr

def defaultDateFormat : Text := "%Y-%m-%d".toList

def defaultTimeFormat : Text := "%H:%M:%S".toList

def programName : Text := "lslpp".toList

def programVersion : Text := "0.1.0".toList

namespace Configuration

/-- The configuration that a new configuration file holds.  What it sets are the defaults that a
user may want to see and change; the places of files are left out, since they differ from user to
user. -/
def starter : Configuration where
  preprocessor := some
    { includeMode := some .always
      maxExpansionDepth := some 32
      skipShebang := some true }
  includes := some { defaultFolder := some "|Scripts|".toList }
  environment := some
    { viewerName := some programName
      viewerVersion := some programVersion }

/-- The options of a run: what is set, and the default of every option that is not. -/
def runOptions (configuration : Configuration) : RunOptions :=
  let base : RunOptions := {}
  let chosen := configuration.preprocessor.getD {}
  { includeMode := chosen.includeMode.getD base.includeMode
    maxExpansionDepth := chosen.maxExpansionDepth.getD base.maxExpansionDepth
    skipShebang := chosen.skipShebang.getD base.skipShebang }

/-- The places where includes are looked up.  A home directory and an include root that are not set
are taken from the user and from where the program was started, which the configuration does not
know. -/
def includeSettings (configuration : Configuration) (home : Option Text) (root : Text) :
    IncludeSettings :=
  let base : IncludeSettings := {}
  let chosen := configuration.includes.getD {}
  { defaultFolder := chosen.defaultFolder.getD base.defaultFolder
    homeDirectory := chosen.homeDirectory.orElse fun _ => home
    includeRoot := chosen.includeRoot.getD root
    fallbackDirectory := chosen.fallbackDirectory.getD base.fallbackDirectory }

def dateFormat (configuration : Configuration) : Text :=
  ((configuration.environment.bind EnvironmentSection.dateFormat)).getD defaultDateFormat

def timeFormat (configuration : Configuration) : Text :=
  ((configuration.environment.bind EnvironmentSection.timeFormat)).getD defaultTimeFormat

/-- The environment of scripts at an instant.  There is none when a format of the date or the time
has no meaning: the program stops there, and no script is read. -/
def environmentAt? (configuration : Configuration) (clock : Instant) : Option Environment := do
  let dateFormat ← DateFormat.parse? configuration.dateFormat
  let timeFormat ← DateFormat.parse? configuration.timeFormat
  let chosen := configuration.environment.getD {}
  let base : Environment := { dateFormat, timeFormat, clock }
  return { base with
    agentId := chosen.agentId.getD base.agentId
    agentName := chosen.agentName.getD base.agentName
    viewerName := chosen.viewerName.getD base.viewerName
    viewerVersion := chosen.viewerVersion.getD base.viewerVersion
    viewerNumber := chosen.viewerNumber.getD base.viewerNumber
    predefined := chosen.defines.getD base.predefined }

end Configuration

end ScriptPreprocessor
