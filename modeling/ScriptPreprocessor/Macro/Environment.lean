import ScriptPreprocessor.Calendar.Format

namespace ScriptPreprocessor

/-!
# The environment of a script

A script can ask who is running the editor, which editor it is, and when it was compiled.  These
answers are fixed once for a whole run; only the built-in macros for the current unit and line
change while a script is expanded.
-/

/-- What the built-in macros show, and the macros that are defined before the first line.

The formats of the date and the time are parsed ones.  A format that `DateFormat.parse?` refuses has
no value here: rendering with it would abort before the first line is read, so there is no run to
speak of (`Configuration.environmentAt?`). -/
structure Environment where
  agentId : Text := "00000000-0000-0000-0000-000000000000".toList
  agentName : Text := []
  viewerName : Text := "lslpp".toList
  viewerVersion : Text := "0.1.0".toList
  viewerNumber : Nat := 1000
  dateFormat : DateFormat
  timeFormat : DateFormat
  predefined : List (Text × Text) := []
  clock : Instant

def fileMacro : Text := "__FILE__".toList

def lineMacro : Text := "__LINE__".toList

/-- The names that can be neither defined nor removed.  Beside the built-in macros there is the word
of tests for definitions, which is no macro but would be taken for one. -/
def reservedNames : List Text :=
  ["defined".toList, fileMacro, lineMacro, "__DATE__".toList, "__TIME__".toList,
    "__AGENT_ID__".toList, "__AGENT_NAME__".toList, "__VIEWER_NAME__".toList,
    "__VIEWER_VERSION__".toList, "__VIEWER_VERNUM__".toList]

def isReserved (name : Text) : Bool :=
  reservedNames.contains name

/-- A text between quotation marks.  Nothing inside it is escaped, so a text with a quotation mark
of its own does not make one literal. -/
def quoted (text : Text) : Text :=
  '"' :: text ++ ['"']

/-- The built-in macros that stay the same during a run, with their replacements.  All of them are
literals but the last, which is a number so that conditions can compare it. -/
def Environment.builtins (environment : Environment) : List (Text × Text) :=
  [("__DATE__".toList, quoted (environment.dateFormat.render environment.clock)),
    ("__TIME__".toList, quoted (environment.timeFormat.render environment.clock)),
    ("__AGENT_ID__".toList, quoted environment.agentId),
    ("__AGENT_NAME__".toList, quoted environment.agentName),
    ("__VIEWER_NAME__".toList, quoted environment.viewerName),
    ("__VIEWER_VERSION__".toList, quoted environment.viewerVersion),
    ("__VIEWER_VERNUM__".toList, Text.ofNat environment.viewerNumber)]

end ScriptPreprocessor
