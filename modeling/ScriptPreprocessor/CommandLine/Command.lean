import ScriptPreprocessor.CommandLine.Arguments

namespace ScriptPreprocessor

/-!
# Commands

What a command line asks for, once its arguments are read and nothing that a command needs is
missing.
-/

inductive ReportFormat where
  /-- Text for people to read. -/
  | human
  | json
  deriving DecidableEq, Repr

inductive ConfigurationFormat where
  | toml
  | json
  deriving DecidableEq, Repr

/-- Where a script is, and where its includes are looked up. -/
structure ScriptChoice where
  file : Text
  includeRoot : Option Text
  /-- The directory that stands for the inventory. -/
  inventory : Option Text
  /-- The inventory folder of the script. -/
  folder : Option Text
  deriving DecidableEq, Repr

inductive Command where
  | preprocess (script : ScriptChoice) (format : ReportFormat) (output : Option Text)
  | save (script : ScriptChoice) (asInclude : Bool) (output : Option Text)
  | load (file : Text) (compiled : Bool) (output : Option Text)
  | remap (script : ScriptChoice) (messages : List Text) (format : ReportFormat)
  | createConfiguration (format : ConfigurationFormat) (overwrite : Bool)
  | showConfiguration
  | showVersion
  | showHelp
  deriving DecidableEq, Repr

structure Invocation where
  command : Command
  configurationFile : Option Text := none
  isColored : Bool := true
  deriving DecidableEq, Repr

namespace Arguments

def reportFormat (arguments : Arguments) : ReportFormat :=
  if arguments.last? .reportFormat = some "json".toList then .json else .human

def configurationFormat (arguments : Arguments) : ConfigurationFormat :=
  if arguments.last? .configurationFormat = some "json".toList then .json else .toml

def script (arguments : Arguments) (file : Text) : ScriptChoice where
  file
  includeRoot := arguments.last? .includeRoot
  inventory := arguments.last? .inventory
  folder := arguments.last? .folder

/-- The command for a file. -/
def fileCommand? (arguments : Arguments) (file : Text) : Option Command :=
  let output := arguments.last? .output
  match arguments.level with
  | .preprocess => some (.preprocess (arguments.script file) arguments.reportFormat output)
  | .save => some (.save (arguments.script file) (arguments.has .asInclude) output)
  | .load => some (.load file (arguments.has .compiled) output)
  | .remap =>
    let messages := arguments.all .compilerMessage
    if messages.isEmpty then none
    else some (.remap (arguments.script file) messages arguments.reportFormat)
  | _ => none

/-- The command, unless something is missing.  Without any command there is help, but the command
for configurations says nothing without one of its own commands. -/
def command? (arguments : Arguments) : Option Command :=
  match arguments.level with
  | .program | .help => some .showHelp
  | .configuration => none
  | .newConfiguration =>
    some (.createConfiguration arguments.configurationFormat (arguments.has .force))
  | .shownConfiguration => some .showConfiguration
  | .version => some .showVersion
  | .preprocess | .save | .load | .remap => arguments.file.bind arguments.fileCommand?

/-- What the arguments ask for, unless something is missing.  An option that still waits for its
value is a misuse, except in a question, where options are not read at all. -/
def invocation? (arguments : Arguments) : Option Invocation :=
  if arguments.isQuestion then some { command := .showHelp }
  else if arguments.awaiting.isSome then none
  else
    arguments.command?.map fun command =>
      { command
        configurationFile := arguments.last? .configurationFile
        isColored := !arguments.has .withoutColor }

end Arguments

/-- What a command line asks for.  There is nothing when it is misused. -/
def Invocation.parse? (arguments : List Text) : Option Invocation :=
  match Arguments.parse arguments with
  | .ok arguments => arguments.invocation?
  | .error .misuse => none
  | .error .help => some { command := .showHelp }
  | .error .version => some { command := .showVersion }

end ScriptPreprocessor
