import ScriptPreprocessor.Text.Basic

namespace ScriptPreprocessor

/-!
# The grammar of the command line

A command line is a command behind the name of the program, with options before and behind it.  The
command to manage configurations has commands of its own.  Which options may stand at a place, and
what they take, is all that is said here.
-/

/-- How far the commands of a command line have been named. -/
inductive CommandLevel where
  /-- No command yet. -/
  | program
  | preprocess
  | save
  | load
  | remap
  /-- The configuration, but not what to do with it. -/
  | configuration
  | newConfiguration
  | shownConfiguration
  | version
  | help
  deriving DecidableEq, Repr

inductive CommandOption where
  | configurationFile
  | verbose
  | withoutColor
  | help
  | version
  | includeRoot
  | inventory
  | folder
  | reportFormat
  | output
  | asInclude
  | compiled
  | compilerMessage
  | configurationFormat
  | force
  deriving DecidableEq, Repr

inductive OptionValue where
  /-- A path, which is never empty. -/
  | path
  | text
  /-- One of some words. -/
  | word (words : List Text)
  deriving DecidableEq, Repr

def OptionValue.accepts : OptionValue → Text → Bool
  | .path, given => !given.isEmpty
  | .text, _ => true
  | .word words, given => words.contains given

namespace CommandOption

def name : CommandOption → Text
  | .configurationFile => "config".toList
  | .verbose => "verbose".toList
  | .withoutColor => "no-color".toList
  | .help => "help".toList
  | .version => "version".toList
  | .includeRoot => "include-root".toList
  | .inventory => "inventory".toList
  | .folder => "folder".toList
  | .reportFormat | .configurationFormat => "format".toList
  | .output => "output".toList
  | .asInclude => "include".toList
  | .compiled => "compiled".toList
  | .compilerMessage => "error".toList
  | .force => "force".toList

def letter? : CommandOption → Option Char
  | .configurationFile => some 'c'
  | .verbose => some 'v'
  | .help => some 'h'
  | .version => some 'V'
  | .reportFormat => some 'f'
  | .output => some 'o'
  | .compilerMessage => some 'e'
  | _ => none

/-- What an option takes.  A flag takes nothing. -/
def value? : CommandOption → Option OptionValue
  | .configurationFile | .includeRoot | .inventory | .output => some .path
  | .folder | .compilerMessage => some .text
  | .reportFormat => some (.word ["human".toList, "json".toList])
  | .configurationFormat => some (.word ["toml".toList, "json".toList])
  | _ => none

def isRepeatable : CommandOption → Bool
  | .verbose | .compilerMessage => true
  | _ => false

end CommandOption

namespace CommandLevel

def commonOptions : List CommandOption :=
  [.configurationFile, .verbose, .withoutColor, .help]

def lookupOptions : List CommandOption :=
  [.includeRoot, .inventory, .folder]

/-- The options that may stand at a level.  The version can only be asked for in front of every
command, and the command for help knows no more than what all others know. -/
def options : CommandLevel → List CommandOption
  | .program => commonOptions ++ [.version]
  | .preprocess => commonOptions ++ lookupOptions ++ [.reportFormat, .output]
  | .save => commonOptions ++ lookupOptions ++ [.asInclude, .output]
  | .load => commonOptions ++ [.compiled, .output]
  | .remap => commonOptions ++ lookupOptions ++ [.compilerMessage, .reportFormat]
  | .newConfiguration => commonOptions ++ [.configurationFormat, .force]
  | .configuration | .shownConfiguration | .version | .help => commonOptions

def named? (level : CommandLevel) (name : Text) : Option CommandOption :=
  level.options.find? fun option => option.name == name

def lettered? (level : CommandLevel) (letter : Char) : Option CommandOption :=
  level.options.find? fun option => option.letter? == some letter

/-- The commands that may stand at a level, with their names.  Two of them have a short name
besides. -/
def commands : CommandLevel → List (Text × CommandLevel)
  | .program =>
    [("preprocess".toList, .preprocess), ("pp".toList, .preprocess), ("save".toList, .save),
      ("load".toList, .load), ("remap".toList, .remap), ("config".toList, .configuration),
      ("version".toList, .version), ("ver".toList, .version), ("help".toList, .help)]
  | .configuration =>
    [("init".toList, .newConfiguration), ("show".toList, .shownConfiguration),
      ("help".toList, .help)]
  | _ => []

def command? (level : CommandLevel) (name : Text) : Option CommandLevel :=
  level.commands.lookup name

def takesFile : CommandLevel → Bool
  | .preprocess | .save | .load | .remap => true
  | _ => false

end CommandLevel

end ScriptPreprocessor
