import ScriptPreprocessor.CommandLine.Grammar

namespace ScriptPreprocessor

/-!
# The arguments of a command line

Arguments are read from left to right.  An argument names a command, gives an option or its value,
or is the file that a command works on.  The first argument that cannot be read makes the whole
command line a misuse, and the first question for help or the version is answered at once.
-/

/-- Why the arguments are not read to their end.  Help and the version are interruptions, too, since
nothing behind the question for them is looked at, not even a misuse. -/
inductive Interruption where
  | misuse
  | help
  | version
  deriving DecidableEq, Repr

/-- What has been read of the arguments. -/
structure Arguments where
  level : CommandLevel := .program
  /-- The options that were given and their values, the last one first. -/
  given : List (CommandOption × Text) := []
  /-- The options that were given at the present level. -/
  givenHere : List CommandOption := []
  file : Option Text := none
  /-- The option whose value comes next. -/
  awaiting : Option CommandOption := none
  /-- Whether everything that follows is no option. -/
  isPlain : Bool := false
  /-- Whether the commands that follow are only asked about. -/
  isQuestion : Bool := false
  deriving DecidableEq, Repr

namespace Arguments

/-! ## Asking -/

def last? (arguments : Arguments) (option : CommandOption) : Option Text :=
  arguments.given.lookup option

def all (arguments : Arguments) (option : CommandOption) : List Text :=
  ((arguments.given.filter fun entry => entry.1 == option).map Prod.snd).reverse

def has (arguments : Arguments) (option : CommandOption) : Bool :=
  (arguments.last? option).isSome

/-! ## Reading -/

/-- Gives an option a value.  Most options can be given only once behind a command; what was given
in front of the command does not count for that. -/
def give (arguments : Arguments) (option : CommandOption) (value : Text) :
    Except Interruption Arguments :=
  if arguments.givenHere.contains option && !option.isRepeatable then .error .misuse
  else
    .ok { arguments with
      given := (option, value) :: arguments.given
      givenHere := option :: arguments.givenHere
      awaiting := none }

def giveValue (arguments : Arguments) (option : CommandOption) (kind : OptionValue)
    (value : Text) : Except Interruption Arguments :=
  if kind.accepts value then arguments.give option value else .error .misuse

def giveFlag (arguments : Arguments) : CommandOption → Except Interruption Arguments
  | .help => .error .help
  | .version => .error .version
  | option => arguments.give option []

def await (arguments : Arguments) (option : CommandOption) : Arguments :=
  { arguments with awaiting := some option }

/-- Reads an option given by its name, with the value that stands behind an equals sign.  Without
one, the next argument is the value. -/
def readNamed (arguments : Arguments) (name : Text) (value : Option Text) :
    Except Interruption Arguments :=
  match arguments.level.named? name with
  | none => .error .misuse
  | some option =>
    match option.value?, value with
    | some kind, some value => arguments.giveValue option kind value
    | some _, none => .ok (arguments.await option)
    | none, some _ => .error .misuse
    | none, none => arguments.giveFlag option

/-- The value that is attached to a letter, with or without an equals sign. -/
def attachedValue : Text → Text
  | '=' :: value => value
  | value => value

/-- Reads options given by their letters.  Several flags may share a hyphen.  What stands behind the
letter of an option that takes a value is that value, and no further letters. -/
def readLetters (arguments : Arguments) : Text → Except Interruption Arguments
  | [] => .ok arguments
  | letter :: rest =>
    match arguments.level.lettered? letter with
    | none => .error .misuse
    | some option =>
      match option.value? with
      | some kind =>
        if rest.isEmpty then .ok (arguments.await option)
        else arguments.giveValue option kind (attachedValue rest)
      | none =>
        match arguments.giveFlag option with
        | .ok arguments => readLetters arguments rest
        | .error interruption => .error interruption

/-- Reads an argument that is no option: the one file of the command.  A command that takes none is
misused by it, and so is one that has a file already. -/
def readFile (arguments : Arguments) (path : Text) : Except Interruption Arguments :=
  if arguments.level.takesFile && arguments.file.isNone && !path.isEmpty then
    .ok { arguments with file := some path }
  else .error .misuse

/-- Reads the name of a command.  What was given before it counts as given elsewhere. -/
def readCommand (arguments : Arguments) (level : CommandLevel) : Arguments :=
  if level = .help then { arguments with isQuestion := true }
  else { arguments with level, givenHere := [] }

def splitNamed (option : Text) : Text × Option Text :=
  match option.dropWhile (· != '=') with
  | [] => (option, none)
  | _ :: value => (option.takeWhile (· != '='), some value)

/-- Reads an argument that begins like an option.  It cannot be a value: where a value is awaited,
it is a misuse.  Two hyphens alone say that no option follows. -/
def readOption (arguments : Arguments) (option : Text) : Except Interruption Arguments :=
  if arguments.awaiting.isSome then .error .misuse
  else
    match option with
    | '-' :: [] => .ok { arguments with isPlain := true }
    | '-' :: named =>
      let (name, value) := splitNamed named
      arguments.readNamed name value
    | letters => arguments.readLetters letters

def readWord (arguments : Arguments) (word : Text) : Except Interruption Arguments :=
  match arguments.awaiting with
  | some option => arguments.giveValue option (option.value?.getD .text) word
  | none =>
    match arguments.level.command? word with
    | some level => .ok (arguments.readCommand level)
    | none => arguments.readFile word

/-- Reads an argument of a question: the name of a command to ask about. -/
def readQuestion (arguments : Arguments) (word : Text) : Except Interruption Arguments :=
  match arguments.level.command? word with
  | some level => .ok { arguments with level }
  | none => .error .misuse

/-- Reads an argument.  A hyphen alone is no option. -/
def read (arguments : Arguments) (argument : Text) : Except Interruption Arguments :=
  if arguments.isQuestion then arguments.readQuestion argument
  else if arguments.isPlain then arguments.readFile argument
  else
    match argument with
    | '-' :: next :: rest => arguments.readOption (next :: rest)
    | word => arguments.readWord word

def parse (arguments : List Text) : Except Interruption Arguments :=
  arguments.foldlM read {}

end Arguments

end ScriptPreprocessor
