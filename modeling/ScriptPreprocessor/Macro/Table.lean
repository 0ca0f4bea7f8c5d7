import ScriptPreprocessor.LineMap
import ScriptPreprocessor.Macro.Environment
import ScriptPreprocessor.Text.Blank
import ScriptPreprocessor.Text.Search
import ScriptPreprocessor.Text.Word

namespace ScriptPreprocessor

/-!
# Macro tables

A macro table is a finite map from names to macros, together with the built-in macros of the run.
Names are identifiers and never reserved, so no definition can hide a built-in macro.  A name is
defined at most once before it is removed; a rejected definition leaves the table as it was.
-/

/-- The meaning of a defined name.  A macro without parameters is not an object: it is replaced only
where it is called. -/
inductive Macro where
  | object (body : Text)
  | function (parameters : List Text) (body : Text)
  deriving DecidableEq, Repr

/-- Why a definition or a removal is rejected.  A removal is rejected only for its name, that is for
the first two reasons. -/
inductive DefinitionFault where
  | invalidName (name : Text)
  | reserved (name : Text)
  | redefined (name : Text)
  | invalidParameters (name : Text)
  deriving DecidableEq, Repr

def DefinitionFault.message : DefinitionFault → Text
  | .invalidName name => "Cannot define '".toList ++ name ++ "': invalid token.".toList
  | .reserved name => "Cannot define '".toList ++ name ++ "': reserved built-in name.".toList
  | .redefined name =>
    "Cannot redefine '".toList ++ name ++ "' which is already defined.".toList
  | .invalidParameters name =>
    "Cannot define '".toList ++ name ++ "': invalid parameter list.".toList

namespace Macro

/-- The parameters named in a list with commas in between.  Empty places are skipped; the list is
rejected when any other place is no identifier.  A name may stand there twice, and then the first
one counts. -/
def parameters? (list : Text) : Option (List Text) :=
  let names := ((list.splitOn (· == ',')).map Text.trim).filter fun name => !name.isEmpty
  if names.all Text.isIdentifier then some names else none

/-- Reads the argument of a `#define` line.  The macro takes arguments exactly when a parenthesis
touches its name. -/
def parseDefinition (argument : Text) : Except DefinitionFault (Text × Macro) :=
  let name := argument.leadingWord
  match argument.afterWord with
  | '(' :: rest =>
    match Text.splitFirst? rest [')'] with
    | none => .error (.invalidParameters name)
    | some (list, body) =>
      match parameters? list with
      | none => .error (.invalidParameters name)
      | some parameters => .ok (name, .function parameters (Text.trim body))
  | [] => .ok (name, .object [])
  | character :: rest =>
    if isBlank character then .ok (name, .object (Text.trim rest))
    else .error (.invalidName argument)

end Macro

/-- The macros that are defined at some point of a run.  The built-in ones and the greatest depth
never change; they are here because every expansion needs them. -/
structure MacroTable where
  definitions : List (Text × Macro)
  builtins : List (Text × Text)
  maxDepth : Nat

namespace MacroTable

/-- What is wrong with a name that is to be defined or removed, if anything is.  Whether it is
defined already is not asked here: removing a name that is not defined is no fault. -/
def nameFault? (name : Text) : Option DefinitionFault :=
  if !name.isIdentifier then some (.invalidName name)
  else if isReserved name then some (.reserved name)
  else none

def get? (table : MacroTable) (name : Text) : Option Macro :=
  table.definitions.lookup name

def size (table : MacroTable) : Nat :=
  table.definitions.length

/-- The table with one more definition.  Defining a name again is rejected even with the same
meaning, unlike in C; it has to be removed first. -/
def insert (table : MacroTable) (name : Text) (definition : Macro) :
    Except DefinitionFault MacroTable :=
  match nameFault? name with
  | some fault => .error fault
  | none =>
    if (table.get? name).isSome then .error (.redefined name)
    else .ok { table with definitions := (name, definition) :: table.definitions }

/-- The table before the first line of a run.  A predefined macro that is rejected is left out. -/
def ofEnvironment (environment : Environment) (maxDepth : Nat) : MacroTable :=
  environment.predefined.foldl
    (fun table (name, value) =>
      match table.insert name (.object value) with
      | .ok table => table
      | .error _ => table)
    ⟨[], environment.builtins, maxDepth⟩

def define (table : MacroTable) (argument : Text) : Except DefinitionFault (Text × MacroTable) :=
  match Macro.parseDefinition argument with
  | .error fault => .error fault
  | .ok (name, definition) =>
    match table.insert name definition with
    | .error fault => .error fault
    | .ok table => .ok (name, table)

def remove (table : MacroTable) (name : Text) : Except DefinitionFault (Bool × MacroTable) :=
  match nameFault? name with
  | some fault => .error fault
  | none =>
    .ok ((table.get? name).isSome,
      { table with definitions := table.definitions.filter fun entry => entry.1 != name })

/-- Whether a name counts as defined: defined macros and all built-in ones do.  Those for the
current unit and line have no entry among the built-in ones, since their text differs from line to
line. -/
def isDefined (table : MacroTable) (name : Text) : Bool :=
  (table.get? name).isSome || (table.builtins.lookup name).isSome ||
    name == fileMacro || name == lineMacro

/-- What a word is replaced by: the fixed text of a built-in macro, or a defined macro. -/
inductive Replacement where
  | builtin (text : Text)
  | defined (definition : Macro)
  deriving DecidableEq, Repr

/-- What a word is replaced by on a line.  The built-in macros come first; no definition can have
one of their names in any case. -/
def replacement? (table : MacroTable) (line : Origin) (word : Text) : Option Replacement :=
  if word = fileMacro then some (.builtin (quoted line.unit))
  else if word = lineMacro then some (.builtin (Text.ofNat line.line))
  else
    match table.builtins.lookup word with
    | some text => some (.builtin text)
    | none => (table.get? word).map Replacement.defined

end MacroTable

end ScriptPreprocessor
