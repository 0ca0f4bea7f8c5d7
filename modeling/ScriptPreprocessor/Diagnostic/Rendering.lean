import ScriptPreprocessor.Diagnostic.Basic
import ScriptPreprocessor.Json.Basic
import ScriptPreprocessor.SourceUnit
import ScriptPreprocessor.Text.Blank

namespace ScriptPreprocessor

/-!
# Rendered diagnostics

A diagnostic is shown as a header, the position it points to, and the line of the unit with marks
below it.  Columns count bytes, and the marks stand where the bytes of the line would stand.  The
same diagnostics can be written as JSON, where what is not known is left out.
-/

namespace Text

/-- A line cut to a number of characters, with an ellipsis for what is missing.  The ellipsis is one
of the characters, so that the line never becomes wider. -/
def truncate (line : Text) (columns : Nat) : Text :=
  if line.length ≤ columns then line else line.take (columns - 1) ++ ['…']

end Text

/-- The number of characters of a line that are shown when there is no terminal.  It is the only
width here, since what the program prints must not depend on where it runs. -/
def defaultColumns : Nat := 100

namespace Diagnostic

/-! ## Text -/

def header (diagnostic : Diagnostic) : Text :=
  diagnostic.severity.word ++ '[' :: diagnostic.kind.code ++ "]: ".toList ++ diagnostic.message

/-- A diagnostic on one line, with its position at the end.  A unit without a line, or a line
without a unit, is no position. -/
def display (diagnostic : Diagnostic) : Text :=
  match diagnostic.unit, diagnostic.line with
  | some unit, some line =>
    diagnostic.header ++ " (".toList ++ unit ++ ':' :: Text.ofNat line ++ [')']
  | _, _ => diagnostic.header

/-- The line of a unit that a position points to, among some units.  Of units with one name the last
one counts.  A line that the unit does not have is not shown. -/
def sourceLine? (sources : List SourceUnit) (unit : Text) (line : Nat) : Option Text := do
  let source ← (sources.filter fun source => source.name == unit).getLast?
  if line = 0 then none else (← source.line? (line - 1)).withoutEnding

/-- The marks below a line: one at a column counted from one, or as many as the line has bytes
between its outer blanks.  A blank line has one mark, so that there is always something to see. -/
def marks (content : Text) (column : Option Nat) : Text :=
  match column with
  | some column => List.replicate (column - 1) ' ' ++ ['^']
  | none =>
    let trimmed := content.trimStart
    List.replicate (content.width - trimmed.width) ' ' ++
      List.replicate (max 1 trimmed.trimEnd.width) '^'

/-- The line that a diagnostic points to, with marks below it.  The gutter is as wide as the number
of the line, which keeps the marks below the characters they belong to. -/
def codeFrame (content : Text) (line : Nat) (column : Option Nat) : Text :=
  let number := Text.ofNat line
  let gutter := List.replicate number.length ' '
  gutter ++ " |\n".toList ++
    number ++ " | ".toList ++ content.truncate defaultColumns ++ '\n' ::
    gutter ++ " | ".toList ++ marks content column ++ ['\n']

/-- The lines of a rendered diagnostic behind its header.  The position is shown even when the line
cannot be, for the unit may not be among those that were given. -/
def renderedPosition (sources : List SourceUnit) (diagnostic : Diagnostic) : Text :=
  match diagnostic.unit, diagnostic.line with
  | some unit, some line =>
    let column := (diagnostic.column.map fun column => ':' :: Text.ofNat column).getD []
    let frame := (sourceLine? sources unit line).map fun content =>
      codeFrame content line diagnostic.column
    " --> ".toList ++ unit ++ ':' :: Text.ofNat line ++ column ++ '\n' :: frame.getD []
  | _, _ => []

def render (sources : List SourceUnit) (diagnostic : Diagnostic) : Text :=
  diagnostic.header ++ '\n' :: diagnostic.renderedPosition sources

def renderAll (sources : List SourceUnit) (diagnostics : List Diagnostic) : Text :=
  Text.join ['\n'] (diagnostics.map fun diagnostic => diagnostic.render sources)

/-! ## Counts -/

def count (severity : Severity) (diagnostics : List Diagnostic) : Nat :=
  diagnostics.countP fun diagnostic => diagnostic.severity == severity

/-- A number of things, with the word for one of them.  Every number but one takes the plural, zero
too. -/
def counted (number : Nat) (word : Text) : Text :=
  Text.ofNat number ++ ' ' :: word ++ if number = 1 then [] else ['s']

/-- The numbers of errors and warnings in words.  Notes are not counted: they ask for nothing to be
done. -/
def summary (diagnostics : List Diagnostic) : Text :=
  counted (count .error diagnostics) "error".toList ++ ", ".toList ++
    counted (count .warning diagnostics) "warning".toList

/-! ## JSON -/

def memberOf {α : Type} (name : Text) (encode : α → Json) (value : Option α) :
    List (Text × Json) :=
  value.toList.map fun value => (name, encode value)

def toJson (diagnostic : Diagnostic) : Json :=
  .object <|
    [("severity".toList, .ofText diagnostic.severity.word),
      ("kind".toList, .ofText diagnostic.kind.code),
      ("message".toList, .ofText diagnostic.message)] ++
    memberOf "unit".toList .ofText diagnostic.unit ++
    memberOf "line".toList .ofNat diagnostic.line ++
    memberOf "column".toList .ofNat diagnostic.column ++
    memberOf "expanded_position".toList
      (fun (line, column) => .array [.ofNat line, .ofNat column]) diagnostic.expandedPosition

def toJsonArray (diagnostics : List Diagnostic) : Json :=
  .array (diagnostics.map toJson)

end Diagnostic

end ScriptPreprocessor
