import ScriptPreprocessor.Text.Lines
import ScriptPreprocessor.Text.Utf8

namespace ScriptPreprocessor

/-!
# Source units

A source unit is one piece of script text under one name: the script being compiled, or what an
`#include` brought in.  Its lines keep their line feeds, so that copying every line of a unit
reproduces its text byte for byte.
-/

/-- Where a unit was found, and so where its own includes are looked up first: a directory of the
file system, or an inventory folder such as `|Scripts|`.  A unit that was typed in has none. -/
inductive Location where
  | filesystem (directory : Text)
  | inventory (folder : Text)
  deriving DecidableEq, Repr

/-- A named script text.  The name is what positions and messages call it; two units of a run with
one name are taken for the same one. -/
structure SourceUnit where
  name : Text
  text : Text
  location : Option Location := none
  deriving DecidableEq, Repr

namespace SourceUnit

def ofBytes (name : Text) (bytes : Bytes) : SourceUnit :=
  ⟨name, Utf8.decode bytes, none⟩

def lines (unit : SourceUnit) : List Text :=
  unit.text.lines

/-- The number of lines; a last line without a line feed counts. -/
def lineCount (unit : SourceUnit) : Nat :=
  unit.lines.length

def line? (unit : SourceUnit) (index : Nat) : Option Text :=
  unit.lines[index]?

/-- The unit with its last line ended.  A spliced unit must end its last line, because the line
after the `#include` follows it directly. -/
def withFinalNewline (unit : SourceUnit) : SourceUnit :=
  { unit with text := unit.text.withFinalNewline }

end SourceUnit

end ScriptPreprocessor
