import ScriptPreprocessor.Diagnostic.Basic
import ScriptPreprocessor.LineMap
import ScriptPreprocessor.Text.Blank
import ScriptPreprocessor.Text.Search

namespace ScriptPreprocessor

/-!
# Compiler messages

The compiler of the scripting language sees only the expanded text.  It reports a problem as
`(row, column) : ERROR : message` with positions counted from zero.  Such a message is read here
and moved back to the line that the user wrote.

The numbers of a position are words of 64 bits.  Whatever number the message holds, counting it from
one instead takes the next word (`CompilerMessage.successor`), which is zero behind the largest one.
-/

/-- One message of the compiler, with its position counted from one. -/
structure CompilerMessage where
  line : Nat
  column : Nat
  severity : Severity
  message : Text
  deriving DecidableEq, Repr

namespace CompilerMessage

/-- The word behind a word.  The addition wraps around, as in a build without overflow checks; a
build with them stops at the largest word and records nothing. -/
def successor (number : Nat) : Nat :=
  (number + 1) % wordCount

theorem successor_of_fits {number : Nat} (fits : number + 1 < wordCount) :
    successor number = number + 1 :=
  Nat.mod_eq_of_lt fits

/-- A decimal number after blanks, and the text behind it.  Digits that make no word of 64 bits are
refused, so the line that holds them is no message. -/
def position? (text : Text) : Option (Nat × Text) :=
  let text := text.trimStart
  let digits := text.takeWhile Char.isDigit
  let value := Text.digitsValue digits
  if digits.isEmpty || wordCount ≤ value then none
  else some (value, text.dropWhile Char.isDigit)

def afterMark? (mark : Text) (text : Text) : Option Text :=
  text.trimStart.afterStart? mark

/-- The severity that a message announces, and the text behind it. -/
def severity? (text : Text) : Option (Severity × Text) :=
  match afterMark? "ERROR".toList text with
  | some rest => some (.error, rest)
  | none => (afterMark? "WARNING".toList text).map fun rest => (.warning, rest)

/-- Reads a message.  Blanks may stand around each part; the message itself is one line, trimmed. -/
def parse? (text : Text) : Option CompilerMessage := do
  let rest ← afterMark? ['('] text
  let (row, rest) ← position? rest
  let rest ← afterMark? [','] rest
  let (column, rest) ← position? rest
  let rest ← afterMark? [')'] rest
  let rest ← afterMark? [':'] rest
  let (severity, rest) ← severity? rest
  let rest ← afterMark? [':'] rest
  let message := rest.trim
  if '\n' ∈ message then none
  else some ⟨successor row, successor column, severity, message⟩

/-- The message as a diagnostic about the scripts that were compiled.  Where it was reported in the
expanded text is kept beside the position in the unit. -/
def diagnostic (message : CompilerMessage) (map : LineMap) (mainUnit : Text) : Diagnostic :=
  let position := map.remap? mainUnit message.line message.column
  { severity := message.severity
    kind := .compiler
    message := message.message
    unit := position.map Position.unit
    line := position.map Position.line
    column := position.map Position.column
    expandedPosition := some (message.line, message.column) }

end CompilerMessage

end ScriptPreprocessor
