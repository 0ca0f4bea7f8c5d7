import ScriptPreprocessor.Text.Basic

namespace ScriptPreprocessor

/-!
# Blanks

Two classes of blank characters matter.  Inside a directive line only a space and a tab separate
the `#` from what surrounds it (`isSpaceOrTab`).  Everywhere else a blank is any character of the
Unicode property `White_Space` (`isBlank`).
-/

def isSpaceOrTab (character : Char) : Bool :=
  character == ' ' || character == '\t'

/-- The Unicode property `White_Space`. -/
def isBlank (character : Char) : Bool :=
  let code := character.toNat
  (9 ≤ code && code ≤ 13) || code == 0x20 || code == 0x85 || code == 0xA0 || code == 0x1680 ||
    (0x2000 ≤ code && code ≤ 0x200A) || code == 0x2028 || code == 0x2029 || code == 0x202F ||
    code == 0x205F || code == 0x3000

namespace Text

def trim (text : Text) : Text :=
  trimWhile isBlank text

def trimStart (text : Text) : Text :=
  text.dropWhile isBlank

def trimEnd (text : Text) : Text :=
  dropEndWhile isBlank text

theorem trim_sublist (text : Text) : text.trim.Sublist text :=
  trimWhile_sublist isBlank text

/-- The part of a text before its first blank, after skipping leading blanks; empty when the text
has only blanks. -/
def firstWord (text : Text) : Text :=
  text.trimStart.takeWhile (fun character => !isBlank character)

end Text

end ScriptPreprocessor
