import ScriptPreprocessor.Text.Blank
import ScriptPreprocessor.Text.Word
import ScriptPreprocessor.Text.WordClass

namespace ScriptPreprocessor

/-!
# Tests for definitions

Before macros are expanded in a condition, each test `defined NAME` or `defined(NAME)` is replaced
by one or zero, so that the tested name itself is not expanded.  A test begins at a word boundary.
-/

def definedWord : Text := "defined".toList

/-- The identifier in front of a text, and the text behind it.  A digit, although a word character,
begins no identifier, so that `defined 1` asks about nothing and is left as it stands. -/
def identifier? (text : Text) : Option (Text × Text) :=
  if text.head?.any isIdentifierStart then some (text.leadingWord, text.afterWord) else none

/-- The identifier in parentheses in front of a text, and the text behind them.  Blanks may stand
around the identifier, and nothing else. -/
def parenthesizedIdentifier? (text : Text) : Option (Text × Text) := do
  let inside ← text.afterStart? ['(']
  let (name, rest) ← identifier? inside.trimStart
  let after ← rest.trimStart.afterStart? [')']
  return (name, after)

/-- The name that a test in front of a text asks about, and the text behind the test.  Nothing has
to stand between the word and the name, so `definedX` asks about `X`; an opening parenthesis that is
not closed behind the name makes no test, since no name begins with one. -/
def definedTest? (text : Text) : Option (Text × Text) := do
  let rest ← text.afterStart? definedWord
  let rest := rest.trimStart
  (parenthesizedIdentifier? rest).orElse fun _ => identifier? rest

/-- A text with its tests replaced, where `skip` characters still belong to the test replaced last,
and a test may begin only at a word boundary.  A boundary is taken by the word characters of
Unicode, the tested name by those of ASCII.  Behind a test the next character is at a boundary even
if it is a letter: what ended the name is no word character of ASCII. -/
def replaceDefinedFrom (isDefined : Text → Bool) : Nat → Bool → Text → Text
  | _, _, [] => []
  | skip + 1, _, _ :: rest => replaceDefinedFrom isDefined skip true rest
  | 0, boundary, character :: rest =>
    match if boundary then definedTest? (character :: rest) else none with
    | some (name, after) =>
      (if isDefined name then '1' else '0') ::
        replaceDefinedFrom isDefined (rest.length - after.length) true rest
    | none =>
      character :: replaceDefinedFrom isDefined 0 (!isUnicodeWordCharacter character) rest

def replaceDefined (isDefined : Text → Bool) (text : Text) : Text :=
  replaceDefinedFrom isDefined 0 true text

end ScriptPreprocessor
