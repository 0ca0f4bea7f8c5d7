import ScriptPreprocessor.Text.Basic

namespace ScriptPreprocessor

/-!
# Words and identifiers

Macro names, parameters and the names in conditions are ASCII words.  A word is a maximal run of
letters, digits and underscores; an identifier is a word that does not begin with a digit.
-/

def isWordCharacter (character : Char) : Bool :=
  character.isAlphanum || character == '_'

def isIdentifierStart (character : Char) : Bool :=
  character.isAlpha || character == '_'

def isQuote (character : Char) : Bool :=
  character == '"' || character == '\''

theorem isWordCharacter_of_isIdentifierStart {character : Char}
    (start : isIdentifierStart character = true) : isWordCharacter character = true := by
  simp only [isIdentifierStart, isWordCharacter, Char.isAlphanum, Bool.or_eq_true] at start ⊢
  rcases start with letter | underscore
  · exact Or.inl (Or.inl letter)
  · exact Or.inr underscore

namespace Text

def isIdentifier : Text → Bool
  | [] => false
  | character :: rest => isIdentifierStart character && rest.all isWordCharacter

def leadingWord (text : Text) : Text :=
  text.takeWhile isWordCharacter

def afterWord (text : Text) : Text :=
  text.dropWhile isWordCharacter

theorem leadingWord_append_afterWord (text : Text) :
    text.leadingWord ++ text.afterWord = text :=
  List.takeWhile_append_dropWhile

end Text

end ScriptPreprocessor
