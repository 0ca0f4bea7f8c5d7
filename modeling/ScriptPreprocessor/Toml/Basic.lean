import ScriptPreprocessor.Text.Basic

namespace ScriptPreprocessor

/-!
# TOML values

A value of a TOML document, and the way it is written.  Texts and keys are written in the plainest
form that holds them: without quotation marks where that is possible, then between double ones,
then between single ones, and with escapes only when nothing else is left.
-/

/-- A TOML value.  Numbers with a fraction, dates and times are kept as they are written: no setting
can use them, but a document with them has to be read. -/
inductive Toml where
  | string (text : Text)
  | integer (value : Int)
  | boolean (value : Bool)
  | literal (text : Text)
  | array (items : List Toml)
  | table (members : List (Text × Toml))

namespace Toml

/-! ## Characters -/

def isBareCharacter (character : Char) : Bool :=
  character.isAlphanum || character == '-' || character == '_'

/-- Whether a character cannot stand in a text as it is.  A tab can, unlike the other characters of
that range. -/
def isControl (character : Char) : Bool :=
  (character.toNat < 0x20 && character != '\t') || character.toNat == 0x7F

/-- The characters that are escaped as a backslash and a letter, with their letters. -/
def shortEscapes : List (Char × Char) :=
  [('\x08', 'b'), ('\t', 't'), ('\n', 'n'), ('\x0c', 'f'), ('\r', 'r'), ('"', '"'), ('\\', '\\')]

def longestRun (sought : Char) (text : Text) : Nat :=
  (text.foldl
    (fun (longest, run) character =>
      if character == sought then (max longest (run + 1), run + 1) else (longest, 0))
    (0, 0)).1

/-! ## Writing texts -/

def hexDigit (value : Nat) : Char :=
  (Nat.digitChar value).toUpper

/-- A character behind a backslash.  Every control character has a code of two digits, so no longer
escape is needed. -/
def escapeCharacter (character : Char) : Text :=
  match shortEscapes.lookup character with
  | some letter => ['\\', letter]
  | none =>
    "\\u00".toList ++ [hexDigit (character.toNat / 16), hexDigit (character.toNat % 16)]

/-- A text with escapes, for double quotation marks.  Over several lines, line feeds stay, and so
do quotation marks until three would follow each other. -/
def escapeFrom (severalLines : Bool) (quotes : Nat) : Text → Text
  | [] => []
  | character :: rest =>
    if character == '"' then
      if severalLines && quotes < 2 then character :: escapeFrom severalLines (quotes + 1) rest
      else escapeCharacter character ++ escapeFrom severalLines 0 rest
    else if character == '\n' && severalLines then character :: escapeFrom severalLines 0 rest
    else if isControl character || character == '\t' || character == '\\' then
      escapeCharacter character ++ escapeFrom severalLines 0 rest
    else character :: escapeFrom severalLines 0 rest

def between (mark text : Text) : Text :=
  mark ++ text ++ mark

def plain? (text : Text) : Option Text :=
  if text.any (fun character => isControl character || character == '"' || character == '\\') then
    none
  else some (between ['"'] text)

/-- A text between single quotation marks, when they can hold it.  There are no escapes there, so a
text with such a mark cannot stand between them. -/
def literal? (text : Text) : Option Text :=
  if text.any (fun character => isControl character || character == '\'') then none
  else some (between ['\''] text)

/-- The marks around a text over several lines.  A line feed behind the first ones does not
count. -/
def spread (mark : Char) (text : Text) : Text :=
  let marks := List.replicate 3 mark
  marks ++ (if '\n' ∈ text then '\n' :: text else text) ++ marks

def hasControl (text : Text) : Bool :=
  text.any fun character => isControl character && character != '\n'

/-- A text between three double quotation marks, when it needs no escape there.  A backslash would
begin one. -/
def plainLines? (text : Text) : Option Text :=
  if hasControl text || '\\' ∈ text || 2 < longestRun '"' text then none
  else some (spread '"' text)

def literalLines? (text : Text) : Option Text :=
  if hasControl text || 2 < longestRun '\'' text then none else some (spread '\'' text)

def escaped (text : Text) : Text :=
  if '\n' ∈ text then spread '"' (escapeFrom true 0 text)
  else between ['"'] (escapeFrom false 0 text)

/-- A text as a value.  The forms are tried from the plainest one on; only the last can hold every
text. -/
def quoted (text : Text) : Text :=
  match plain? text, literal? text, plainLines? text, literalLines? text with
  | some written, _, _, _ => written
  | none, some written, _, _ => written
  | none, none, some written, _ => written
  | none, none, none, some written => written
  | none, none, none, none => escaped text

/-- A text as a key, which stays on one line.  A key has no form over several lines, so a line feed
in it is escaped. -/
def key (text : Text) : Text :=
  if !text.isEmpty && text.all isBareCharacter then text
  else
    match plain? text, literal? text with
    | some written, _ => written
    | none, some written => written
    | none, none => between ['"'] (escapeFrom false 0 text)

/-! ## Writing values -/

mutual

/-- A value on one line, unless a text in it has several. -/
def inline : Toml → Text
  | .string text => quoted text
  | .integer value => Text.ofInt value
  | .boolean value => if value then "true".toList else "false".toList
  | .literal text => text
  | .array items => '[' :: Text.join ", ".toList (inlineItems items) ++ [']']
  | .table members =>
    if members.isEmpty then ['\x7b', '\x7d']
    else ['\x7b', ' '] ++ Text.join ", ".toList (inlineMembers members) ++ [' ', '\x7d']

def inlineItems : List Toml → List Text
  | [] => []
  | item :: items => item.inline :: inlineItems items

def inlineMembers : List (Text × Toml) → List Text
  | [] => []
  | (name, value) :: members =>
    (key name ++ " = ".toList ++ value.inline) :: inlineMembers members

end

def renderTable (path : List Text) (members : List (Text × Toml)) : Text :=
  '[' :: Text.join ['.'] (path.map key) ++ ']' :: '\n' ::
    (inlineMembers members).flatMap fun line => line ++ ['\n']

def renderTables (tables : List (List Text × List (Text × Toml))) : Text :=
  Text.join ['\n'] (tables.map fun (path, members) => renderTable path members)

end Toml

end ScriptPreprocessor
