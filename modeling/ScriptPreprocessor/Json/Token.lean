import ScriptPreprocessor.Json.Basic

namespace ScriptPreprocessor

/-!
# Tokens of JSON texts

A JSON text is read as brackets, commas, colons and scalar values, with blanks in between.  Every
token takes at least one character, so a text has no more tokens than characters.
-/

/-- A token of a JSON text. -/
inductive JsonToken where
  | openArray
  | closeArray
  | openObject
  | closeObject
  | comma
  | colon
  | scalar (value : Json)

namespace JsonToken

/-- Whether a character is a blank between tokens.  JSON has four of them, far fewer than Unicode
does. -/
def isSeparator (character : Char) : Bool :=
  character == ' ' || character == '\n' || character == '\t' || character == '\r'

/-! ## Strings -/

/-- Whether what follows a backslash is an escape. -/
def isEscape (letter : Char) (rest : Text) : Bool :=
  if letter == 'u' then
    let digits := rest.take 4
    digits.length == 4 && digits.all Text.isHexDigit
  else
    letter == '/' || Json.shortEscapes.any fun entry => entry.2 == letter

/-- The string literal that a text begins with, behind its opening quotation mark, and the text
behind its closing one. -/
def string? : Text → Option (Text × Text)
  | [] => none
  | '"' :: rest => some ([], rest)
  | '\\' :: letter :: rest =>
    if isEscape letter rest then
      (string? rest).map fun (literal, behind) => ('\\' :: letter :: literal, behind)
    else none
  | character :: rest =>
    if character.toNat < 0x20 then none
    else (string? rest).map fun (literal, behind) => (character :: literal, behind)

/-! ## Numbers -/

def digits (text : Text) : Text × Text :=
  (text.takeWhile Char.isDigit, text.dropWhile Char.isDigit)

def isInteger (digits : Text) : Bool :=
  !digits.isEmpty && (digits.length == 1 || digits.head? != some '0')

/-- A fraction, if there is one: a point and digits.  A point without digits is an error and not the
end of the number. -/
def fraction? (text : Text) : Option (Text × Text) :=
  match text with
  | '.' :: rest =>
    let (places, behind) := digits rest
    if places.isEmpty then none else some ('.' :: places, behind)
  | _ => some ([], text)

/-- An exponent, if there is one: a letter, perhaps a sign, and digits.  As with a fraction, the
letter alone is an error. -/
def exponent? (text : Text) : Option (Text × Text) :=
  match text with
  | letter :: rest =>
    if letter == 'e' || letter == 'E' then
      let sign : Text := (rest.take 1).filter fun character => character == '+' || character == '-'
      let (places, behind) := digits (rest.drop sign.length)
      if places.isEmpty then none else some (letter :: sign ++ places, behind)
    else some ([], text)
  | [] => some ([], [])

/-- The number that a text begins with, and the text behind it. -/
def number? (text : Text) : Option (Text × Text) := do
  let sign : Text := (text.take 1).filter (· == '-')
  let (whole, rest) := digits (text.drop sign.length)
  if !isInteger whole then none
  else
    let (fraction, rest) ← fraction? rest
    let (exponent, rest) ← exponent? rest
    some (sign ++ whole ++ fraction ++ exponent, rest)

/-! ## Tokens -/

/-- The token that a text without leading blanks begins with, and the text behind it. -/
def first? (text : Text) : Option (JsonToken × Text) :=
  match text with
  | [] => none
  | '[' :: rest => some (.openArray, rest)
  | ']' :: rest => some (.closeArray, rest)
  | '\x7b' :: rest => some (.openObject, rest)
  | '\x7d' :: rest => some (.closeObject, rest)
  | ',' :: rest => some (.comma, rest)
  | ':' :: rest => some (.colon, rest)
  | '"' :: rest => (string? rest).map fun (literal, behind) => (.scalar (.string literal), behind)
  | 'n' :: 'u' :: 'l' :: 'l' :: rest => some (.scalar .null, rest)
  | 't' :: 'r' :: 'u' :: 'e' :: rest => some (.scalar (.boolean true), rest)
  | 'f' :: 'a' :: 'l' :: 's' :: 'e' :: rest => some (.scalar (.boolean false), rest)
  | _ => (number? text).map fun (literal, behind) => (.scalar (.number literal), behind)

/-- The tokens of a text, when it has at most as many as allowed. -/
def scanUpTo : Nat → Text → Option (List JsonToken)
  | 0, text => if (text.dropWhile isSeparator).isEmpty then some [] else none
  | limit + 1, text =>
    match text.dropWhile isSeparator with
    | [] => some []
    | character :: rest => do
      let (token, behind) ← first? (character :: rest)
      return token :: (← scanUpTo limit behind)

def scan (text : Text) : Option (List JsonToken) :=
  scanUpTo text.length text

end JsonToken

end ScriptPreprocessor
