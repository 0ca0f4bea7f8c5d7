import ScriptPreprocessor.Text.Basic

namespace ScriptPreprocessor

/-!
# JSON values

A value keeps its numbers and strings as literals, the way they stand in a JSON text.  So printing
a value needs no decision about them, and what a literal means is asked only where it matters: a
string with half of a surrogate pair is well formed as a literal, but it has no text.
-/

/-- A JSON value.  A string literal is kept without its quotation marks, and the members of an
object stay in their order, also when two of them have one name. -/
inductive Json where
  | null
  | boolean (value : Bool)
  | number (literal : Text)
  | string (literal : Text)
  | array (items : List Json)
  | object (members : List (Text × Json))

namespace Json

/-! ## String literals -/

def shortEscapes : List (Char × Char) :=
  [('"', '"'), ('\\', '\\'), ('\x08', 'b'), ('\x0c', 'f'), ('\n', 'n'), ('\r', 'r'), ('\t', 't')]

def hexDigit (value : Nat) : Char :=
  Nat.digitChar value

/-- A character as it stands in a string literal.  Only quotation marks, backslashes and control
characters are escaped. -/
def escapeCharacter (character : Char) : Text :=
  match shortEscapes.lookup character with
  | some letter => ['\\', letter]
  | none =>
    if character.toNat < 0x20 then
      "\\u00".toList ++ [hexDigit (character.toNat / 16), hexDigit (character.toNat % 16)]
    else [character]

def escape (text : Text) : Text :=
  text.flatMap escapeCharacter

def codeUnit (digits : List Char) : Nat :=
  Text.digitsValue digits 16

/-- The character that a code unit, or a pair of surrogate code units, stands for.  Half of a pair
stands for none, whichever half it is. -/
def characterOf? (high : Nat) (low : Option Nat) : Option Char :=
  if 0xD800 ≤ high ∧ high < 0xDC00 then
    match low with
    | some low =>
      if 0xDC00 ≤ low ∧ low < 0xE000 then
        some (Char.ofNat (0x10000 + (high - 0xD800) * 0x400 + (low - 0xDC00)))
      else none
    | none => none
  else if 0xDC00 ≤ high ∧ high < 0xE000 then none
  else some (Char.ofNat high)

def isHighSurrogate (unit : Nat) : Bool :=
  0xD800 ≤ unit && unit < 0xDC00

/-- The text of a string literal.  A surrogate without its other half has none. -/
def literalText? : Text → Option Text
  | [] => some []
  | '\\' :: 'u' :: a :: b :: c :: d :: rest =>
    let unit := codeUnit [a, b, c, d]
    if isHighSurrogate unit then
      match rest with
      | '\\' :: 'u' :: e :: f :: g :: h :: rest => do
        let character ← characterOf? unit (some (codeUnit [e, f, g, h]))
        return character :: (← literalText? rest)
      | _ => none
    else do
      let character ← characterOf? unit none
      return character :: (← literalText? rest)
  | '\\' :: letter :: rest => do
    let character :=
      ((shortEscapes.find? fun entry => entry.2 == letter).map Prod.fst).getD letter
    return character :: (← literalText? rest)
  | character :: rest => (literalText? rest).map (character :: ·)

/-! ## Values of other types -/

def ofText (text : Text) : Json :=
  .string (escape text)

def ofNat (number : Nat) : Json :=
  .number (Text.ofNat number)

def text? : Json → Option Text
  | .string literal => literalText? literal
  | _ => none

/-- The natural number of a JSON number below a limit.  A number with a sign, a fraction or an
exponent is none. -/
def natural? (limit : Nat) : Json → Option Nat
  | .number literal =>
    let value := Text.digitsValue literal
    if literal.all Char.isDigit && decide (value < limit) then some value else none
  | _ => none

/-- A value that may be missing; `null` stands for a missing one. -/
def ofOption {α : Type} (encode : α → Json) : Option α → Json
  | some value => encode value
  | none => .null

/-! ## Printing -/

def quoted (literal : Text) : Text :=
  '"' :: literal ++ ['"']

mutual

/-- A value on one line, without any blank between its parts. -/
def compact : Json → Text
  | .null => "null".toList
  | .boolean value => if value then "true".toList else "false".toList
  | .number literal => literal
  | .string literal => quoted literal
  | .array items => '[' :: Text.join [','] (compactItems items) ++ [']']
  | .object members => '\x7b' :: Text.join [','] (compactMembers members) ++ ['\x7d']

def compactItems : List Json → List Text
  | [] => []
  | item :: items => item.compact :: compactItems items

def compactMembers : List (Text × Json) → List Text
  | [] => []
  | (name, value) :: members => (quoted name ++ ':' :: value.compact) :: compactMembers members

end

/-- The parts of a container, each on a line of its own, with the closing bracket on the last line.
An empty container stays on one line, whatever the indentation. -/
def spread (opening closing : Char) (indentation : Nat) (parts : List Text) : Text :=
  if parts.isEmpty then [opening, closing]
  else
    let newline := '\n' :: List.replicate (indentation + 2) ' '
    opening :: newline ++ Text.join (',' :: newline) parts ++
      '\n' :: List.replicate indentation ' ' ++ [closing]

mutual

/-- A value over several lines, each container two columns further in than what holds it. -/
def pretty (indentation : Nat) : Json → Text
  | .null => "null".toList
  | .boolean value => if value then "true".toList else "false".toList
  | .number literal => literal
  | .string literal => quoted literal
  | .array items => spread '[' ']' indentation (prettyItems (indentation + 2) items)
  | .object members =>
    spread '\x7b' '\x7d' indentation (prettyMembers (indentation + 2) members)

def prettyItems (indentation : Nat) : List Json → List Text
  | [] => []
  | item :: items => item.pretty indentation :: prettyItems indentation items

def prettyMembers (indentation : Nat) : List (Text × Json) → List Text
  | [] => []
  | (name, value) :: members =>
    (quoted name ++ ": ".toList ++ value.pretty indentation) :: prettyMembers indentation members

end

def render (value : Json) : Text :=
  value.pretty 0

end Json

end ScriptPreprocessor
