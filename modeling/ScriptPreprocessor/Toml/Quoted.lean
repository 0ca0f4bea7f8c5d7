import ScriptPreprocessor.Text.Blank
import ScriptPreprocessor.Toml.Basic

namespace ScriptPreprocessor

/-!
# Reading quoted TOML texts

A text stands between double quotation marks, where it may have escapes, or between single ones,
where it stands as it is.  Between three marks it may go over several lines; a line feed behind
the first marks does not count, and one or two marks before the last three belong to the text.
-/

namespace Toml

/-- A line feed at the beginning of a text, perhaps behind a carriage return, and the text behind
it. -/
def newline? : Text → Option Text
  | '\n' :: rest => some rest
  | '\r' :: '\n' :: rest => some rest
  | _ => none

def withoutFirstNewline (text : Text) : Text :=
  (newline? text).getD text

/-! ## Escapes -/

/-- The character that follows a backslash, and the text behind it.  A code that belongs to no
character is an error and is not replaced. -/
def escape? : Text → Option (Char × Text)
  | 'u' :: a :: b :: c :: d :: rest =>
    (Text.hexCharacter? [a, b, c, d]).map fun character => (character, rest)
  | 'U' :: a :: b :: c :: d :: e :: f :: g :: h :: rest =>
    (Text.hexCharacter? [a, b, c, d, e, f, g, h]).map fun character => (character, rest)
  | 'x' :: a :: b :: rest => (Text.hexCharacter? [a, b]).map fun character => (character, rest)
  | 'e' :: rest => some ('\x1b', rest)
  | letter :: rest =>
    (shortEscapes.find? fun entry => entry.2 == letter).map fun entry => (entry.1, rest)
  | [] => none

theorem length_lt_of_escape? {text rest : Text} {character : Char}
    (found : escape? text = some (character, rest)) : rest.length < text.length := by
  unfold escape? at found
  split at found
  all_goals
    simp only [Option.map_eq_some_iff, Prod.mk.injEq, Option.some.injEq, reduceCtorEq] at found
  all_goals
    obtain ⟨_, _, _, rfl⟩ := found
    simp only [List.length_cons]
    omega

/-! ## Texts on one line -/

def readQuoted (text : Text) : Option (Text × Text) :=
  match text with
  | [] => none
  | '"' :: rest => some ([], rest)
  | '\\' :: rest =>
    match _found : escape? rest with
    | some (character, behind) =>
      (readQuoted behind).map fun (content, after) => (character :: content, after)
    | none => none
  | character :: rest =>
    if isControl character then none
    else (readQuoted rest).map fun (content, after) => (character :: content, after)
  termination_by text.length
  decreasing_by
    · have := length_lt_of_escape? _found
      simp only [List.length_cons]
      omega
    · simp

def readLiteral (text : Text) : Option (Text × Text) :=
  let content : Text := text.takeWhile (· != '\'')
  match text.drop content.length with
  | _ :: rest => if content.any isControl then none else some (content, rest)
  | [] => none

/-! ## Texts over several lines -/

/-- The text behind closing marks, with the marks before them that belong to the text. -/
def closing? (mark : Char) (text : Text) : Option (Text × Text) :=
  if text.startsWith (List.replicate 3 mark) then
    let extra := ((text.drop 3).take 2).takeWhile (· == mark)
    some (extra, text.drop (3 + extra.length))
  else none

/-- Whether a character may stand in a text over several lines, in front of the rest of it. -/
def isLineCharacter (character : Char) (rest : Text) : Bool :=
  !isControl character || character == '\n' || (character == '\r' && rest.head? == some '\n')

/-- Whether a backslash before a text ends its line, so that the blanks and line feeds behind it
do not count. -/
def continuesLine (rest : Text) : Bool :=
  (newline? (rest.dropWhile isSpaceOrTab)).isSome

/-- A character that does not count behind a backslash at the end of a line. -/
def isFill (character : Char) : Bool :=
  isSpaceOrTab character || character == '\n' || character == '\r'

theorem length_dropWhile_lt (test : Char → Bool) (character : Char) (rest : Text) :
    (rest.dropWhile test).length < (character :: rest).length :=
  Nat.lt_succ_of_le (List.dropWhile_sublist test).length_le

/-- Reads a text over several lines up to its closing double quotation marks.  The end is looked for
before anything else, since marks may stand in the text as long as three do not follow each
other. -/
def readQuotedLines (text : Text) : Option (Text × Text) :=
  match closing? '"' text with
  | some closed => some closed
  | none =>
    match text with
    | [] => none
    | '\\' :: rest =>
      if continuesLine rest then readQuotedLines (rest.dropWhile isFill)
      else
        match _found : escape? rest with
        | some (character, behind) =>
          (readQuotedLines behind).map fun (content, after) => (character :: content, after)
        | none => none
    | character :: rest =>
      if isLineCharacter character rest then
        (readQuotedLines rest).map fun (content, after) => (character :: content, after)
      else none
  termination_by text.length
  decreasing_by
    · exact length_dropWhile_lt isFill _ rest
    · have := length_lt_of_escape? _found
      simp only [List.length_cons]
      omega
    · simp

def readLiteralLines (text : Text) : Option (Text × Text) :=
  match closing? '\'' text with
  | some closed => some closed
  | none =>
    match text with
    | [] => none
    | character :: rest =>
      if isLineCharacter character rest then
        (readLiteralLines rest).map fun (content, after) => (character :: content, after)
      else none

/-- Reads a quoted text of any kind.  Three marks are tried before one, or the empty text would be
read in front of a third. -/
def readText? (text : Text) : Option (Text × Text) :=
  match text with
  | '"' :: '"' :: '"' :: rest => readQuotedLines (withoutFirstNewline rest)
  | '\'' :: '\'' :: '\'' :: rest => readLiteralLines (withoutFirstNewline rest)
  | '"' :: rest => readQuoted rest
  | '\'' :: rest => readLiteral rest
  | _ => none

end Toml

end ScriptPreprocessor
