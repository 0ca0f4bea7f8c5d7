import ScriptPreprocessor.Toml.Quoted
import ScriptPreprocessor.Toml.Scalar
import ScriptPreprocessor.Toml.Tree

namespace ScriptPreprocessor

/-!
# Reading TOML

A document is read line by line: a header opens a table, and the lines below it put values under
keys.  Values may contain values.  Every piece that is read takes at least one character, so a
document has no more pieces than characters; this bounds the recursion.
-/

namespace Toml

/-! ## Blanks and comments -/

def skipBlanks (text : Text) : Text :=
  text.dropWhile isSpaceOrTab

/-- The text behind a comment, which begins with `#` and goes to the end of its line. -/
def comment? (text : Text) : Option Text :=
  match text with
  | '#' :: rest =>
    let content : Text := rest.takeWhile fun character => !isControl character
    let behind : Text := rest.drop content.length
    if behind.isEmpty || (newline? behind).isSome then some behind else none
  | _ => some text

/-- The text behind blanks, comments and line feeds; at most a number of them. -/
def skipLines? : Nat → Text → Option Text
  | 0, text => some text
  | limit + 1, text => do
    let behind ← comment? (skipBlanks text)
    match newline? behind with
    | some rest => skipLines? limit rest
    | none => some behind

/-- The text behind the end of a line: blanks, perhaps a comment, and a line feed or the end of the
document. -/
def endLine? (text : Text) : Option Text := do
  let behind ← comment? (skipBlanks text)
  if behind.isEmpty then some behind else newline? behind

/-! ## Keys -/

/-- A key without dots, and the text behind it.  Between quotation marks it may be any text, also
the empty one. -/
def simpleKey? (text : Text) : Option (Text × Text) :=
  match text with
  | '"' :: rest => readQuoted rest
  | '\'' :: rest => readLiteral rest
  | _ =>
    let name : Text := text.takeWhile isBareCharacter
    if name.isEmpty then none else some (name, text.drop name.length)

/-- A key, which may have dots, and the text behind it. -/
def key? : Nat → Text → Option (List Text × Text)
  | 0, _ => none
  | limit + 1, text => do
    let (name, rest) ← simpleKey? (skipBlanks text)
    match skipBlanks rest with
    | '.' :: more => do
      let (names, behind) ← key? limit more
      some (name :: names, behind)
    | behind => some ([name], behind)

/-! ## Values -/

mutual

/-- A value, and the text behind it.  The limit only bounds the recursion: it falls with every item
and every level, of which a text has no more than characters. -/
def value? : Nat → Text → Option (Toml × Text)
  | 0, _ => none
  | limit + 1, text =>
    match text with
    | '"' :: _ | '\'' :: _ =>
      (readText? text).map fun (content, behind) => (.string content, behind)
    | '[' :: rest => items? limit [] rest
    | '\x7b' :: rest => members? limit [] rest
    | _ =>
      let (word, behind) := scalarText text
      (scalar? word).map fun value => (value, behind)

/-- The items of an array from the given ones on, up to its end. -/
def items? : Nat → List Toml → Text → Option (Toml × Text)
  | 0, _, _ => none
  | limit + 1, earlier, text => do
    let text ← skipLines? text.length text
    if text.startsWith [']'] then some (.array earlier, text.drop 1)
    else
      let (item, rest) ← value? limit text
      let rest ← skipLines? rest.length rest
      match rest with
      | ',' :: rest => items? limit (earlier ++ [item]) rest
      | ']' :: rest => some (.array (earlier ++ [item]), rest)
      | _ => none

/-- The members of a table between braces from the given ones on, up to its end. -/
def members? : Nat → TomlMembers → Text → Option (Toml × Text)
  | 0, _, _ => none
  | limit + 1, earlier, text => do
    let text ← skipLines? text.length text
    if text.startsWith ['\x7d'] then
      some (.table (TomlNode.membersToToml earlier), text.drop 1)
    else
      let (path, rest) ← key? text.length text
      let rest ← rest.afterStart? ['=']
      let (value, rest) ← value? limit (skipBlanks rest)
      let members ← TomlMembers.insert? value path earlier
      let rest ← skipLines? rest.length rest
      match rest with
      | ',' :: rest => members? limit members rest
      | '\x7d' :: rest => some (.table (TomlNode.membersToToml members), rest)
      | _ => none

end

/-! ## Documents -/

/-- A document that is being read: its tables, and the path of the table that is open. -/
structure PartialDocument where
  members : TomlMembers := []
  opened : List Text := []

/-- Reads a header.  Two brackets add a table to the list under a name, one bracket opens the only
table under it. -/
def header? (document : PartialDocument) (text : Text) : Option (PartialDocument × Text) := do
  let isArray := text.startsWith "[[".toList
  let (path, rest) ← key? text.length (text.drop (if isArray then 2 else 1))
  let rest ← rest.afterStart? (if isArray then "]]".toList else "]".toList)
  let members ←
    if isArray then TomlMembers.appendTable? path document.members
    else TomlMembers.defineTable? path document.members
  some (⟨members, path⟩, rest)

/-- Reads a value under its key.  The key is looked up in the table that the last header opened. -/
def keyValue? (document : PartialDocument) (text : Text) : Option (PartialDocument × Text) := do
  let (path, rest) ← key? text.length text
  let rest ← rest.afterStart? ['=']
  let (value, rest) ← value? (2 * rest.length + 2) (skipBlanks rest)
  let members ← document.members.changeAt? (TomlMembers.insert? value path) document.opened
  some ({ document with members }, rest)

def lines? : Nat → PartialDocument → Text → Option PartialDocument
  | 0, _, _ => none
  | limit + 1, document, text => do
    let text ← skipLines? text.length text
    if text.isEmpty then some document
    else
      let (document, rest) ←
        if text.startsWith ['['] then header? document text else keyValue? document text
      lines? limit document (← endLine? rest)

def byteOrderMark : Char := '\uFEFF'

def parse? (text : Text) : Option (List (Text × Toml)) := do
  let text := (text.afterStart? [byteOrderMark]).getD text
  let document ← lines? (text.length + 1) {} text
  some (TomlNode.membersToToml document.members)

end Toml

end ScriptPreprocessor
