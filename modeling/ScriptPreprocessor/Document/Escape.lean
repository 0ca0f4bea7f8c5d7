import ScriptPreprocessor.Text.Blank
import ScriptPreprocessor.Text.Lines

namespace ScriptPreprocessor

/-!
# Escaped sources

A stored script carries the text that the user wrote as comment lines: every line of it follows
`//* `, below a marker line.  A text that does not end its last line is followed by an
end-of-text line, so that reading gives back exactly the text.

There are two such blocks.  The one at the end of a compiled script stands behind its marker, and
the last marker in a document counts.  The one of an include script stands at the first include
marker, ends with a footer, and is followed by a placeholder state, because every stored script
must compile on its own.
-/

namespace Document

/-! ## Lines of the format -/

/-- The line above the escaped sources of a compiled script.  It is compared as a whole line, so a
script may contain it inside a longer one. -/
def escapedMarker : Text :=
  "//********** Escaped, original, non-preprocessed sources **********//".toList

def includeMarker : Text :=
  "//********** Non-preprocessed include sources **********//".toList

def includeFooter : Text :=
  "//********* End of non-preprocessed include sources *********//".toList

/-- What every escaped line begins with. -/
def escapeMark : Text := "//* ".toList

/-- An escape mark that lost its blank to an editor which removes blanks at the ends of lines; only
a blank line can lose it. -/
def trimmedEscapeMark : Text := "//*".toList

/-- The line that follows the sources when their last line is not ended.  It is no escaped line, as
it lacks the blank behind the mark, so no line of a user can be taken for it. -/
def endOfTextMarker : Text := "//*$".toList

/-- The state that makes an include script compile, since a script without any state does not. -/
def placeholderState : Text :=
  "default \x7b state_entry() \x7b llOwnerSay(\"This is an #include script.\"); \x7d \x7d".toList

def isMarkerLine (marker line : Text) : Bool :=
  line.withoutEnding == marker

/-- The lines before and after the first marker line. -/
def splitAtFirst? (marker : Text) : List Text → Option (List Text × List Text)
  | [] => none
  | line :: more =>
    if isMarkerLine marker line then some ([], more)
    else (splitAtFirst? marker more).map fun (before, after) => (line :: before, after)

/-- The lines before and after the last marker line.  It is the right one in a compiled script,
since no line of the sources behind it can be a marker: every one of them is escaped. -/
def splitAtLast? (marker : Text) : List Text → Option (List Text × List Text)
  | [] => none
  | line :: more =>
    match splitAtLast? marker more with
    | some (before, after) => some (line :: before, after)
    | none => if isMarkerLine marker line then some ([], more) else none

def hasMarker (marker document : Text) : Bool :=
  document.lines.any (isMarkerLine marker)

/-! ## Escaping lines -/

/-- Whether a text leaves its last line without a line feed.  The empty text has no line to leave
so. -/
def isUnterminated (text : Text) : Bool :=
  !text.isEmpty && !text.endsWith ['\n']

/-- The escaped lines of a text.  A last line without a line feed has to be given one here, and the
line below it says that it was not there. -/
def escapeLines (text : Text) : Text :=
  (text.lines.map fun line => escapeMark ++ line).flatten ++
    if isUnterminated text then '\n' :: endOfTextMarker ++ ['\n'] else []

/-- The line that an escaped line stands for.  A trimmed escape mark stands for a blank line. -/
def unescapeLine? (line : Text) : Option Text :=
  match line.afterStart? escapeMark with
  | some source => some source
  | none =>
    if line.withoutEnding == trimmedEscapeMark then some (line.drop trimmedEscapeMark.length)
    else none

/-- The lines that the escaped lines in front of a list stand for, whether an end-of-text line
follows them, and the lines behind. -/
def takeEscaped : List Text → List Text × Bool × List Text
  | [] => ([], false, [])
  | line :: more =>
    if isMarkerLine endOfTextMarker line then
      ([], true, more)
    else
      match unescapeLine? line with
      | none => ([], false, line :: more)
      | some source =>
        let (sources, ended, rest) := takeEscaped more
        (source :: sources, ended, rest)

def withoutFinalNewline (text : Text) : Text :=
  (text.beforeEnd? ['\n']).getD text

/-- The text that the escaped lines in front of a list stand for, and the text behind them.  Reading
stops at the first line that is not escaped, whatever follows. -/
def unescapeLines (lines : List Text) : Text × Text :=
  let (sources, ended, rest) := takeEscaped lines
  let text : Text := sources.flatten
  (if ended then withoutFinalNewline text else text, rest.flatten)

/-! ## Blocks -/

/-- What is wrong with a block that cannot be read.  Whether that is an error, or makes the document
its own text, is left to those who read. -/
inductive Damage where
  | noEscapedMarker
  | textAfterSources
  | noIncludeMarker
  | textInsideSources
  | emptySources
  deriving DecidableEq, Repr

def Damage.message : Damage → Text
  | .noEscapedMarker => "no escaped sources marker".toList
  | .textAfterSources => "unescaped text after the escaped sources".toList
  | .noIncludeMarker => "no include sources marker".toList
  | .textInsideSources => "unescaped text inside the include sources".toList
  | .emptySources => "include sources are empty".toList

/-- The block that stores a text at the end of a compiled script.  To the compiler it is nothing but
comments. -/
def escape (text : Text) : Text :=
  escapedMarker ++ '\n' :: escapeLines text

/-- The text that the last block of a document stores.  Nothing but blanks may follow the escaped
lines, because reading would drop it. -/
def unescapeBlock (document : Text) : Except Damage Text :=
  match splitAtLast? escapedMarker document.lines with
  | none => .error .noEscapedMarker
  | some (_, after) =>
    let (text, rest) := unescapeLines after
    if rest.trim.isEmpty then .ok text else .error .textAfterSources

/-- The text that the last block of a document stores, or the document when there is none that can
be read. -/
def unescape (document : Text) : Text :=
  match unescapeBlock document with
  | .ok text => text
  | .error _ => document

/-- A document without its last block and without the empty line in front of the block.  Of several
line feeds only one is taken, which is the one that saving adds. -/
def stripBlock (document : Text) : Text :=
  match splitAtLast? escapedMarker document.lines with
  | none => document
  | some (beforeLines, _) =>
    let before : Text := beforeLines.flatten
    match before.beforeEnd? ['\n'] with
    | none => before
    | some rest => if rest.isEmpty || rest.endsWith ['\n'] then rest else before

/-- The stored form of an include script.  The empty one is stored as nothing: a block without lines
could not be told from a damaged one. -/
def encodeInclude (text : Text) : Text :=
  if text.isEmpty then []
  else
    includeMarker ++ '\n' :: escapeLines text ++ includeFooter ++
      '\n' :: '\n' :: placeholderState ++ ['\n']

/-- Whether a text begins with the footer of an include block.  Blanks behind the footer do not
matter, since an editor may leave some there. -/
def beginsWithFooter (text : Text) : Bool :=
  Text.trimEnd (text.takeWhile (· != '\n')) == includeFooter

/-- The text that an include document stores.  Its lines must run to the footer or to the end of
the document, and there must be some. -/
def decodeInclude (document : Text) : Except Damage Text :=
  match splitAtFirst? includeMarker document.lines with
  | none => .error .noIncludeMarker
  | some (_, after) =>
    let (text, rest) := unescapeLines after
    if !(rest.trim.isEmpty || beginsWithFooter rest) then .error .textInsideSources
    else if text.isEmpty then .error .emptySources
    else .ok text

end Document

end ScriptPreprocessor
