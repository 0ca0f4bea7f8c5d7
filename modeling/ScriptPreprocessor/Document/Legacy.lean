import ScriptPreprocessor.Text.Search

namespace ScriptPreprocessor

/-!
# Legacy documents

Other editors store the user's text in one block comment between two markers.  To keep a comment
inside the text from ending the block, they put a bar between the two characters of every comment
delimiter; they also have names of their own for some of the built-in macros.  Reading such a
document takes the bars out and renames the macros.
-/

namespace Document

def legacyStart : Text := "//start_unprocessed_text\n/*".toList

def legacyEnd : Text := "*/\n//end_unprocessed_text".toList

/-- The spellings of a legacy text and those that replace them, in the order of replacement.  Three
of the other editors' names stand for the one name that is known here. -/
def legacySpellings : List (Text × Text) :=
  [("/|/".toList, "//".toList), ("/|*".toList, "/*".toList), ("*|/".toList, "*/".toList),
    ("__AGENTID__".toList, "__AGENT_ID__".toList),
    ("__AGENTKEY__".toList, "__AGENT_ID__".toList),
    ("__AGENTNAME__".toList, "__AGENT_NAME__".toList),
    ("__AGENTIDRAW__".toList, "__AGENT_ID__".toList),
    ("__SHORTFILE__".toList, "__FILE__".toList)]

/-- Whether a document is a legacy one.  The beginning of the block may stand anywhere, for the
compiled text stands in front of it. -/
def isLegacy (document : Text) : Bool :=
  document.contains legacyStart

/-- A text with its legacy spellings replaced, one after the other and each from left to right,
without looking again at what a replacement left. -/
def modernize (text : Text) : Text :=
  legacySpellings.foldl (fun text (old, new) => text.replaceAll old new) text

def endLastLine (text : Text) : Text :=
  if text.endsWith ['\n'] then text else text ++ ['\n']

/-- The user's text of a legacy document.  Without an end marker the block runs to the end of the
document; a document without a block is its own text. -/
def convertLegacy (document : Text) : Text :=
  match document.splitFirst? legacyStart with
  | none => document
  | some (_, body) =>
    let text :=
      match body.splitFirst? legacyEnd with
      | some (inside, _) => inside
      | none => body
    modernize (endLastLine text)

/-- The compiled text in front of the block of a legacy document. -/
def legacyCompiled? (document : Text) : Option Text :=
  (document.splitFirst? legacyStart).map Prod.fst

end Document

end ScriptPreprocessor
