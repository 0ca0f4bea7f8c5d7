import ScriptPreprocessor.Text.Basic

namespace ScriptPreprocessor

/-!
# Searching and replacing

The first place of a text inside another splits the outer text into what comes before and what
comes after (`splitFirst?`).  Replacement goes from left to right and does not look again at what
it has written.
-/

namespace Text

/-- What comes before and after the first occurrence of a text.  The empty text occurs in front of
everything. -/
def splitFirst? (text sought : Text) : Option (Text × Text) :=
  match text with
  | [] => if sought.isEmpty then some ([], []) else none
  | character :: rest =>
    match afterStart? (character :: rest) sought with
    | some after => some ([], after)
    | none => (splitFirst? rest sought).map fun (before, after) => (character :: before, after)

def contains (text sought : Text) : Bool :=
  (splitFirst? text sought).isSome

/-- What comes before and after the last occurrence of a character. -/
def splitLast? (text : Text) (sought : Char) : Option (Text × Text) :=
  match text with
  | [] => none
  | character :: rest =>
    match splitLast? rest sought with
    | some (before, after) => some (character :: before, after)
    | none => if character == sought then some ([], rest) else none

/-- Replacement of every occurrence, where `skip` characters still belong to the occurrence that
was replaced last. -/
def replaceFrom (sought replacement : Text) : Nat → Text → Text
  | _, [] => []
  | skip + 1, _ :: rest => replaceFrom sought replacement skip rest
  | 0, character :: rest =>
    if startsWith (character :: rest) sought then
      replacement ++ replaceFrom sought replacement (sought.length - 1) rest
    else
      character :: replaceFrom sought replacement 0 rest

/-- A text with every occurrence of another replaced, from left to right.  The empty text occurs
in front of every character and at the end. -/
def replaceAll (text sought replacement : Text) : Text :=
  if sought.isEmpty then
    text.flatMap (fun character => replacement ++ [character]) ++ replacement
  else
    replaceFrom sought replacement 0 text

end Text

end ScriptPreprocessor
