import ScriptPreprocessor.Text.Basic

namespace ScriptPreprocessor

/-!
# Lines

A line keeps its line feed, so that the lines of a text put together give the text back
(`flatten_lines`).  Only the last line may lack one.
-/

namespace Text

/-- The lines of a text, each with its line feed.  A carriage return ends no line; one in front of a
line feed is the last but one character of its line.  The empty text has no line. -/
def lines : Text → List Text
  | [] => []
  | character :: rest =>
    if character = '\n' then
      [character] :: lines rest
    else
      match lines rest with
      | [] => [[character]]
      | line :: more => (character :: line) :: more

@[simp] theorem lines_nil : lines [] = [] := rfl

theorem flatten_lines (text : Text) : (lines text).flatten = text := by
  induction text with
  | nil => rfl
  | cons character rest ih =>
    unfold lines
    split
    · simp [ih]
    · split
      · next none => simp [none] at ih; simp [← ih]
      · next line more some => simp [some] at ih; simp [← ih]

/-- A line without its ending, which is a line feed, a carriage return, or both in the order
carriage return, line feed. -/
def withoutEnding (line : Text) : Text :=
  let line := (line.beforeEnd? ['\n']).getD line
  (line.beforeEnd? ['\r']).getD line

end Text

end ScriptPreprocessor
