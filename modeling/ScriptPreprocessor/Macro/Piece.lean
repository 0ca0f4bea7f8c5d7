import ScriptPreprocessor.Text.Word

namespace ScriptPreprocessor

/-!
# Pieces of a line

Macros are replaced in words only, and never inside the literals `"…"` and `'…'`.  A line is
therefore read as literals, words and single other characters.  A literal that is not closed runs
to the end of the line.
-/

/-- Where a reader stands with respect to literals.  The quotation mark that opened a literal is
remembered, since the other one may stand inside it. -/
inductive LiteralMode where
  | outside
  | inside (quote : Char)
  | escaped (quote : Char)
  deriving DecidableEq, Repr

/-- The mode behind a character.  A backslash inside a literal keeps the next character from
closing it. -/
def LiteralMode.next : LiteralMode → Char → LiteralMode
  | .outside, character => if isQuote character then .inside character else .outside
  | .inside quote, character =>
    if character == '\\' then .escaped quote
    else if character == quote then .outside
    else .inside quote
  | .escaped quote, _ => .inside quote

/-- The rest of a literal, its closing mark included, and what follows it. -/
def spanLiteral (mode : LiteralMode) : Text → Text × Text
  | [] => ([], [])
  | character :: rest =>
    match mode.next character with
    | .outside => ([character], rest)
    | next =>
      let (inside, after) := spanLiteral next rest
      (character :: inside, after)

theorem spanLiteral_append (mode : LiteralMode) (text : Text) :
    (spanLiteral mode text).1 ++ (spanLiteral mode text).2 = text := by
  induction text generalizing mode with
  | nil => rfl
  | cons character rest ih =>
    unfold spanLiteral
    split
    · rfl
    · simp [ih]

/-- A literal, a word, or a character that belongs to neither.  A word is what looks like a name;
digits may begin it, so that the letters in `0xAB` are not taken for a macro. -/
inductive Piece where
  | literal (text : Text)
  | word (text : Text)
  | mark (character : Char)
  deriving DecidableEq, Repr

namespace Piece

def text : Piece → Text
  | .literal text => text
  | .word text => text
  | .mark character => [character]

/-- The first piece of a text that begins with a character, and what follows the piece. -/
def first (character : Char) (rest : Text) : Piece × Text :=
  if isQuote character then
    let (inside, after) := spanLiteral (.inside character) rest
    (.literal (character :: inside), after)
  else if isWordCharacter character then
    (.word (character :: rest.takeWhile isWordCharacter), rest.dropWhile isWordCharacter)
  else
    (.mark character, rest)

theorem text_first_append (character : Char) (rest : Text) :
    (first character rest).1.text ++ (first character rest).2 = character :: rest := by
  unfold first
  split
  · simp [text, spanLiteral_append]
  · split <;> simp [text]

theorem length_first_snd_le (character : Char) (rest : Text) :
    (first character rest).2.length ≤ rest.length := by
  unfold first
  split
  · have total := congrArg List.length (spanLiteral_append (.inside character) rest)
    simp only [List.length_append] at total
    simp only
    omega
  · split
    · exact (List.dropWhile_sublist _).length_le
    · exact Nat.le_refl _

/-- What follows the first piece is shorter than the text. -/
theorem length_after_lt {character : Char} {rest after : Text} {piece : Piece}
    (shape : first character rest = (piece, after)) :
    after.length < (character :: rest).length := by
  have bound := length_first_snd_le character rest
  rw [shape] at bound
  exact Nat.lt_succ_of_le bound

def ofText : Text → List Piece
  | [] => []
  | character :: rest =>
    (first character rest).1 :: ofText (first character rest).2
  termination_by text => text.length
  decreasing_by
    have := length_first_snd_le character rest
    simp only [List.length_cons]
    omega

/-- A body with its parameters replaced by arguments.  Only whole words outside literals are
parameters.  All of them are replaced at once, so an argument that contains the name of a parameter
is left alone. -/
def substitute (parameters arguments : List Text) (body : Text) : Text :=
  (ofText body).flatMap fun piece =>
    match piece with
    | .word name => ((parameters.zip arguments).lookup name).getD name
    | other => other.text

end Piece

end ScriptPreprocessor
