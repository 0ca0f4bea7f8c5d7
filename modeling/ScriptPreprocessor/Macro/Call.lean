import ScriptPreprocessor.Macro.Piece
import ScriptPreprocessor.Text.Blank

namespace ScriptPreprocessor

/-!
# Calls of macros

A call is a list of arguments in parentheses behind a macro's name, with spaces and tabs allowed
in between.  Commas separate the arguments unless they stand in inner parentheses or in a literal;
the call ends where its first parenthesis is closed.  A call that is not closed on its line is no
call.
-/

def nextDepth (depth : Nat) (mode : LiteralMode) (character : Char) : Nat :=
  match mode with
  | .outside =>
    if character == '(' then depth + 1
    else if character == ')' then depth - 1
    else depth
  | _ => depth

/-- The text up to the parenthesis that closes a call, and the text behind that parenthesis.
Parentheses inside literals do not count, and a literal that is not closed hides the rest of the
line, so that there is no call. -/
def spanCall (depth : Nat) (mode : LiteralMode) : Text → Option (Text × Text)
  | [] => none
  | character :: rest =>
    if mode = .outside ∧ character = ')' ∧ depth = 0 then
      some ([], rest)
    else
      (spanCall (nextDepth depth mode character) (mode.next character) rest).map
        fun (inside, after) => (character :: inside, after)

/-- The parts of a text between the commas that separate arguments.  There is always one more part
than such commas, so nothing at all is one empty argument. -/
def splitArguments (depth : Nat) (mode : LiteralMode) : Text → List Text
  | [] => [[]]
  | character :: rest =>
    if mode = .outside ∧ character = ',' ∧ depth = 0 then
      [] :: splitArguments depth mode rest
    else
      match splitArguments (nextDepth depth mode character) (mode.next character) rest with
      | [] => [[character]]
      | part :: parts => (character :: part) :: parts

/-- A call: its text from behind the macro's name on, its trimmed arguments, and the text behind it.
The text is kept with its blanks, since a call that is not replaced is copied as it stands. -/
structure Call where
  source : Text
  arguments : List Text
  after : Text
  deriving DecidableEq, Repr

def Call.parse? (text : Text) : Option Call :=
  let blanks := text.takeWhile isSpaceOrTab
  match text.dropWhile isSpaceOrTab with
  | '(' :: rest =>
    (spanCall 0 .outside rest).map fun (inside, after) =>
      { source := blanks ++ '(' :: inside ++ [')']
        arguments := (splitArguments 0 .outside inside).map Text.trim
        after := after }
  | _ => none

/-! ## Sizes -/

theorem spanCall_append {depth : Nat} {mode : LiteralMode} {text inside after : Text}
    (found : spanCall depth mode text = some (inside, after)) :
    inside ++ ')' :: after = text := by
  induction text generalizing depth mode inside after with
  | nil => simp [spanCall] at found
  | cons character rest ih =>
    unfold spanCall at found
    split at found
    · next closing =>
      simp only [Option.some.injEq, Prod.mk.injEq] at found
      simp [← found.1, ← found.2, closing.2.1]
    · obtain ⟨⟨more, behind⟩, inner, shape⟩ := Option.map_eq_some_iff.1 found
      simp only [Prod.mk.injEq] at shape
      simp [← shape.1, ← shape.2, ih inner]

/-- The parts between separating commas are parts of the text. -/
theorem sublist_of_mem_splitArguments {depth : Nat} {mode : LiteralMode} {text part : Text}
    (member : part ∈ splitArguments depth mode text) : part.Sublist text := by
  induction text generalizing depth mode part with
  | nil => simp_all [splitArguments]
  | cons character rest ih =>
    unfold splitArguments at member
    split at member
    · rcases List.mem_cons.1 member with rfl | later
      · exact List.nil_sublist _
      · exact (ih later).cons _
    · split at member
      · rw [List.mem_singleton.1 member]
        exact (List.nil_sublist rest).cons_cons character
      · next first others shape =>
        rcases List.mem_cons.1 member with rfl | later
        · exact (ih (shape ▸ List.mem_cons_self)).cons_cons _
        · exact (ih (shape ▸ List.mem_cons_of_mem _ later)).cons _

/-- The source of a call is what stands in its parentheses, with blanks in front; its arguments
are taken from there, and the text behind the source follows. -/
theorem Call.exists_inside {text : Text} {call : Call} (found : parse? text = some call) :
    ∃ blanks inside, call.source = blanks ++ '(' :: inside ++ [')'] ∧
      call.arguments = (splitArguments 0 .outside inside).map Text.trim ∧
      call.source ++ call.after = text := by
  unfold parse? at found
  simp only at found
  split at found
  · next rest opening =>
    obtain ⟨⟨inside, after⟩, inner, rfl⟩ := Option.map_eq_some_iff.1 found
    have body := spanCall_append inner
    have whole := List.takeWhile_append_dropWhile (p := isSpaceOrTab) (l := text)
    rw [opening, ← body] at whole
    exact ⟨_, inside, rfl, rfl, by simpa using whole⟩
  · simp at found

/-- The source of a call and the text behind it make up the text that was read. -/
theorem Call.source_append_after {text : Text} {call : Call} (found : parse? text = some call) :
    call.source ++ call.after = text := by
  obtain ⟨_, _, _, _, whole⟩ := exists_inside found
  exact whole

/-- An argument is a part of what stands in the parentheses. -/
theorem Call.sublist_of_mem_arguments {inside argument : Text}
    (member : argument ∈ (splitArguments 0 .outside inside).map Text.trim) :
    argument.Sublist inside := by
  obtain ⟨part, partMember, rfl⟩ := List.mem_map.1 member
  exact (Text.trim_sublist part).trans (sublist_of_mem_splitArguments partMember)

theorem Call.length_after_lt {text : Text} {call : Call} (found : parse? text = some call) :
    call.after.length < text.length := by
  obtain ⟨blanks, inside, source, _, whole⟩ := exists_inside found
  rw [← whole, source]
  simp only [List.length_append, List.length_cons, List.length_nil]
  omega

theorem Call.length_argument_le {text : Text} {call : Call} (found : parse? text = some call)
    {argument : Text} (member : argument ∈ call.arguments) : argument.length ≤ text.length := by
  obtain ⟨blanks, inside, source, arguments, whole⟩ := exists_inside found
  have bound := (sublist_of_mem_arguments (arguments ▸ member)).length_le
  rw [← whole, source]
  simp only [List.length_append, List.length_cons, List.length_nil]
  omega

end ScriptPreprocessor
