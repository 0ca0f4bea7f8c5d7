import ScriptPreprocessor.Proofs.Macro.Origins

namespace ScriptPreprocessor

/-!
# Pieces of texts that are put together

A text that closes every literal it opens is read the same with anything behind it, unless a word
runs on: its pieces are followed by the pieces of what stands behind (`Piece.ofText_append`).  So
what a macro is replaced by can be looked at apart from the line into which it is put.
-/

/-! ## Closed literals -/

/-- The mode of a reader behind a text. -/
def LiteralMode.behind (mode : LiteralMode) (text : Text) : LiteralMode :=
  text.foldl LiteralMode.next mode

namespace LiteralMode

@[simp] theorem behind_nil (mode : LiteralMode) : mode.behind [] = mode := rfl

@[simp] theorem behind_cons (mode : LiteralMode) (character : Char) (rest : Text) :
    mode.behind (character :: rest) = (mode.next character).behind rest := rfl

@[simp] theorem behind_append (mode : LiteralMode) (left right : Text) :
    mode.behind (left ++ right) = (mode.behind left).behind right :=
  List.foldl_append

theorem behind_outside_of_plain {text : Text} (plain : ∀ mark ∈ text, isQuote mark = false) :
    outside.behind text = .outside := by
  induction text with
  | nil => rfl
  | cons character rest ih =>
    have first := plain character List.mem_cons_self
    rw [behind_cons, next, first]
    exact ih fun mark member => plain mark (List.mem_cons_of_mem _ member)

end LiteralMode

/-- Every literal that a text opens is closed in it. -/
def Text.ClosesLiterals (text : Text) : Prop :=
  LiteralMode.outside.behind text = .outside

instance : DecidablePred Text.ClosesLiterals := fun text =>
  inferInstanceAs (Decidable (LiteralMode.outside.behind text = .outside))

namespace Text.ClosesLiterals

variable {left right : Text}

theorem append (first : ClosesLiterals left) (second : ClosesLiterals right) :
    ClosesLiterals (left ++ right) := by
  unfold ClosesLiterals at first second ⊢
  rw [LiteralMode.behind_append, first, second]

theorem of_append (whole : ClosesLiterals (left ++ right)) (first : ClosesLiterals left) :
    ClosesLiterals right := by
  unfold ClosesLiterals at whole first ⊢
  rwa [LiteralMode.behind_append, first] at whole

end Text.ClosesLiterals

theorem closesLiterals_of_letters {name : Text}
    (letters : ∀ letter ∈ name, isWordCharacter letter = true) : name.ClosesLiterals := by
  apply LiteralMode.behind_outside_of_plain
  intro letter member
  by_contra quote
  have noLetter := not_isWordCharacter_of_isQuote (eq_true_of_ne_false quote)
  rw [letters letter member] at noLetter
  cases noLetter

/-- The rest of a literal closes it, or it takes in all that is left. -/
theorem spanLiteral_closes_or_open {quote : Char} {mode : LiteralMode}
    (within : mode.IsWithin quote) (text : Text) :
    mode.behind (spanLiteral mode text).1 = .outside ∨
      (spanLiteral mode text).2 = [] ∧ (mode.behind (spanLiteral mode text).1).IsWithin quote := by
  induction text generalizing mode with
  | nil => exact Or.inr ⟨rfl, within⟩
  | cons character rest ih =>
    rcases within.next character with ⟨_, closes⟩ | still
    · rw [spanLiteral_of_closes closes]
      exact Or.inl closes
    · rw [spanLiteral_of_open still.ne_outside]
      exact ih still

/-- A closed literal is read the same whatever stands behind it. -/
theorem spanLiteral_append_of_closes {quote : Char} {mode : LiteralMode}
    (within : mode.IsWithin quote) {text : Text}
    (closes : mode.behind (spanLiteral mode text).1 = .outside) (behind : Text) :
    spanLiteral mode ((spanLiteral mode text).1 ++ behind) =
      ((spanLiteral mode text).1, behind) := by
  induction text generalizing mode with
  | nil => exact absurd closes within.ne_outside
  | cons character rest ih =>
    rcases within.next character with ⟨_, ends⟩ | still
    · rw [spanLiteral_of_closes ends]
      exact spanLiteral_of_closes ends behind
    · rw [spanLiteral_of_open still.ne_outside] at closes ⊢
      rw [List.cons_append, spanLiteral_of_open still.ne_outside, ih still closes]

/-! ## Pieces -/

namespace Piece

variable {character : Char} {rest after : Text} {piece : Piece}

theorem ofText_of_first (shape : first character rest = (piece, after)) :
    ofText (character :: rest) = piece :: ofText after := by
  rw [ofText, shape]

/-- A word in front of something else is the first piece. -/
theorem first_of_word {name behind : Text} (shape : name = character :: rest)
    (letters : ∀ letter ∈ name, isWordCharacter letter = true)
    (ends : Text.IsSeam name behind) :
    first character (rest ++ behind) = (.word name, behind) := by
  subst shape
  rcases List.forall_mem_cons.1 letters with ⟨letter, run⟩
  have noQuote : isQuote character = false := by
    by_contra quote
    have noLetter := not_isWordCharacter_of_isQuote (eq_true_of_ne_false quote)
    rw [letter] at noLetter
    cases noLetter
  have last : (character :: rest).getLast?.any isWordCharacter = true := by
    rw [List.getLast?_eq_some_getLast (by simp), Option.any_some]
    exact letters _ (List.getLast_mem _)
  have stops : behind.head?.any isWordCharacter = false := by
    by_contra goesOn
    exact ends ⟨last, eq_true_of_ne_false goesOn⟩
  have split := Text.takeWhile_dropWhile_append run stops
  rw [first, noQuote, if_neg (by simp), if_pos letter, split.1, split.2]

/-- A text of letters is one word. -/
theorem ofText_of_letters {name : Text} (filled : name ≠ [])
    (letters : ∀ letter ∈ name, isWordCharacter letter = true) : ofText name = [.word name] := by
  rcases List.exists_cons_of_ne_nil filled with ⟨character, rest, same⟩
  have shape := first_of_word same letters Text.isSeam_nil_right
  rw [List.append_nil] at shape
  rw [same, ofText_of_first shape, ofText, same]

/-- A literal that closes is the first piece in front of anything. -/
theorem first_of_literal {text : Text} (shape : first character rest = (.literal text, after))
    (closes : text.ClosesLiterals) (behind : Text) :
    ∃ inside, text = character :: inside ∧
      first character (inside ++ behind) = (.literal text, behind) := by
  cases isFirst_of_first shape with
  | literal quote =>
    have within : (LiteralMode.inside character).IsWithin character := Or.inl rfl
    unfold Text.ClosesLiterals at closes
    rw [LiteralMode.behind_cons, LiteralMode.next, if_pos quote] at closes
    refine ⟨_, rfl, ?_⟩
    rw [first, if_pos quote, spanLiteral_append_of_closes within closes behind]

/-- A character that is no piece of its own with others is neither a quotation mark nor a letter. -/
theorem mark_of_first {mark : Char} (shape : first character rest = (.mark mark, after)) :
    mark = character ∧ after = rest ∧ isQuote character = false ∧
      isWordCharacter character = false := by
  cases isFirst_of_first shape with
  | mark noQuote noLetter => exact ⟨rfl, rfl, noQuote, noLetter⟩

/-- The first piece closes its literal, or it is a literal and nothing stands behind it. -/
theorem closes_of_first (shape : first character rest = (piece, after)) :
    piece.text.ClosesLiterals ∨ after = [] ∧ ∃ text, piece = .literal text := by
  cases piece with
  | word name => exact Or.inl (closesLiterals_of_letters (word_of_first shape).2)
  | mark mark =>
    rcases mark_of_first shape with ⟨rfl, _, noQuote, _⟩
    refine Or.inl (LiteralMode.behind_outside_of_plain fun other member => ?_)
    rwa [List.mem_singleton.1 member]
  | literal text =>
    cases isFirst_of_first shape with
    | literal quote =>
      have within : (LiteralMode.inside character).IsWithin character := Or.inl rfl
      rcases spanLiteral_closes_or_open within rest with closes | ⟨none, _⟩
      · refine Or.inl ?_
        unfold Text.ClosesLiterals
        rwa [Piece.text, LiteralMode.behind_cons, LiteralMode.next, if_pos quote]
      · exact Or.inr ⟨none, _, rfl⟩

/-- The first piece of a closed text is closed, and so is what follows it. -/
theorem closesLiterals_of_first (shape : first character rest = (piece, after))
    (closes : Text.ClosesLiterals (character :: rest)) :
    piece.text.ClosesLiterals ∧ after.ClosesLiterals := by
  rw [← text_append_of_first shape] at closes
  rcases closes_of_first shape with closed | ⟨none, _⟩
  · exact ⟨closed, closes.of_append closed⟩
  · rw [none, List.append_nil] at closes
    exact ⟨closes, none ▸ rfl⟩

/-- A first piece that is no word is read the same with anything else behind it, but behind a
literal that is not closed nothing may stand. -/
theorem ofText_append_of_mark {behind : Text} (shape : first character rest = (piece, after))
    (noWord : ∀ name, piece ≠ .word name) (ends : after = [] → behind = []) :
    ofText (piece.text ++ behind) = piece :: ofText behind := by
  cases piece with
  | word name => exact absurd rfl (noWord name)
  | mark mark =>
    rcases mark_of_first shape with ⟨rfl, _, noQuote, noLetter⟩
    refine ofText_of_first ?_
    simp [first, noQuote, noLetter]
  | literal text =>
    rcases closes_of_first shape with closes | ⟨none, _⟩
    · rcases first_of_literal shape closes behind with ⟨inside, rfl, found⟩
      exact ofText_of_first found
    · have whole := text_append_of_first shape
      rw [ends none, List.append_nil]
      rw [none, List.append_nil] at whole
      rw [whole, ofText_of_first shape, none]

/-- No letter stands behind a first piece that is a word. -/
theorem head_after_word {name : Text} (shape : first character rest = (.word name, after)) :
    after.head?.any isWordCharacter = false := by
  cases isFirst_of_first shape with
  | word _ _ => exact Text.head?_dropWhile isWordCharacter rest

/-- A first piece that is no word begins with a character that is no letter. -/
theorem head_of_mark (shape : first character rest = (piece, after))
    (noWord : ∀ name, piece ≠ .word name) :
    piece.text.head? = some character ∧ isWordCharacter character = false := by
  cases isFirst_of_first shape with
  | literal quote => exact ⟨rfl, not_isWordCharacter_of_isQuote quote⟩
  | word _ _ => exact absurd rfl (noWord _)
  | mark _ noLetter => exact ⟨rfl, noLetter⟩

/-- No word runs on behind a first piece that is a word. -/
theorem isSeam_of_first_word {name : Text} (shape : first character rest = (.word name, after)) :
    Text.IsSeam name after := by
  cases isFirst_of_first shape with
  | word _ _ => exact Text.isSeam_dropWhile fun _ noLetter => noLetter

/-- The first piece of a closed text is the first piece with anything behind the text. -/
theorem first_append {right : Text} (shape : first character rest = (piece, after))
    (closes : Text.ClosesLiterals (character :: rest))
    (seam : Text.IsSeam (character :: rest) right) :
    first character (rest ++ right) = (piece, after ++ right) := by
  have whole := text_append_of_first shape
  have pieceCloses := (closesLiterals_of_first shape closes).1
  cases piece with
  | literal text =>
    rcases first_of_literal shape pieceCloses (after ++ right) with ⟨inside, rfl, found⟩
    have inRest : inside ++ after = rest := (List.cons.inj whole).2
    rw [← inRest, List.append_assoc]
    exact found
  | mark mark =>
    rcases mark_of_first shape with ⟨rfl, rfl, noQuote, noLetter⟩
    simp [first, noQuote, noLetter]
  | word name =>
    have word := word_of_first shape
    rcases List.exists_cons_of_ne_nil word.1 with ⟨letter, letters, same⟩
    have run : name ++ after = character :: rest := whole
    have ends : Text.IsSeam name (after ++ right) := by
      rw [← run] at seam
      cases after with
      | nil => simpa using seam
      | cons next more => simpa [Text.IsSeam] using isSeam_of_first_word shape
    rw [same, List.cons_append] at run
    cases run
    rw [List.append_assoc]
    exact first_of_word same word.2 ends

/-- The pieces of a closed text stand in front of the pieces of what is behind it, unless a word
runs on. -/
theorem ofText_append {left right : Text} (closes : left.ClosesLiterals)
    (seam : Text.IsSeam left right) : ofText (left ++ right) = ofText left ++ ofText right := by
  fun_induction ofText left with
  | case1 => rfl
  | case2 character rest ih =>
    rcases shape : first character rest with ⟨piece, after⟩
    rw [shape] at ih
    have whole := text_append_of_first shape
    rw [List.cons_append, ofText_of_first (first_append shape closes seam), List.cons_append]
    congr 1
    apply ih (closesLiterals_of_first shape closes).2
    rw [← whole] at seam
    exact seam.of_append

end Piece

end ScriptPreprocessor
