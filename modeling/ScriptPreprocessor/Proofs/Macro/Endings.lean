import ScriptPreprocessor.Proofs.Macro.Origins

namespace ScriptPreprocessor

/-!
# Endings of expanded lines

A line feed, with or without a carriage return, is no part of a word, it closes no literal and no
call, and no macro is replaced in it.  So an ending behind a text stays behind its expansion, and
neither the issues nor the spans depend on it (`MacroTable.isEndedBy_expandActive`).

Only a literal that is not closed takes the ending in; then nothing follows that could be expanded.
-/

/-- What can end a line: carriage returns and line feeds. -/
def Text.IsEnding (ending : Text) : Prop :=
  ∀ character ∈ ending, character = '\r' ∨ character = '\n'

variable {ending : Text}

theorem Text.IsEnding.tail {character : Char} (isEnding : IsEnding (character :: ending)) :
    ending.IsEnding :=
  fun other member => isEnding other (List.mem_cons_of_mem _ member)

/-- No character of an ending means anything to a reader of pieces and calls. -/
theorem Text.IsEnding.plain (isEnding : ending.IsEnding) :
    ∀ character ∈ ending, isQuote character = false ∧ isWordCharacter character = false ∧
      isSpaceOrTab character = false ∧ character ∉ ['\\', '(', ')'] := by
  intro character member
  rcases isEnding character member with rfl | rfl <;> decide

/-! ## Literals -/

section Literals

variable {quote : Char} {mode : LiteralMode}

/-- An ending closes no literal. -/
theorem spanLiteral_ending (isQuoteMark : isQuote quote = true) (within : mode.IsWithin quote)
    (isEnding : ending.IsEnding) : spanLiteral mode ending = (ending, []) := by
  induction ending generalizing mode with
  | nil => rfl
  | cons character ending ih =>
    have plain := isEnding.plain character List.mem_cons_self
    have stays : mode.next character = .inside quote := by
      have notSlash : character ≠ '\\' := fun same => plain.2.2.2 (by simp [same])
      have notQuote : character ≠ quote := fun same => by simp [same, isQuoteMark] at plain
      rcases within with rfl | rfl
      · simp [LiteralMode.next, notSlash, notQuote]
      · rfl
    have still : (mode.next character).IsWithin quote := Or.inl stays
    rw [spanLiteral_of_open still.ne_outside, ih still isEnding.tail]

/-- A literal is closed before an ending, or it is not closed and takes the ending in. -/
theorem spanLiteral_append_ending (isQuoteMark : isQuote quote = true)
    (within : mode.IsWithin quote) (isEnding : ending.IsEnding) {text inside after : Text}
    (shape : spanLiteral mode text = (inside, after)) :
    spanLiteral mode (text ++ ending) = (inside, after ++ ending) ∨
      after = [] ∧ spanLiteral mode (text ++ ending) = (inside ++ ending, []) := by
  induction text generalizing mode inside after with
  | nil =>
    cases shape
    exact Or.inr ⟨rfl, spanLiteral_ending isQuoteMark within isEnding⟩
  | cons character rest ih =>
    rw [List.cons_append]
    rcases within.next character with ⟨_, closes⟩ | still
    · rw [spanLiteral_of_closes closes] at shape ⊢
      cases shape
      exact Or.inl rfl
    · rw [spanLiteral_of_open still.ne_outside] at shape ⊢
      cases shape
      rcases ih still rfl with closed | ⟨none, taken⟩
      · exact Or.inl (by rw [closed])
      · exact Or.inr ⟨none, by rw [taken, List.cons_append]⟩

end Literals

namespace Piece

variable {character : Char} {rest after : Text} {piece : Piece}

/-- A run of characters that an ending has none of is not longer in front of it. -/
theorem takeWhile_dropWhile_append_ending {kind : Char → Bool}
    (outside : ∀ other ∈ ending, kind other = false) (text : Text) :
    (text ++ ending).takeWhile kind = text.takeWhile kind ∧
      (text ++ ending).dropWhile kind = text.dropWhile kind ++ ending := by
  induction text with
  | nil =>
    cases ending with
    | nil => exact ⟨rfl, rfl⟩
    | cons first more => simp [outside first List.mem_cons_self]
  | cons character rest ih =>
    cases isKind : kind character with
    | true => simp [isKind, ih.1, ih.2]
    | false => simp [isKind]

/-- An ending stays behind the first piece of a text, or the piece is a literal that is not closed
and takes the ending in. -/
theorem first_append_ending (isEnding : ending.IsEnding)
    (shape : first character rest = (piece, after)) :
    first character (rest ++ ending) = (piece, after ++ ending) ∨
      after = [] ∧ ∃ text, piece = .literal text ∧
        first character (rest ++ ending) = (.literal (text ++ ending), []) := by
  cases isFirst_of_first shape with
  | literal quote =>
    rw [first, if_pos quote]
    rcases spanLiteral_append_ending quote (Or.inl rfl) isEnding rfl with closed | ⟨none, taken⟩
    · exact Or.inl (by rw [closed])
    · exact Or.inr ⟨none, _, rfl, by rw [taken, List.cons_append]⟩
  | word noQuote letter =>
    have word := takeWhile_dropWhile_append_ending
      (fun other member => (isEnding.plain other member).2.1) rest
    refine Or.inl ?_
    rw [first, if_neg (ne_true_of_eq_false noQuote), if_pos letter, word.1, word.2]
  | mark noQuote noLetter => exact Or.inl (by simp [first, noQuote, noLetter])

theorem first_append_ending_of_word {name : Text} (isEnding : ending.IsEnding)
    (shape : first character rest = (.word name, after)) :
    first character (rest ++ ending) = (.word name, after ++ ending) := by
  rcases first_append_ending isEnding shape with behind | ⟨_, _, literal, _⟩
  · exact behind
  · cases literal

theorem first_of_ending (isEnding : Text.IsEnding (character :: ending)) :
    first character ending = (.mark character, ending) := by
  have plain := isEnding.plain character List.mem_cons_self
  simp only [first, plain.1, plain.2.1, Bool.false_eq_true, if_false]

end Piece

/-! ## Calls -/

/-- An ending closes no call. -/
theorem spanCall_ending (depth : Nat) (mode : LiteralMode) (isEnding : ending.IsEnding) :
    spanCall depth mode ending = none := by
  induction ending generalizing depth mode with
  | nil => rfl
  | cons character ending ih =>
    have plain := isEnding.plain character List.mem_cons_self
    rw [spanCall, if_neg fun closing => plain.2.2.2 (by simp [closing.2.1]), ih _ _ isEnding.tail,
      Option.map_none]

theorem spanCall_append_ending (depth : Nat) (mode : LiteralMode) (isEnding : ending.IsEnding)
    (text : Text) :
    spanCall depth mode (text ++ ending) =
      (spanCall depth mode text).map fun (inside, after) => (inside, after ++ ending) := by
  induction text generalizing depth mode with
  | nil => exact spanCall_ending depth mode isEnding
  | cons character rest ih =>
    rw [List.cons_append, spanCall, spanCall]
    split
    · rfl
    · rw [ih, Option.map_map, Option.map_map]
      rfl

/-- An ending stays behind a call. -/
theorem Call.parse?_append_ending (isEnding : ending.IsEnding) (text : Text) :
    parse? (text ++ ending) =
      (parse? text).map fun call => { call with after := call.after ++ ending } := by
  have blanks := Piece.takeWhile_dropWhile_append_ending
    (fun other member => (isEnding.plain other member).2.2.1) text
  simp only [parse?, blanks.1, blanks.2]
  cases behind : text.dropWhile isSpaceOrTab with
  | nil =>
    cases ending with
    | nil => rfl
    | cons first more =>
      have plain := isEnding.plain first List.mem_cons_self
      rw [List.nil_append]
      split
      · next opening =>
        cases opening
        exact absurd (by simp) plain.2.2.2
      · rfl
  | cons first rest =>
    rw [List.cons_append]
    by_cases opens : first = '('
    · subst opens
      simp only [spanCall_append_ending 0 .outside isEnding rest, Option.map_map]
      rfl
    · simp [opens]

theorem Call.parse?_of_ending {text : Text} {call : Call} (isEnding : ending.IsEnding)
    (parsed : parse? text = some call) :
    parse? (text ++ ending) = some { call with after := call.after ++ ending } := by
  rw [parse?_append_ending isEnding, parsed, Option.map_some]

/-! ## Expansions -/

namespace Expansion

/-- An expansion, and the same expansion with an ending behind its text. -/
structure IsEndedBy (ending : Text) (short long : Expansion) : Prop where
  text : long.text = short.text ++ ending
  issues : long.issues = short.issues
  spans : ∀ expandedColumn sourceColumn,
    Segment.spansFrom expandedColumn sourceColumn long.segments =
      Segment.spansFrom expandedColumn sourceColumn short.segments

theorem IsEndedBy.prepend {short long : Expansion} (ended : IsEndedBy ending short long)
    (segment : Segment) (issues : List ExpansionIssue) :
    IsEndedBy ending (short.prepend segment issues) (long.prepend segment issues) := by
  refine ⟨?_, ?_, fun expandedColumn sourceColumn => ?_⟩
  · rw [text_prepend, text_prepend, ended.text, List.append_assoc]
  · exact congrArg (issues ++ ·) ended.issues
  · rw [segments_prepend, segments_prepend]
    cases segment with
    | copied text => exact ended.spans _ _
    | replaced invocation replacement =>
      rw [Segment.spansFrom, Segment.spansFrom, ended.spans]

/-- Nothing is expanded behind a literal that takes the ending in. -/
theorem isEndedBy_literal (text : Text) :
    IsEndedBy ending (prepend (.copied text) [] {}) (prepend (.copied (text ++ ending)) [] {}) := by
  refine ⟨?_, rfl, fun _ _ => rfl⟩
  simp [Expansion.text, Segment.expanded]

end Expansion

namespace MacroTable

variable {table : MacroTable} {line : Origin}

theorem isEndedBy_ending (isEnding : ending.IsEnding) (active : List Text) :
    Expansion.IsEndedBy ending {} (table.expandActive line active ending) := by
  induction ending with
  | nil =>
    rw [expandActive_nil]
    exact ⟨rfl, rfl, fun _ _ => rfl⟩
  | cons character ending ih =>
    have later := ih isEnding.tail
    rw [expandActive_of_copies (.mark (Piece.first_of_ending isEnding) fun _ => Piece.noConfusion)]
    refine ⟨?_, ?_, fun expandedColumn sourceColumn => ?_⟩
    · rw [Expansion.text_prepend, later.text]
      rfl
    · exact later.issues
    · exact later.spans _ _

/-- With an ending behind the text the same part is copied, unless it is a literal that takes the
ending in. -/
theorem Copies.append_ending {active : List Text} {text part after : Text}
    {issues : List ExpansionIssue} (isEnding : ending.IsEnding)
    (copies : table.Copies line active text part issues after) :
    table.Copies line active (text ++ ending) part issues (after ++ ending) ∨
      after = [] ∧ issues = [] ∧
        table.Copies line active (text ++ ending) (part ++ ending) [] [] := by
  cases copies with
  | mark shape noWord =>
    rcases Piece.first_append_ending isEnding shape with behind | ⟨rfl, text, rfl, taken⟩
    · exact Or.inl (.mark behind noWord)
    · exact Or.inr ⟨rfl, rfl, .mark taken fun _ => Piece.noConfusion⟩
  | unknown shape unknown =>
    exact Or.inl (.unknown (Piece.first_append_ending_of_word isEnding shape) unknown)
  | recursive shape known isActive =>
    exact Or.inl (.recursive (Piece.first_append_ending_of_word isEnding shape) known isActive)
  | tooDeep shape known inactive full =>
    exact Or.inl (.tooDeep (Piece.first_append_ending_of_word isEnding shape) known inactive full)
  | uncalled shape known inactive notCalled =>
    refine Or.inl (.uncalled (Piece.first_append_ending_of_word isEnding shape) known inactive ?_)
    rw [Call.parse?_append_ending isEnding, notCalled, Option.map_none]
  | miscounted shape known inactive parsed wrong =>
    have longer := Piece.first_append_ending_of_word isEnding shape
    exact Or.inl (.miscounted longer known inactive (Call.parse?_of_ending isEnding parsed) wrong)
  | callTooDeep shape known inactive parsed right full =>
    have longer := Piece.first_append_ending_of_word isEnding shape
    exact Or.inl
      (.callTooDeep longer known inactive (Call.parse?_of_ending isEnding parsed) right full)

/-- An ending stays behind the expansion of a text.  The induction follows the expansion of the text
without it; replacements and arguments are the same in both. -/
theorem isEndedBy_expandActive (table : MacroTable) (line : Origin) (isEnding : ending.IsEnding)
    (active : List Text) (text : Text) :
    Expansion.IsEndedBy ending (table.expandActive line active text)
      (table.expandActive line active (text ++ ending)) := by
  induction active, text using expandActive_induction table line with
  | nil active =>
    rw [List.nil_append, expandActive_nil]
    exact isEndedBy_ending isEnding active
  | copy copies ih =>
    rw [expandActive_of_copies copies]
    rcases copies.append_ending isEnding with longer | ⟨rfl, rfl, taken⟩
    · rw [expandActive_of_copies longer]
      exact ih.prepend _ _
    · rw [expandActive_of_copies taken, expandActive_nil]
      exact Expansion.isEndedBy_literal _
  | builtin shape known inactive ih =>
    have longer := Piece.first_append_ending_of_word isEnding shape
    rw [List.cons_append, expandActive_of_builtin shape known inactive,
      expandActive_of_builtin longer known inactive]
    exact ih.prepend _ _
  | object shape known inactive room _ ih =>
    have longer := Piece.first_append_ending_of_word isEnding shape
    rw [List.cons_append, expandActive_of_object shape known inactive room,
      expandActive_of_object longer known inactive room]
    exact ih.prepend _ _
  | call shape known inactive parsed right room _ _ ih =>
    have longer := Piece.first_append_ending_of_word isEnding shape
    have parsedToo := Call.parse?_of_ending isEnding parsed
    rw [List.cons_append, expandActive_of_call shape known inactive parsed right room,
      expandActive_of_call longer known inactive parsedToo right room]
    exact ih.prepend _ _

/-- The line as a whole: an ending stays behind the expansion of a line. -/
theorem isEndedBy_expand (table : MacroTable) (line : Origin) (isEnding : ending.IsEnding)
    (text : Text) :
    Expansion.IsEndedBy ending (table.expand line text) (table.expand line (text ++ ending)) :=
  isEndedBy_expandActive table line isEnding [] text

end MacroTable

end ScriptPreprocessor
