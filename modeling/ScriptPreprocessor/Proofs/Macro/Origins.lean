import ScriptPreprocessor.Proofs.Macro.Breaks
import ScriptPreprocessor.Proofs.Text.Spelling

namespace ScriptPreprocessor

/-!
# Expansions that do not show their place

Only two macros tell where a line stands.  As long as the words of a text, of the bodies and of the
built-in texts do not spell the names of these two, an expansion is the same on every line
(`MacroTable.expand_of_spelled`), and what it gives is again spelled from the same words, so that
the next definition or condition can make no other.
-/

/-- From the given words neither of the names is made that tell where a line stands. -/
def HidesOrigin (parts : List Text) : Prop :=
  ¬ Text.Spelled parts fileMacro ∧ ¬ Text.Spelled parts lineMacro

open Text (Spelled IsSeam)

variable {parts : List Text}

/-! ## Pieces and calls -/

theorem not_isWordCharacter_of_isQuote {character : Char} (quote : isQuote character = true) :
    isWordCharacter character = false := by
  simp only [isQuote, Bool.or_eq_true, beq_iff_eq] at quote
  rcases quote with rfl | rfl <;> decide

namespace Piece

/-- A literal ends in its quotation mark, or at the end of the text. -/
theorem isSeam_spanLiteral {quote : Char} (isQuote : isQuote quote = true) {mode : LiteralMode}
    (within : mode.IsWithin quote) (front text : Text) :
    IsSeam (front ++ (spanLiteral mode text).1) (spanLiteral mode text).2 := by
  induction text generalizing mode front with
  | nil => exact Text.isSeam_nil_right
  | cons character rest ih =>
    rcases within.next character with ⟨rfl, closes⟩ | still
    · rw [spanLiteral_of_closes closes]
      exact Text.isSeam_mark_left (not_isWordCharacter_of_isQuote isQuote)
    · rw [spanLiteral_of_open still.ne_outside]
      simpa using ih still (front ++ [character])

/-- The first piece of a text is cut off at a seam. -/
theorem spelled_of_first {character : Char} {rest after : Text} {piece : Piece}
    (shape : first character rest = (piece, after))
    (spelled : Spelled parts (character :: rest)) :
    Spelled parts piece.text ∧ Spelled parts after := by
  have whole := text_append_of_first shape
  rw [← whole] at spelled
  refine spelled.cut ?_
  cases isFirst_of_first shape with
  | literal quote => exact isSeam_spanLiteral quote (Or.inl rfl) [character] rest
  | word _ _ => exact Text.isSeam_dropWhile fun _ noLetter => noLetter
  | mark _ noLetter => exact Text.isSeam_singleton noLetter

theorem spelled_of_mem_ofText {text : Text} (spelled : Spelled parts text) {piece : Piece}
    (member : piece ∈ ofText text) : Spelled parts piece.text := by
  fun_induction ofText text with
  | case1 => cases member
  | case2 character rest ih =>
    have pieces := spelled_of_first (Prod.eta (first character rest)).symm spelled
    rcases List.mem_cons.1 member with rfl | later
    · exact pieces.1
    · exact ih pieces.2 later

theorem spelled_substitute {parameters arguments : List Text} {body : Text}
    (inBody : Spelled parts body) (inArguments : ∀ argument ∈ arguments, Spelled parts argument) :
    Spelled parts (substitute parameters arguments body) := by
  rcases exists_parts_substitute parameters arguments body with ⟨texts, whole, origins⟩
  rw [whole]
  apply Spelled.flatten
  intro text member
  rcases origins text member with ⟨piece, inPieces, rfl⟩ | isArgument
  · exact spelled_of_mem_ofText inBody inPieces
  · exact inArguments text isArgument

theorem substitute_of_no_parameters (arguments : List Text) (body : Text) :
    substitute [] arguments body = body := by
  refine Eq.trans ?_ (flatMap_text_ofText body)
  rw [substitute, List.flatMap_def, List.flatMap_def]
  congr 1
  apply List.map_congr_left
  intro piece _
  cases piece <;> rfl

end Piece

/-- Arguments are cut out at commas. -/
theorem exists_splitArguments (depth : Nat) (mode : LiteralMode) (text : Text) :
    ∃ (first : Text) (others : List Text),
      splitArguments depth mode text = first :: others ∧
      ∀ front : Text, Spelled parts (front ++ text) →
        Spelled parts (front ++ first) ∧ ∀ part ∈ others, Spelled parts part := by
  induction text generalizing depth mode with
  | nil => exact ⟨[], [], rfl, fun front spelled => ⟨spelled, by simp⟩⟩
  | cons character rest ih =>
    unfold splitArguments
    split
    · next separates =>
      rcases ih depth mode with ⟨first, others, shape, cut⟩
      refine ⟨[], first :: others, by rw [shape], fun front spelled => ?_⟩
      have comma : isWordCharacter character = false := separates.2.1 ▸ by decide
      have pieces := spelled.behind_mark comma
      have behind := cut [] pieces.2
      rw [List.append_nil]
      exact ⟨pieces.1, List.forall_mem_cons.2 behind⟩
    · rcases ih (nextDepth depth mode character) (mode.next character) with
        ⟨first, others, shape, cut⟩
      refine ⟨character :: first, others, by rw [shape], fun front spelled => ?_⟩
      simpa using cut (front ++ [character]) (by simpa using spelled)

/-- A call is cut out at a seam, and so are its arguments. -/
theorem Call.spelled_of_parse? {text : Text} {call : Call} (found : parse? text = some call)
    (spelled : Spelled parts text) :
    Spelled parts call.source ∧ (∀ argument ∈ call.arguments, Spelled parts argument) ∧
      Spelled parts call.after := by
  rcases exists_inside found with ⟨blanks, inside, source, arguments, whole⟩
  rw [← whole, source] at spelled
  have pieces := spelled.cut (Text.isSeam_mark_left (by decide))
  rw [source, arguments]
  refine ⟨pieces.1, fun argument member => ?_, pieces.2⟩
  have opened := (pieces.1.behind_mark (by decide)).1
  have inInside := (opened.behind_mark (by decide)).2
  rcases exists_splitArguments 0 .outside inside with ⟨first, others, shape, cut⟩
  rcases List.mem_map.1 member with ⟨part, inParts, rfl⟩
  rw [shape] at inParts
  exact (List.forall_mem_cons.2 (cut [] inInside) part inParts).trim

/-! ## Tables -/

namespace MacroTable

/-- What a table can put into a line is spelled from the given words. -/
abbrev IsSpelled (parts : List Text) : MacroTable → Prop :=
  PutsOnly (Spelled parts)

variable {table : MacroTable} {line other : Origin}

/-- A spelled word is replaced by the same on every line. -/
theorem replacement_of_spelled (hides : HidesOrigin parts) (other : Origin) (word : Text)
    (spelled : Spelled parts word) {replacement : Option Replacement}
    (known : table.replacement? line word = replacement) :
    table.replacement? other word = replacement := by
  have notFile : word ≠ fileMacro := fun same => hides.1 (same ▸ spelled)
  have notLine : word ≠ lineMacro := fun same => hides.2 (same ▸ spelled)
  rw [← known]
  simp only [replacement?, if_neg notFile, if_neg notLine]

/-- The first word of a spelled text is replaced by the same on every line. -/
theorem replacement_of_first (hides : HidesOrigin parts) (other : Origin) {character : Char}
    {rest name after : Text} (shape : Piece.first character rest = (.word name, after))
    (spelled : Spelled parts (character :: rest)) {replacement : Option Replacement}
    (known : table.replacement? line name = replacement) :
    table.replacement? other name = replacement :=
  replacement_of_spelled hides other name (Piece.spelled_of_first shape spelled).1 known

theorem spelled_of_replacement (puts : table.IsSpelled parts) (hides : HidesOrigin parts)
    {word : Text} (spelled : Spelled parts word) {replacement : Replacement}
    (found : table.replacement? line word = some replacement) :
    match replacement with
    | .builtin text => Spelled parts text
    | .defined definition => Spelled parts definition.body :=
  puts.replacement (fun same => hides.1 (same ▸ spelled)) (fun same => hides.2 (same ▸ spelled))
    found

section Copies

variable {active : List Text} {text part after : Text} {issues : List ExpansionIssue}

/-- A spelled text is taken apart at a seam. -/
theorem Copies.spelled (copies : table.Copies line active text part issues after)
    (spelled : Spelled parts text) : Spelled parts part ∧ Spelled parts after := by
  cases copies with
  | mark shape _ | unknown shape _ | recursive shape _ _ | tooDeep shape _ _ _
  | uncalled shape _ _ _ =>
    exact Piece.spelled_of_first shape spelled
  | miscounted shape _ _ parsed _ | callTooDeep shape _ _ parsed _ _ =>
    have pieces := Piece.spelled_of_first shape spelled
    rcases Call.spelled_of_parse? parsed pieces.2 with ⟨source, _, behind⟩
    exact ⟨pieces.1.append source, behind⟩

/-- A part of a spelled text is copied on every line, and for the same reason. -/
theorem Copies.elsewhere (hides : HidesOrigin parts) (other : Origin)
    (copies : table.Copies line active text part issues after) (spelled : Spelled parts text) :
    table.Copies other active text part issues after := by
  cases copies with
  | mark shape noWord => exact .mark shape noWord
  | unknown shape unknown =>
    exact .unknown shape (replacement_of_first hides other shape spelled unknown)
  | recursive shape known isActive =>
    exact .recursive shape (replacement_of_first hides other shape spelled known) isActive
  | tooDeep shape known inactive full =>
    exact .tooDeep shape (replacement_of_first hides other shape spelled known) inactive full
  | uncalled shape known inactive notCalled =>
    exact .uncalled shape (replacement_of_first hides other shape spelled known) inactive notCalled
  | miscounted shape known inactive parsed wrong =>
    exact .miscounted shape (replacement_of_first hides other shape spelled known) inactive parsed
      wrong
  | callTooDeep shape known inactive parsed right full =>
    exact .callTooDeep shape (replacement_of_first hides other shape spelled known) inactive parsed
      right full

end Copies

/-- The body of a call is spelled when the texts that its arguments are expanded to are. -/
theorem spelled_bodyOfCall {active parameters : List Text} {body : Text} {call : Call}
    (inBody : Spelled parts body) (inArguments : ∀ argument ∈ call.arguments,
      Spelled parts (table.expandActive line active argument).text) :
    Spelled parts (table.bodyOfCall line active parameters body call) :=
  Piece.spelled_substitute inBody (List.forall_mem_map.2 inArguments)

/-- The expansion of a spelled text is the same on every line, and it is spelled.  The induction
follows the expansion, which goes on in replacements; so both are needed at once. -/
theorem expandActive_of_spelled (puts : table.IsSpelled parts) (hides : HidesOrigin parts)
    {active : List Text} {text : Text} (spelled : Spelled parts text) :
    table.expandActive other active text = table.expandActive line active text ∧
      Spelled parts (table.expandActive line active text).text := by
  induction active, text using expandActive_induction table line with
  | nil active =>
    rw [expandActive_nil, expandActive_nil]
    exact ⟨rfl, .nil⟩
  | copy copies ih =>
    have pieces := copies.spelled spelled
    rcases ih pieces.2 with ⟨same, later⟩
    rw [expandActive_of_copies copies,
      expandActive_of_copies (copies.elsewhere hides other spelled), same]
    exact ⟨rfl, pieces.1.append later⟩
  | builtin shape known inactive ih =>
    have pieces := Piece.spelled_of_first shape spelled
    have elsewhere := replacement_of_first hides other shape spelled known
    rcases ih pieces.2 with ⟨same, later⟩
    rw [expandActive_of_builtin shape known inactive,
      expandActive_of_builtin shape elsewhere inactive, same]
    exact ⟨rfl, (spelled_of_replacement puts hides pieces.1 known).append later⟩
  | object shape known inactive room innerIh ih =>
    have pieces := Piece.spelled_of_first shape spelled
    have elsewhere := replacement_of_first hides other shape spelled known
    rcases ih pieces.2 with ⟨same, later⟩
    rcases innerIh (spelled_of_replacement puts hides pieces.1 known) with ⟨sameInner, inner⟩
    rw [expandActive_of_object shape known inactive room,
      expandActive_of_object shape elsewhere inactive room, same, sameInner]
    exact ⟨rfl, inner.append later⟩
  | @call active _ _ _ _ parameters body call shape known inactive parsed right room argumentsIh
      innerIh ih =>
    have pieces := Piece.spelled_of_first shape spelled
    have elsewhere := replacement_of_first hides other shape spelled known
    rcases Call.spelled_of_parse? parsed pieces.2 with ⟨_, inCall, behind⟩
    rcases ih behind with ⟨same, later⟩
    -- Arguments are expanded in the same way as the line.
    have expanded := fun argument member => argumentsIh argument member (inCall argument member)
    have sameArgument : ∀ argument ∈ call.arguments,
        table.expandActive other active argument = table.expandActive line active argument :=
      fun argument member => (expanded argument member).1
    have sameBody : table.bodyOfCall other active parameters body call =
        table.bodyOfCall line active parameters body call :=
      congrArg (Piece.substitute parameters · body) (List.map_congr_left fun argument member =>
        congrArg Expansion.text (sameArgument argument member))
    have sameIssues :
        (call.arguments.flatMap fun argument => (table.expandActive other active argument).issues) =
          call.arguments.flatMap fun argument => (table.expandActive line active argument).issues :=
      List.flatMap_congr fun argument member =>
        congrArg Expansion.issues (sameArgument argument member)
    have inBody := spelled_of_replacement puts hides pieces.1 known
    rcases innerIh (spelled_bodyOfCall inBody fun argument member => (expanded argument member).2)
      with ⟨sameInner, inner⟩
    rw [expandActive_of_call shape known inactive parsed right room,
      expandActive_of_call shape elsewhere inactive parsed right room, sameBody, sameIssues,
      sameInner, same]
    exact ⟨rfl, inner.append later⟩

/-- The expansion of a spelled text is the same on every line. -/
theorem expand_of_spelled (puts : table.IsSpelled parts) (hides : HidesOrigin parts) {text : Text}
    (spelled : Spelled parts text) : table.expand other text = table.expand line text :=
  (expandActive_of_spelled puts hides spelled).1

/-! ## Definitions -/

/-- The body of a definition is cut out of its argument at seams. -/
theorem spelled_of_isWritten {argument name : Text} {definition : Macro}
    (spelled : Spelled parts argument) (written : Macro.IsWritten argument name definition) :
    Spelled parts definition.body := by
  cases written with
  | bare _ => exact .nil
  | object _ blank => exact (spelled.behind_mark (isWordCharacter_of_isBlank blank)).2.trim
  | function _ _ _ =>
    have inList := (spelled.behind_mark (by decide)).2
    exact (inList.behind_mark (by decide)).2.trim

end MacroTable

end ScriptPreprocessor
