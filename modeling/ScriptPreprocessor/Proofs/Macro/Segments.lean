import ScriptPreprocessor.Proofs.Macro.Turns

namespace ScriptPreprocessor

/-!
# The segments of an expansion

An expansion takes its line apart without loss: the sources of the segments put together are the
line (`source_expand`).  What a segment replaces is an invocation: the name of a macro that has a
meaning on the line, alone or with the call behind it (`isInvocation_of_mem_expand`).  So a text
none of whose words has a meaning stays as it is (`text_expandActive_of_inert`).
-/

/-! ## Literals -/

/-- The modes inside of a literal. -/
def LiteralMode.IsWithin (quote : Char) (mode : LiteralMode) : Prop :=
  mode = .inside quote ∨ mode = .escaped quote

section Literals

variable {quote character : Char} {mode : LiteralMode}

theorem LiteralMode.IsWithin.ne_outside (within : mode.IsWithin quote) : mode ≠ .outside := by
  rcases within with rfl | rfl <;> exact LiteralMode.noConfusion

/-- A character closes a literal only when it is the quotation mark that opened it. -/
theorem LiteralMode.IsWithin.next (within : mode.IsWithin quote) (character : Char) :
    character = quote ∧ mode.next character = .outside ∨
      (mode.next character).IsWithin quote := by
  rcases within with rfl | rfl
  · simp only [LiteralMode.next]
    split
    · exact Or.inr (Or.inr rfl)
    · split
      · next same => exact Or.inl ⟨beq_iff_eq.1 same, rfl⟩
      · exact Or.inr (Or.inl rfl)
  · exact Or.inr (Or.inl rfl)

theorem spanLiteral_of_closes (closes : mode.next character = .outside) (rest : Text) :
    spanLiteral mode (character :: rest) = ([character], rest) := by
  rw [spanLiteral, closes]

theorem spanLiteral_of_open (stays : mode.next character ≠ .outside) (rest : Text) :
    spanLiteral mode (character :: rest) =
      (character :: (spanLiteral (mode.next character) rest).1,
        (spanLiteral (mode.next character) rest).2) := by
  rw [spanLiteral]
  split
  · next closes => exact absurd closes stays
  · rfl

end Literals

namespace Piece

/-- The word that a piece is. -/
def word? : Piece → Option Text
  | .word name => some name
  | .literal _ => none
  | .mark _ => none

theorem flatMap_text_ofText (text : Text) : (ofText text).flatMap Piece.text = text := by
  fun_induction ofText text with
  | case1 => rfl
  | case2 character rest ih =>
    rw [List.flatMap_cons, ih]
    exact text_first_append character rest

/-- A word of a text occurs in it. -/
theorem infix_of_word_mem {text name : Text} (member : .word name ∈ ofText text) :
    name <:+: text := by
  have whole := flatMap_text_ofText text
  rw [List.flatMap_def] at whole
  rw [← whole]
  exact List.infix_of_mem_flatten (List.mem_map_of_mem (f := Piece.text) member)

/-- A body with arguments put in is put together from pieces of the body and from arguments. -/
theorem exists_parts_substitute (parameters arguments : List Text) (body : Text) :
    ∃ parts : List Text, substitute parameters arguments body = parts.flatten ∧
      ∀ part ∈ parts, (∃ piece ∈ ofText body, part = piece.text) ∨ part ∈ arguments := by
  refine ⟨_, List.flatMap_def, fun part member => ?_⟩
  rcases List.mem_map.1 member with ⟨piece, inBody, rfl⟩
  cases piece with
  | word name =>
    cases found : (parameters.zip arguments).lookup name with
    | none => exact Or.inl ⟨_, inBody, by simp only [found, Option.getD_none, text]⟩
    | some argument =>
      rcases List.lookup_eq_some_iff.1 found with ⟨earlier, later, shape, _⟩
      have given : (name, argument) ∈ parameters.zip arguments := by simp [shape]
      simp only [found, Option.getD_some]
      exact Or.inr (List.of_mem_zip given).2
  | literal text => exact Or.inl ⟨_, inBody, rfl⟩
  | mark character => exact Or.inl ⟨_, inBody, rfl⟩

/-- A piece that is a word consists of word characters, and there is at least one. -/
theorem word_of_first {character : Char} {rest name after : Text}
    (shape : first character rest = (.word name, after)) :
    name ≠ [] ∧ ∀ letter ∈ name, isWordCharacter letter = true := by
  cases isFirst_of_first shape with
  | word _ letter =>
    exact ⟨List.cons_ne_nil _ _,
      List.forall_mem_cons.2 ⟨letter, List.all_eq_true.1 List.all_takeWhile⟩⟩

end Piece

/-- Copied pieces leave no spans. -/
theorem Segment.spansFrom_copied (expandedColumn sourceColumn : Nat) (pieces : List Piece) :
    spansFrom expandedColumn sourceColumn (pieces.map fun piece => .copied piece.text) = [] := by
  induction pieces generalizing expandedColumn sourceColumn with
  | nil => rfl
  | cons piece rest ih => exact ih _ _

namespace MacroTable

variable {table : MacroTable} {line : Origin}

/-- The sources of the segments put together are the text that was expanded. -/
theorem source_expandActive (table : MacroTable) (line : Origin) (active : List Text)
    (text : Text) :
    (table.expandActive line active text).source = text := by
  induction active, text using expandActive_induction table line with
  | nil active => rw [expandActive_nil]; rfl
  | copy copies ih =>
    rw [expandActive_of_copies copies, Expansion.source_prepend, ih]
    exact copies.append_eq
  | builtin shape known inactive ih =>
    rw [expandActive_of_builtin shape known inactive, Expansion.source_prepend, ih]
    exact Piece.text_append_of_first shape
  | object shape known inactive room _ ih =>
    rw [expandActive_of_object shape known inactive room, Expansion.source_prepend, ih]
    exact Piece.text_append_of_first shape
  | call shape known inactive parsed right room _ _ ih =>
    rw [expandActive_of_call shape known inactive parsed right room, Expansion.source_prepend, ih]
    exact Call.text_append_of_first shape parsed

theorem source_expand (table : MacroTable) (line : Origin) (text : Text) :
    (table.expand line text).source = text :=
  source_expandActive table line [] text

/-! ## Invocations -/

/-- A text that invokes a macro on a line: a name that has a meaning there, alone or with the call
that follows it. -/
def IsInvocation (table : MacroTable) (line : Origin) (invocation : Text) : Prop :=
  ∃ name call : Text, invocation = name ++ call ∧ name ≠ [] ∧
    (∀ letter ∈ name, isWordCharacter letter = true) ∧
    (table.replacement? line name).isSome = true ∧
    (call = [] ∨ ∃ (behind : Text) (parsed : Call),
      Call.parse? behind = some parsed ∧ call = parsed.source)

theorem isInvocation_of_word {character : Char} {rest name after : Text} {replacement : Replacement}
    (shape : Piece.first character rest = (.word name, after))
    (known : table.replacement? line name = some replacement) : table.IsInvocation line name := by
  have word := Piece.word_of_first shape
  exact ⟨name, [], by simp, word.1, word.2, by simp [known], Or.inl rfl⟩

theorem isInvocation_of_mem_expandActive {active : List Text} {text invocation replacement : Text}
    (member : .replaced invocation replacement ∈ (table.expandActive line active text).segments) :
    table.IsInvocation line invocation := by
  induction active, text using expandActive_induction table line with
  | nil active => simp [expandActive_nil] at member
  | copy copies ih =>
    rw [expandActive_of_copies copies] at member
    rcases List.mem_cons.1 member with first | later
    · cases first
    · exact ih later
  | builtin shape known inactive ih =>
    rw [expandActive_of_builtin shape known inactive] at member
    rcases List.mem_cons.1 member with first | later
    · rw [(Segment.replaced.inj first).1]
      exact isInvocation_of_word shape known
    · exact ih later
  | object shape known inactive room _ ih =>
    rw [expandActive_of_object shape known inactive room] at member
    rcases List.mem_cons.1 member with first | later
    · rw [(Segment.replaced.inj first).1]
      exact isInvocation_of_word shape known
    · exact ih later
  | @call active character rest name after parameters body call shape known inactive parsed right
      room _ _ ih =>
    rw [expandActive_of_call shape known inactive parsed right room] at member
    rcases List.mem_cons.1 member with first | later
    · rw [(Segment.replaced.inj first).1]
      have word := Piece.word_of_first shape
      exact ⟨name, call.source, rfl, word.1, word.2, by simp [known],
        Or.inr ⟨after, call, parsed, rfl⟩⟩
    · exact ih later

/-- What an expansion replaces is an invocation of a macro. -/
theorem isInvocation_of_mem_expand {text invocation replacement : Text}
    (member : .replaced invocation replacement ∈ (table.expand line text).segments) :
    table.IsInvocation line invocation :=
  isInvocation_of_mem_expandActive member

/-! ## Expanded texts -/

/-- The names that have a meaning on a line are few. -/
theorem mem_names_of_replacement? {name : Text}
    (known : (table.replacement? line name).isSome = true) :
    name ∈ fileMacro :: lineMacro ::
      (table.builtins.map Prod.fst ++ table.definitions.map Prod.fst) := by
  have listed {α : Type} {entries : List (Text × α)} {value : α}
      (found : entries.lookup name = some value) : name ∈ entries.map Prod.fst := by
    rcases List.lookup_eq_some_iff.1 found with ⟨earlier, later, rfl, _⟩
    simp
  unfold replacement? at known
  split at known
  · next isFile => simp [isFile]
  · split at known
    · next isLine => simp [isLine]
    · split at known
      · next found => simp [listed found]
      · rw [Option.isSome_map] at known
        rcases Option.isSome_iff_exists.1 known with ⟨_, found⟩
        simp [listed found]

/-- No word outside of the literals of a text has a meaning, on whatever line it stands. -/
def IsInert (table : MacroTable) (text : Text) : Prop :=
  ∀ name, .word name ∈ Piece.ofText text → table.isDefined name = false

instance (table : MacroTable) : DecidablePred table.IsInert := fun text =>
  decidable_of_iff
    (∀ piece ∈ Piece.ofText text, ∀ name ∈ piece.word?, table.isDefined name = false) <| by
      refine ⟨fun all name member => all _ member name rfl, fun inert piece member name word => ?_⟩
      cases piece with
      | word written =>
        cases word
        exact inert name member
      | literal _ => cases word
      | mark _ => cases word

theorem replacement?_of_undefined {name : Text}
    (undefined : table.isDefined name = false) (line : Origin) :
    table.replacement? line name = none := by
  simp only [isDefined, Bool.or_eq_false_iff, Option.isSome_eq_false_iff, Option.isNone_iff_eq_none,
    beq_eq_false_iff_ne] at undefined
  obtain ⟨⟨⟨noMacro, noBuiltin⟩, notFile⟩, notLine⟩ := undefined
  rw [replacement?, if_neg notFile, if_neg notLine, noBuiltin, noMacro]
  rfl

/-- A text none of whose words has a meaning on the line is copied piece by piece. -/
theorem expandActive_of_inert {active : List Text} {text : Text}
    (inert : ∀ name, .word name ∈ Piece.ofText text → table.replacement? line name = none) :
    table.expandActive line active text =
      ⟨(Piece.ofText text).map fun piece => .copied piece.text, []⟩ := by
  fun_induction Piece.ofText text with
  | case1 =>
    rw [expandActive_nil]
    rfl
  | case2 character rest ih =>
    have later := ih fun name member => inert name (List.mem_cons_of_mem _ member)
    have copies : table.Copies line active (character :: rest)
        (Piece.first character rest).1.text [] (Piece.first character rest).2 := by
      rcases shape : Piece.first character rest with ⟨(_ | name | _), after⟩
      · exact .mark shape fun _ => Piece.noConfusion
      · exact .unknown shape (inert name (shape ▸ List.mem_cons_self))
      · exact .mark shape fun _ => Piece.noConfusion
    rw [expandActive_of_copies copies, later]
    rfl

/-- A text none of whose words has a meaning on the line is expanded to itself. -/
theorem text_expandActive_of_inert {active : List Text} {text : Text}
    (inert : ∀ name, .word name ∈ Piece.ofText text → table.replacement? line name = none) :
    (table.expandActive line active text).text = text := by
  rw [expandActive_of_inert inert, Expansion.text, List.flatMap_map]
  exact Piece.flatMap_text_ofText text

/-- No word has a meaning in a text in which no macro's name occurs. -/
theorem inert_of_absent {text : Text}
    (absent : ∀ name ∈ fileMacro :: lineMacro ::
      (table.builtins.map Prod.fst ++ table.definitions.map Prod.fst), ¬ name <:+: text) :
    ∀ name, .word name ∈ Piece.ofText text → table.replacement? line name = none := by
  intro name member
  cases known : table.replacement? line name with
  | none => rfl
  | some replacement =>
    have listed := mem_names_of_replacement? (Option.isSome_iff_exists.2 ⟨replacement, known⟩)
    exact absurd (Piece.infix_of_word_mem member) (absent name listed)

/-- A text in which no macro's name occurs is expanded to itself. -/
theorem text_expandActive_of_absent {active : List Text} {text : Text}
    (absent : ∀ name ∈ fileMacro :: lineMacro ::
      (table.builtins.map Prod.fst ++ table.definitions.map Prod.fst), ¬ name <:+: text) :
    (table.expandActive line active text).text = text :=
  text_expandActive_of_inert (inert_of_absent absent)

end MacroTable

end ScriptPreprocessor
