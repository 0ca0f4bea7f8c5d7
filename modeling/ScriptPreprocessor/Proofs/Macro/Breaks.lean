import ScriptPreprocessor.Proofs.Macro.Contents
import ScriptPreprocessor.Proofs.Macro.Segments
import ScriptPreprocessor.Proofs.Text.Lines

namespace ScriptPreprocessor

/-!
# Line feeds in expansions

Expansion keeps the one line feed of a line.  A table is unbroken when no text that it can put into
a line has a line feed.  Definitions keep a table so, because a definition stands on one line
(`IsUnbroken.define`).  With such a table an ended line expands to an ended line, and a text
without a line feed to a text without one (`ended_expand`, `unbroken_expand`).

The invariant of the induction is about segments: what is replaced is neither empty nor holds the
line feed of the line, because it ends in a letter or a parenthesis.
-/

/-- No text that the table can put into a line has a line feed. -/
structure MacroTable.IsUnbroken (table : MacroTable) : Prop where
  builtins : ∀ entry ∈ table.builtins, '\n' ∉ entry.2
  bodies : ∀ entry ∈ table.definitions, '\n' ∉ entry.2.body

/-- A segment that neither takes a line feed out of its line nor puts one in. -/
def Segment.KeepsLine : Segment → Prop
  | .copied _ => True
  | .replaced invocation replacement =>
    invocation ≠ [] ∧ '\n' ∉ invocation ∧ '\n' ∉ replacement

/-! ## From segments to lines -/

namespace Segment

variable {segments : List Segment}

theorem expanded_subset_source {segment : Segment} (keeps : segment.KeepsLine)
    (inExpanded : '\n' ∈ segment.expanded) : '\n' ∈ segment.source := by
  cases segment with
  | copied text => exact inExpanded
  | replaced invocation replacement => exact absurd inExpanded keeps.2.2

/-- Segments of a text without a line feed expand to such a text. -/
theorem unbroken_flatMap_expanded (keeps : ∀ segment ∈ segments, segment.KeepsLine)
    (unbroken : '\n' ∉ segments.flatMap source) : '\n' ∉ segments.flatMap expanded := by
  intro member
  rcases List.mem_flatMap.1 member with ⟨segment, inSegments, inExpanded⟩
  apply unbroken
  exact List.mem_flatMap.2
    ⟨segment, inSegments, expanded_subset_source (keeps segment inSegments) inExpanded⟩

/-- Segments that stand for nothing expand to nothing. -/
theorem flatMap_expanded_of_empty (keeps : ∀ segment ∈ segments, segment.KeepsLine)
    (empty : segments.flatMap source = []) : segments.flatMap expanded = [] := by
  rw [List.flatMap_eq_nil_iff] at empty ⊢
  intro segment member
  have noSource := empty segment member
  cases segment with
  | copied text => exact noSource
  | replaced invocation replacement => exact absurd noSource (keeps _ member).1

/-- Segments of an ended line expand to an ended line. -/
theorem ended_flatMap_expanded (keeps : ∀ segment ∈ segments, segment.KeepsLine)
    (ended : Text.IsEndedLine (segments.flatMap source)) :
    Text.IsEndedLine (segments.flatMap expanded) := by
  induction segments with
  | nil =>
    rcases ended with ⟨body, _, shape⟩
    simp at shape
  | cons segment rest ih =>
    have first := keeps segment List.mem_cons_self
    have later : ∀ other ∈ rest, other.KeepsLine := fun other member =>
      keeps other (List.mem_cons_of_mem _ member)
    rw [List.flatMap_cons] at ended ⊢
    by_cases final : rest.flatMap source = []
    · rw [flatMap_expanded_of_empty later final, List.append_nil]
      rw [final, List.append_nil] at ended
      cases segment with
      | copied text => exact ended
      | replaced invocation replacement =>
        rcases ended with ⟨body, _, shape⟩
        have feed : '\n' ∈ invocation := by
          simp only [source] at shape
          simp [shape]
        exact absurd feed first.2.1
    · have inFront := ended.isOneLine.unbroken_of_append final
      have behind := ih later (ended.of_append_left final)
      exact behind.append_left fun member => inFront (expanded_subset_source first member)

end Segment

/-! ## Pieces and calls -/

namespace Piece

theorem unbroken_substitute {parameters arguments : List Text} {body : Text}
    (inBody : '\n' ∉ body) (inArguments : ∀ argument ∈ arguments, '\n' ∉ argument) :
    '\n' ∉ substitute parameters arguments body := by
  rcases exists_parts_substitute parameters arguments body with ⟨parts, whole, origins⟩
  intro member
  rw [whole] at member
  rcases List.mem_flatten.1 member with ⟨part, inParts, inPart⟩
  rcases origins part inParts with ⟨piece, inPieces, rfl⟩ | isArgument
  · apply inBody
    rw [← flatMap_text_ofText body]
    exact List.mem_flatMap.2 ⟨piece, inPieces, inPart⟩
  · exact inArguments part isArgument inPart

theorem unbroken_of_first_word {character : Char} {rest name after : Text}
    (shape : first character rest = (.word name, after)) : name ≠ [] ∧ '\n' ∉ name := by
  have word := word_of_first shape
  exact ⟨word.1, fun member => absurd (word.2 '\n' member) (by decide)⟩

end Piece

namespace Call

/-- A call on one line ends in its parenthesis, and so has no line feed, nor have its arguments. -/
theorem unbroken_of_parse? {text : Text} {call : Call} (found : parse? text = some call)
    (one : text.IsOneLine) :
    '\n' ∉ call.source ∧ ∀ argument ∈ call.arguments, '\n' ∉ argument := by
  rcases exists_inside found with ⟨blanks, inside, source, arguments, whole⟩
  rw [← whole, source] at one
  have unbroken := one.unbroken_of_last (by decide)
  rw [source]
  refine ⟨unbroken, fun argument member inArgument => unbroken ?_⟩
  have inInside := (sublist_of_mem_arguments (arguments ▸ member)).subset inArgument
  simp [inInside]

end Call

/-! ## Expansions -/

namespace MacroTable

variable {table : MacroTable} {line : Origin}

theorem unbroken_ofNat (number : Nat) : '\n' ∉ Text.ofNat number :=
  fun member => absurd (Text.isDigit_of_mem_ofNat member) (by decide)

theorem isUnbroken_iff : table.IsUnbroken ↔ table.PutsOnly ('\n' ∉ ·) :=
  ⟨fun unbroken => ⟨unbroken.builtins, unbroken.bodies⟩,
    fun puts => ⟨puts.builtins, puts.bodies⟩⟩

/-- What an unbroken table replaces a word by has no line feed. -/
theorem IsUnbroken.replacement (unbroken : table.IsUnbroken) (inUnit : '\n' ∉ line.unit)
    {word : Text} {replacement : Replacement}
    (found : table.replacement? line word = some replacement) :
    match replacement with
    | .builtin text => '\n' ∉ text
    | .defined definition => '\n' ∉ definition.body := by
  by_cases isFile : word = fileMacro
  · simp only [replacement?, if_pos isFile] at found
    cases found
    simp [quoted, inUnit]
  · by_cases isLine : word = lineMacro
    · simp only [replacement?, if_neg isFile, if_pos isLine] at found
      cases found
      exact unbroken_ofNat line.line
    · exact (isUnbroken_iff.1 unbroken).replacement isFile isLine found

/-- Segments that keep the line bring no line feed into a text without one. -/
theorem unbroken_of_keepsLine {active : List Text} {text : Text} (inText : '\n' ∉ text)
    (keeps : ∀ segment ∈ (table.expandActive line active text).segments, segment.KeepsLine) :
    '\n' ∉ (table.expandActive line active text).text := by
  rw [← source_expandActive table line active text] at inText
  exact Segment.unbroken_flatMap_expanded keeps inText

/-- The segments of a text on one line keep the line. -/
theorem keepsLine_of_mem_expandActive (unbroken : table.IsUnbroken) (inUnit : '\n' ∉ line.unit)
    {active : List Text} {text : Text} (one : text.IsOneLine) :
    ∀ segment ∈ (table.expandActive line active text).segments, segment.KeepsLine := by
  induction active, text using expandActive_induction table line with
  | nil active => simp [expandActive_nil]
  | copy copies ih =>
    rw [← copies.append_eq] at one
    rw [expandActive_of_copies copies, Expansion.segments_prepend]
    exact List.forall_mem_cons.2 ⟨trivial, ih one.of_append_left⟩
  | builtin shape known inactive ih =>
    have word := Piece.unbroken_of_first_word shape
    rw [← Piece.text_append_of_first shape] at one
    rw [expandActive_of_builtin shape known inactive, Expansion.segments_prepend]
    exact List.forall_mem_cons.2
      ⟨⟨word.1, word.2, unbroken.replacement inUnit known⟩, ih one.of_append_left⟩
  | @object active _ _ name after body shape known inactive room innerIh ih =>
    have word := Piece.unbroken_of_first_word shape
    rw [← Piece.text_append_of_first shape] at one
    have inBody : '\n' ∉ body := unbroken.replacement inUnit known
    have inner := unbroken_of_keepsLine inBody (innerIh (Text.isOneLine_of_unbroken inBody))
    rw [expandActive_of_object shape known inactive room, Expansion.segments_prepend]
    exact List.forall_mem_cons.2 ⟨⟨word.1, word.2, inner⟩, ih one.of_append_left⟩
  | @call active _ _ name after parameters body call shape known inactive parsed right room
      argumentsIh innerIh ih =>
    have word := Piece.unbroken_of_first_word shape
    rw [← Piece.text_append_of_first shape] at one
    have behind := one.of_append_left
    have inCall := Call.unbroken_of_parse? parsed behind
    -- Arguments are expanded in the same way as the line, so none of them brings in a line feed.
    have inArguments : ∀ argument ∈ call.arguments,
        '\n' ∉ (table.expandActive line active argument).text := by
      intro argument member
      have inArgument := inCall.2 argument member
      exact unbroken_of_keepsLine inArgument
        (argumentsIh argument member (Text.isOneLine_of_unbroken inArgument))
    have inBody : '\n' ∉ table.bodyOfCall line active parameters body call :=
      Piece.unbroken_substitute (unbroken.replacement inUnit known)
        (List.forall_mem_map.2 inArguments)
    have inner := unbroken_of_keepsLine inBody (innerIh (Text.isOneLine_of_unbroken inBody))
    rw [← Call.source_append_after parsed] at behind
    rw [expandActive_of_call shape known inactive parsed right room, Expansion.segments_prepend]
    refine List.forall_mem_cons.2 ⟨⟨?_, ?_, inner⟩, ih behind.of_append_left⟩
    · simp [word.1]
    · simp [word.2, inCall.1]

/-- A text without a line feed expands to one. -/
theorem unbroken_expand (unbroken : table.IsUnbroken) (inUnit : '\n' ∉ line.unit) {text : Text}
    (inText : '\n' ∉ text) : '\n' ∉ (table.expand line text).text :=
  unbroken_of_keepsLine inText
    (keepsLine_of_mem_expandActive unbroken inUnit (Text.isOneLine_of_unbroken inText))

/-- An ended line expands to an ended line. -/
theorem ended_expand (unbroken : table.IsUnbroken) (inUnit : '\n' ∉ line.unit) {text : Text}
    (ended : text.IsEndedLine) : (table.expand line text).text.IsEndedLine := by
  have keeps : ∀ segment ∈ (table.expand line text).segments, segment.KeepsLine :=
    keepsLine_of_mem_expandActive unbroken inUnit ended.isOneLine
  rw [← source_expand table line text] at ended
  exact Segment.ended_flatMap_expanded keeps ended

/-! ## Definitions -/

/-- The body of a definition consists of characters of its argument. -/
theorem body_subset_of_isWritten {argument name : Text} {definition : Macro}
    (written : Macro.IsWritten argument name definition) : definition.body ⊆ argument := by
  cases written with
  | bare _ => exact List.nil_subset _
  | @object name body blank _ _ =>
    have tail : body ⊆ name ++ blank :: body :=
      List.subset_append_of_subset_right _ (List.subset_cons_self _ _)
    exact List.Subset.trans (Text.trim_sublist body).subset tail
  | @function name list body parameters _ _ _ =>
    have tail : body ⊆ name ++ '(' :: (list ++ ')' :: body) := fun _ member => by simp [member]
    exact List.Subset.trans (Text.trim_sublist body).subset tail

theorem IsUnbroken.define (unbroken : table.IsUnbroken) {argument name : Text}
    {after : MacroTable} (inArgument : '\n' ∉ argument)
    (defined : table.define argument = .ok (name, after)) : after.IsUnbroken := by
  refine isUnbroken_iff.2 ((isUnbroken_iff.1 unbroken).define ?_ defined)
  intro definition written member
  exact inArgument (body_subset_of_isWritten written member)

theorem IsUnbroken.remove (unbroken : table.IsUnbroken) {name : Text} {existed : Bool}
    {after : MacroTable} (removed : table.remove name = .ok (existed, after)) :
    after.IsUnbroken :=
  isUnbroken_iff.2 ((isUnbroken_iff.1 unbroken).remove removed)

/-- The table before the first line is unbroken when no built-in text and no predefined value has a
line feed. -/
theorem isUnbroken_ofEnvironment {environment : Environment} (maxDepth : Nat)
    (builtins : ∀ entry ∈ environment.builtins, '\n' ∉ entry.2)
    (predefined : ∀ entry ∈ environment.predefined, '\n' ∉ entry.2) :
    (ofEnvironment environment maxDepth).IsUnbroken :=
  isUnbroken_iff.2 (putsOnly_ofEnvironment maxDepth builtins predefined)

end MacroTable

end ScriptPreprocessor
