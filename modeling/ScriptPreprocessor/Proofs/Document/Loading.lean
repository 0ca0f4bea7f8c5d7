import ScriptPreprocessor.Proofs.Document.Including
import ScriptPreprocessor.Proofs.Document.Stripping

namespace ScriptPreprocessor

/-!
# What loading keeps

A stored document is edited by hand before it is loaded again, so user text can stand anywhere in
it.  Around the marker line that reading starts from, a document has a layout: the lines in front,
the escaped lines, an end-of-text line when there is one, and the lines behind.

From a compiled script every visible line is kept: it stays in the compiled text, it is an escaped
line that was read, or it is a line of the format.  An include script is read from its marker to its
footer and has no compiled text, so the lines in front of the marker and behind the footer are gone
(`isKept_or_isOutside_of_stored`).  The placeholder state stands there, but so does whatever the
user has written there (`exists_line_not_kept`).
-/

namespace Document

/-! ## Layouts -/

/-- How the lines of a document stand around a marker line. -/
structure Layout (document : Text) where
  before : List Text
  marker : Text
  escaped : List Text
  ending : Option Text
  behind : List Text
  lines_eq : document.lines = before ++ marker :: (escaped ++ (ending.toList ++ behind))
  escapes : ∀ line ∈ escaped, (unescapeLine? line).isSome = true
  ends : ∀ line ∈ ending, isMarkerLine endOfTextMarker line = true

namespace Layout

variable {document : Text} (layout : Layout document)

/-- The text that the escaped lines stand for. -/
def text : Text :=
  let sources : Text := (layout.escaped.filterMap unescapeLine?).flatten
  if layout.ending.isSome then withoutFinalNewline sources else sources

/-- The lines from the marker line to the line behind the escaped lines, where an include script
has its footer. -/
def blockLines : List Text :=
  layout.marker :: (layout.escaped ++ (layout.ending.toList ++ layout.behind.take 1))

/-- The document cut to its block. -/
def block : Text := layout.blockLines.flatten

/-- Where a line of the document can stand in its layout. -/
inductive Place (index : Nat) (line : Text) : Prop
  | before (found : layout.before[index]? = some line)
  | marker (same : line = layout.marker)
  | escaped (position : Nat) (stands : index = layout.before.length + 1 + position)
      (found : layout.escaped[position]? = some line)
  | ending (member : line ∈ layout.ending)
  | next (member : line ∈ layout.behind.take 1)
  | beyond (member : line ∈ layout.behind)
      (stands : layout.before.length + layout.blockLines.length ≤ index)

theorem place {index : Nat} {line : Text} (found : document.lines[index]? = some line) :
    layout.Place index line := by
  rw [layout.lines_eq] at found
  by_cases inFront : index < layout.before.length
  · rw [List.getElem?_append_left inFront] at found
    exact .before found
  obtain ⟨offset, rfl⟩ := Nat.exists_eq_add_of_le (Nat.le_of_not_lt inFront)
  rw [List.getElem?_append_right (Nat.le_add_right _ _), Nat.add_sub_cancel_left] at found
  cases offset with
  | zero => exact .marker (Option.some.inj found).symm
  | succ position =>
    rw [List.getElem?_cons_succ] at found
    by_cases isEscaped : position < layout.escaped.length
    · rw [List.getElem?_append_left isEscaped] at found
      exact .escaped position (by omega) found
    rw [List.getElem?_append_right (Nat.le_of_not_lt isEscaped)] at found
    by_cases isEnding : position - layout.escaped.length < layout.ending.toList.length
    · rw [List.getElem?_append_left isEnding] at found
      exact .ending (Option.mem_toList.1 (List.mem_of_getElem? found))
    rw [List.getElem?_append_right (Nat.le_of_not_lt isEnding)] at found
    cases behind : layout.behind with
    | nil => simp [behind] at found
    | cons first more =>
      by_cases isFirst : position - layout.escaped.length - layout.ending.toList.length = 0
      · rw [isFirst, behind] at found
        exact .next (by simpa [behind] using found.symm)
      · refine .beyond (List.mem_of_getElem? found) ?_
        simp only [blockLines, behind, List.length_cons, List.length_append, List.take_succ_cons,
          List.take_zero, List.length_nil]
        omega

theorem blockLines_infix : layout.blockLines <:+: document.lines := by
  refine ⟨layout.before, layout.behind.drop 1, ?_⟩
  rw [layout.lines_eq]
  simp only [blockLines, List.cons_append, List.append_assoc, List.take_append_drop]

end Layout

/-- Reading from a marker line finds a layout and gives its text.  Of the lines behind the escaped
lines it looks at the first one. -/
theorem exists_layout {document marker : Text} {before after : List Text}
    (shape : document.lines = before ++ marker :: after) :
    ∃ layout : Layout document, layout.before = before ∧ layout.marker = marker ∧
      unescapeLines after = (layout.text, layout.behind.flatten) ∧
      unescapeLines (layout.escaped ++ (layout.ending.toList ++ layout.behind.take 1)) =
        (layout.text, (layout.behind.take 1).flatten) := by
  rcases exists_escaped after with ⟨escaped, ending, behind, escapes, ends, rfl, taken⟩
  have first : (behind.take 1).head? = behind.head? := by simp [List.head?_take]
  refine ⟨⟨before, marker, escaped, ending, behind, shape, escapes, ends⟩, rfl, rfl, ?_, ?_⟩
  · unfold unescapeLines
    rw [taken behind rfl]
    rfl
  · unfold unescapeLines
    rw [taken _ first]
    rfl

/-! ## Lines that are kept -/

/-- Whether a line is one that the formats write around the text. -/
def isFormatLine (line : Text) : Bool :=
  [escapedMarker, includeMarker, endOfTextMarker, placeholderState].any (isMarkerLine · line) ||
    beginsWithFooter line

theorem isFormatLine_of_isMarkerLine {marker line : Text}
    (known : marker ∈ [escapedMarker, includeMarker, endOfTextMarker, placeholderState])
    (isMarker : isMarkerLine marker line = true) : isFormatLine line = true := by
  unfold isFormatLine
  rw [Bool.or_eq_true, List.any_eq_true]
  exact Or.inl ⟨marker, known, isMarker⟩

/-- A line that is not lost when its document is loaded: it shows nothing, it has its place in the
compiled text, it is an escaped line of the loaded text, or it is a line of the format. -/
inductive IsKept {document : Text} (layout : Layout document) (index : Nat) (line : Text) : Prop
  | blank (blank : line.trim = [])
  | compiled (text : Text) (stored : (load document).compiled = some text)
      (kept : text.lines[index]? = some line)
  | escaped (position : Nat) (stands : index = layout.before.length + 1 + position)
      (found : layout.escaped[position]? = some line)
  | format (known : isFormatLine line = true)

/-- A line in front of a block or behind it. -/
def IsOutside {document : Text} (layout : Layout document) (index : Nat) : Prop :=
  index < layout.before.length ∨ layout.before.length + layout.blockLines.length ≤ index

/-- Lines are blank together when each of them is. -/
theorem trim_flatten_eq_nil_iff {lines : List Text} :
    Text.trim lines.flatten = [] ↔ ∀ line ∈ lines, line.trim = [] := by
  simp only [Text.trim_eq_nil_iff, List.mem_flatten]
  constructor
  · exact fun blank line member character inLine => blank character ⟨line, member, inLine⟩
  · rintro blank character ⟨line, member, inLine⟩
    exact blank line member character inLine

/-! ## What is read -/

/-- The ways to read a document. -/
inductive Reading (document : Text) : Prop
  | plain (same : load document = plain document)
  | legacy (legacy : isLegacy document = true)
      (same : load document = ⟨convertLegacy document, .legacy, legacyCompiled? document⟩)
  | inclusion {text : Text} (notLegacy : isLegacy document = false)
      (decoded : decodeInclude document = .ok text)
      (same : load document = ⟨text, .inclusion, none⟩)
  | preprocessed {text : Text} (read : unescapeBlock document = .ok text) (filled : text ≠ [])
      (same : load document = ⟨text, .preprocessed, some (stripBlock document)⟩)

theorem reading (document : Text) : Reading document := by
  cases legacy : isLegacy document with
  | true => exact .legacy legacy (by simp [load, classify, legacy])
  | false =>
    cases decoded : decodeInclude document with
    | ok text => exact .inclusion legacy decoded (load_of_decodeInclude legacy decoded)
    | error damage =>
      cases marked : hasMarker escapedMarker document with
      | false => exact .plain (by simp [load, classify, isInclude, legacy, decoded, marked])
      | true =>
        cases read : unescapeBlock document with
        | error other =>
          exact .plain (by simp [load, classify, isInclude, legacy, decoded, marked, read])
        | ok text =>
          by_cases empty : text = []
          · exact .plain
              (by simp [load, classify, isInclude, legacy, decoded, marked, read, empty])
          · exact .preprocessed read empty
              (by simp [load, classify, isInclude, legacy, decoded, marked, read, empty])

/-! ## Compiled scripts -/

theorem load_of_preprocessed {document : Text} (stored : (load document).form = .preprocessed) :
    unescapeBlock document = .ok (load document).text ∧
      (load document).compiled = some (stripBlock document) := by
  cases reading document with
  | preprocessed read _ same =>
    rw [same]
    exact ⟨read, rfl⟩
  | plain same => simp [same, plain] at stored
  | legacy _ same => simp [same] at stored
  | inclusion _ _ same => simp [same] at stored

/-- A line in front of the block is a line of the compiled text, or the empty line between them. -/
theorem blank_or_compiled {document : Text} {before after : List Text} {index : Nat} {line : Text}
    (split : splitAtLast? escapedMarker document.lines = some (before, after))
    (found : before[index]? = some line) :
    line.trim = [] ∨ (stripBlock document).lines[index]? = some line := by
  rcases eq_of_splitAtLast? split with ⟨marker, _, shape⟩
  have consecutive : before <:+: document.lines := ⟨[], marker :: after, shape.symm⟩
  have front := Text.lines_flatten_of_infix consecutive
  rcases stripBlock_of_split split with ⟨gap, rfl | ⟨rfl, ends⟩, whole⟩
  · rw [whole, List.append_nil] at front
    exact Or.inr (front ▸ found)
  · rw [whole, Text.lines_append_of_ends ends] at front
    rw [← front] at found
    by_cases compiled : index < (stripBlock document).lines.length
    · rw [List.getElem?_append_left compiled] at found
      exact Or.inr found
    · rw [List.getElem?_append_right (Nat.le_of_not_lt compiled)] at found
      have isGap : line ∈ Text.lines ['\n'] := List.mem_of_getElem? found
      have empty : line = ['\n'] := by simpa using isGap
      exact Or.inl (by rw [empty]; rfl)

theorem exists_layout_of_preprocessed {document : Text}
    (stored : (load document).form = .preprocessed) :
    ∃ layout : Layout document, (load document).text = layout.text ∧
      ∀ index line, document.lines[index]? = some line → IsKept layout index line := by
  rcases load_of_preprocessed stored with ⟨read, compiled⟩
  unfold unescapeBlock at read
  cases split : splitAtLast? escapedMarker document.lines with
  | none =>
    rw [split] at read
    cases read
  | some pair =>
    rcases eq_of_splitAtLast? split with ⟨marker, isMarker, shape⟩
    rcases exists_layout shape with ⟨layout, front, atMarker, taken, _⟩
    simp only [split, taken] at read
    have blank : Text.trim layout.behind.flatten = [] := by
      by_contra visible
      rw [if_neg (by simpa using visible)] at read
      cases read
    rw [if_pos (by simpa using blank)] at read
    rw [trim_flatten_eq_nil_iff] at blank
    refine ⟨layout, (Except.ok.inj read).symm, fun index line found => ?_⟩
    cases layout.place found with
    | before inFront =>
      rw [front] at inFront
      rcases blank_or_compiled split inFront with empty | kept
      · exact .blank empty
      · exact .compiled _ compiled kept
    | marker same =>
      rw [← atMarker, ← same] at isMarker
      exact .format (isFormatLine_of_isMarkerLine (by simp) isMarker)
    | escaped position stands inEscaped => exact .escaped position stands inEscaped
    | ending member =>
      exact .format (isFormatLine_of_isMarkerLine (by simp) (layout.ends line member))
    | next member => exact .blank (blank line (List.mem_of_mem_take member))
    | beyond member _ => exact .blank (blank line member)

/-! ## Include scripts -/

theorem eq_of_splitAtFirst? {marker : Text} {lines before after : List Text}
    (found : splitAtFirst? marker lines = some (before, after)) :
    ∃ line, isMarkerLine marker line = true ∧ lines = before ++ line :: after := by
  induction lines generalizing before with
  | nil => cases found
  | cons first rest ih =>
    unfold splitAtFirst? at found
    split at found
    · next isMarker =>
      cases found
      exact ⟨first, isMarker, rfl⟩
    · rcases Option.map_eq_some_iff.1 found with ⟨⟨front, back⟩, later, same⟩
      cases same
      rcases ih later with ⟨line, isMarker, shape⟩
      exact ⟨line, isMarker, by rw [shape, List.cons_append]⟩

theorem load_of_inclusion {document : Text} (stored : (load document).form = .inclusion) :
    isLegacy document = false ∧ decodeInclude document = .ok (load document).text := by
  cases reading document with
  | inclusion notLegacy decoded same =>
    rw [same]
    exact ⟨notLegacy, decoded⟩
  | plain same => simp [same, plain] at stored
  | legacy _ same => simp [same] at stored
  | preprocessed _ _ same => simp [same] at stored

namespace Layout

variable {document : Text} (layout : Layout document)

/-- The footer of an include script is its first line behind the escaped lines. -/
theorem beginsWithFooter_behind :
    beginsWithFooter (layout.behind.take 1).flatten = beginsWithFooter layout.behind.flatten := by
  cases behind : layout.behind with
  | nil => rfl
  | cons first more =>
    cases more with
    | nil => rfl
    | cons second rest =>
      have shape : document.lines = (layout.before ++ layout.marker ::
          (layout.escaped ++ (layout.ending.toList ++ [first]))) ++ second :: rest := by
        rw [layout.lines_eq, behind]
        simp
      rcases Text.ended_of_lines_eq shape (by simp : first ∈ _) with ⟨body, _, rfl⟩
      have whole : (((body ++ ['\n']) :: second :: rest).flatten : Text) =
          body ++ '\n' :: (second :: rest).flatten := by simp
      have alone : ((((body ++ ['\n']) :: second :: rest).take 1).flatten : Text) =
          body ++ '\n' :: [] := by simp
      rw [whole, alone, beginsWithFooter_append, beginsWithFooter_append]

theorem block_infix : layout.block <:+: document := by
  rcases layout.blockLines_infix with ⟨front, back, shape⟩
  have whole := congrArg List.flatten shape
  rw [Text.flatten_lines, List.flatten_append, List.flatten_append] at whole
  exact ⟨front.flatten, back.flatten, whole⟩

theorem isLegacy_block (notLegacy : isLegacy document = false) :
    isLegacy layout.block = false := by
  rw [isLegacy, Bool.eq_false_iff, ne_eq, Text.contains_iff_occurs] at notLegacy ⊢
  exact fun occurs => notLegacy (occurs.trans layout.block_infix)

end Layout

/-- What closes the lines of an include script. -/
theorem decodeInclude_of_split {document : Text} {before after : List Text} {inside rest : Text}
    (split : splitAtFirst? includeMarker document.lines = some (before, after))
    (taken : unescapeLines after = (inside, rest)) (text : Text) :
    decodeInclude document = .ok text ↔
      (rest.trim = [] ∨ beginsWithFooter rest = true) ∧ inside = text ∧ text ≠ [] := by
  have closed_iff : (rest.trim.isEmpty || beginsWithFooter rest) = true ↔
      rest.trim = [] ∨ beginsWithFooter rest = true := by
    rw [Bool.or_eq_true, List.isEmpty_iff]
  unfold decodeInclude
  simp only [split, taken]
  by_cases closed : (rest.trim.isEmpty || beginsWithFooter rest) = true
  · rw [← closed_iff, closed]
    cases inside with
    | nil => simp +contextual [eq_comm]
    | cons first more =>
      constructor
      · rintro ⟨⟩
        simp
      · rintro ⟨_, rfl, _⟩
        rfl
  · rw [← closed_iff]
    simp [closed]

section

variable {document : Text} {layout : Layout document}
  (isMarker : isMarkerLine includeMarker layout.marker = true)
  (closed : Text.trim layout.behind.flatten = [] ∨
    beginsWithFooter layout.behind.flatten = true)

include isMarker closed

theorem isKept_or_isOutside_of_closed {index : Nat} {line : Text}
    (found : document.lines[index]? = some line) :
    IsKept layout index line ∨ IsOutside layout index := by
  cases layout.place found with
  | before inFront => exact Or.inr (Or.inl (List.getElem?_eq_some_iff.1 inFront).1)
  | marker same =>
    rw [← same] at isMarker
    exact Or.inl (.format (isFormatLine_of_isMarkerLine (by simp) isMarker))
  | escaped position stands inEscaped => exact Or.inl (.escaped position stands inEscaped)
  | ending member =>
    exact Or.inl (.format (isFormatLine_of_isMarkerLine (by simp) (layout.ends line member)))
  | next member =>
    left
    rcases closed with blank | footer
    · exact .blank (trim_flatten_eq_nil_iff.1 blank line (List.mem_of_mem_take member))
    · rw [← layout.beginsWithFooter_behind] at footer
      cases behind : layout.behind with
      | nil => simp [behind] at member
      | cons first more =>
        rw [behind] at member footer
        have isFirst : line = first := by simpa using member
        have known : beginsWithFooter line = true := by simpa [isFirst] using footer
        exact .format (by rw [isFormatLine, known, Bool.or_true])
  | beyond _ stands => exact Or.inr (Or.inr stands)

/-- What is read from the block alone is what is read from the document. -/
theorem decodeInclude_block (filled : layout.text ≠ [])
    (first : unescapeLines (layout.escaped ++ (layout.ending.toList ++ layout.behind.take 1)) =
      (layout.text, (layout.behind.take 1).flatten)) :
    decodeInclude layout.block = .ok layout.text := by
  have split : splitAtFirst? includeMarker layout.block.lines = some ([],
      layout.escaped ++ (layout.ending.toList ++ layout.behind.take 1)) := by
    rw [Layout.block, Text.lines_flatten_of_infix layout.blockLines_infix, Layout.blockLines,
      splitAtFirst?, if_pos isMarker]
  refine (decodeInclude_of_split split first _).2 ⟨?_, rfl, filled⟩
  rw [layout.beginsWithFooter_behind]
  rw [trim_flatten_eq_nil_iff] at closed ⊢
  exact closed.imp_left fun blank line member => blank line (List.mem_of_mem_take member)

end

theorem exists_layout_of_inclusion {document : Text}
    (stored : (load document).form = .inclusion) :
    ∃ layout : Layout document, (load document).text = layout.text ∧
      (∀ index line, document.lines[index]? = some line →
        IsKept layout index line ∨ IsOutside layout index) ∧
      load layout.block = load document := by
  rcases load_of_inclusion stored with ⟨notLegacy, decoded⟩
  have loaded := load_of_decodeInclude notLegacy decoded
  cases split : splitAtFirst? includeMarker document.lines with
  | none =>
    unfold decodeInclude at decoded
    rw [split] at decoded
    cases decoded
  | some pair =>
    rcases eq_of_splitAtFirst? split with ⟨marker, isMarker, shape⟩
    rcases exists_layout shape with ⟨layout, _, rfl, taken, first⟩
    rcases (decodeInclude_of_split split taken _).1 decoded with ⟨closed, same, filled⟩
    rw [← same] at filled loaded
    have block := decodeInclude_block isMarker closed filled first
    exact ⟨layout, same.symm, fun _ _ => isKept_or_isOutside_of_closed isMarker closed,
      by rw [loaded, load_of_decodeInclude (layout.isLegacy_block notLegacy) block]⟩

/-! ## Every line of a document -/

/-- A document is loaded from its escaped lines.  Each of its lines is kept, except in front of an
include script and behind it: there the lines may be anything, and what is loaded is the same
without them. -/
theorem isKept_or_isOutside_of_stored {document : Text}
    (stored : (load document).form = .preprocessed ∨ (load document).form = .inclusion) :
    ∃ layout : Layout document, (load document).text = layout.text ∧
      (∀ index line, document.lines[index]? = some line → IsKept layout index line ∨
        (load document).form = .inclusion ∧ IsOutside layout index) ∧
      ((load document).form = .inclusion → load layout.block = load document) := by
  rcases stored with compiled | inclusion
  · rcases exists_layout_of_preprocessed compiled with ⟨layout, text, kept⟩
    refine ⟨layout, text, fun index line found => Or.inl (kept index line found), ?_⟩
    rw [compiled]
    exact fun differs => by cases differs
  · rcases exists_layout_of_inclusion inclusion with ⟨layout, text, lines, alone⟩
    exact ⟨layout, text, fun index line found => (lines index line found).imp_right
      (And.intro inclusion), fun _ => alone⟩

/-- The escaped lines end in an end-of-text line, and a user has written above the marker and below
the placeholder state. -/
theorem isKept_or_isOutside_of_stored_edited :
    ∃ document : Text,
      document = "x;\n".toList ++ encodeInclude "a;".toList ++ "user_added_line;\n".toList ∧
      load document = ⟨"a;".toList, .inclusion, none⟩ ∧
      ∃ layout : Layout document, (load document).text = layout.text ∧
        (∀ index line, document.lines[index]? = some line → IsKept layout index line ∨
          (load document).form = .inclusion ∧ IsOutside layout index) ∧
        load layout.block = load document := by
  let document : Text :=
    "x;\n".toList ++ encodeInclude "a;".toList ++ "user_added_line;\n".toList
  have loaded : load document = ⟨"a;".toList, .inclusion, none⟩ := by decide +kernel
  have inclusion : (load document).form = .inclusion := by rw [loaded]
  rcases isKept_or_isOutside_of_stored (Or.inr inclusion) with ⟨layout, text, lines, alone⟩
  exact ⟨document, rfl, loaded, layout, text, lines, alone inclusion⟩

/-- Below the placeholder state of an include script, a line of the user is not kept. -/
theorem exists_line_not_kept :
    ∃ (document line : Text) (index : Nat),
      document = encodeInclude "a;\n".toList ++ line ∧ line = "user_added_line;\n".toList ∧
      (load document).form = .inclusion ∧ document.lines[index]? = some line ∧
      (∀ layout : Layout document, ¬ IsKept layout index line) ∧
      ¬ line <:+: (load document).text := by
  let line : Text := "user_added_line;\n".toList
  let document : Text := encodeInclude "a;\n".toList ++ line
  have facts : load document = ⟨"a;\n".toList, .inclusion, none⟩ ∧
      document.lines[5]? = some line ∧ line.trim ≠ [] ∧ unescapeLine? line = none ∧
      isFormatLine line = false ∧ ¬ line <:+: "a;\n".toList := by decide +kernel
  rcases facts with ⟨loaded, found, visible, notEscaped, notFormat, missing⟩
  refine ⟨document, line, 5, rfl, rfl, by rw [loaded], found, fun layout kept => ?_, ?_⟩
  · cases kept with
    | blank blank => exact visible blank
    | compiled text stored _ =>
      rw [loaded] at stored
      cases stored
    | escaped position _ inEscaped =>
      have escapes := layout.escapes line (List.mem_of_getElem? inEscaped)
      rw [notEscaped] at escapes
      cases escapes
    | format known =>
      rw [notFormat] at known
      cases known
  · rw [loaded]
    exact missing

end Document

end ScriptPreprocessor
