import Mathlib.Data.List.TakeWhile
import ScriptPreprocessor.Document.Form
import ScriptPreprocessor.Proofs.Document.Escaping
import ScriptPreprocessor.Proofs.Text.Search

namespace ScriptPreprocessor

/-!
# Loading what was saved

A saved script is its compiled text, an empty line, and the escaped source.  The escaped part can
always be read back, but loading looks at the whole document first: a legacy block or an include
block that stands in the compiled text is read instead of it.  So the source comes back exactly
when there is no such block, or when the block happens to hold the source
(`text_load_save_iff`).

A block counts only when it is closed within the compiled text.  A legacy block that is left open
runs to the end of the document, and what is read then has more lines than the source; an include
block that is left open runs into the empty line in front of the escaped source, and cannot be read.
-/

namespace Document

/-- The text in the legacy block of a text, when the block is closed. -/
def closedLegacy? (text : Text) : Option Text := do
  let (_, body) ← text.splitFirst? legacyStart
  let (inside, _) ← body.splitFirst? legacyEnd
  modernize (endLastLine inside)

/-- The text in the include block of a text, when the block is closed. -/
def closedInclude? (text : Text) : Option Text := do
  let (_, after) ← splitAtFirst? includeMarker text.lines
  let (inside, rest) := unescapeLines after
  if beginsWithFooter rest && !inside.isEmpty then some inside else none

variable {compiled source : Text} (ends : compiled = [] ∨ compiled.getLast? = some '\n')

/-- The lines behind the compiled text. -/
def escapedPart (source : Text) : Text :=
  '\n' :: escape source

theorem lines_escapedPart (source : Text) :
    (escapedPart source).lines =
      ['\n'] :: (escapedMarker ++ ['\n']) :: (escapeLines source).lines := by
  unfold escapedPart
  rw [Text.lines_newline, lines_escape]

/-- A text that neither the marker nor an escaped line begins with begins no line of the escaped
part. -/
theorem not_begins_of_mem_escapedPart {line begins : Text}
    (member : line ∈ (escapedPart source).lines) (notFeed : ¬ begins <+: ['\n'])
    (notMarker : ¬ begins <+: escapedMarker ++ ['\n'])
    (differs : ¬ escapeMark <+: begins ∧ ¬ begins <+: escapeMark)
    (notEnd : ¬ begins <+: endOfTextMarker ++ ['\n']) : ¬ begins <+: line := by
  rw [lines_escapedPart] at member
  rcases List.mem_cons.1 member with rfl | behind
  · exact notFeed
  · rcases List.mem_cons.1 behind with rfl | escaped
    · exact notMarker
    · rcases begins_of_mem_escapeLines escaped with marked | rfl
      · exact not_begins_of_begins marked differs
      · exact notEnd

theorem ended_of_mem_escapedPart {line : Text} (member : line ∈ (escapedPart source).lines) :
    line.IsEndedLine := by
  rw [lines_escapedPart] at member
  rcases List.mem_cons.1 member with rfl | behind
  · exact ⟨[], by simp, rfl⟩
  · rcases List.mem_cons.1 behind with rfl | escaped
    · exact ⟨escapedMarker, by decide, rfl⟩
    · exact ended_of_mem_escapeLines escaped

include ends

/-- A text over the end of a line, that begins no line of the escaped part, stands in the compiled
text. -/
theorem infix_append_escapedPart_iff (front back : Text) (inFront : '\n' ∉ front)
    (inBack : '\n' ∉ back) (filled : back ≠ [])
    (differs : ∀ line ∈ (escapedPart source).lines, ¬ back <+: line) :
    front ++ '\n' :: back <:+: compiled ++ escapedPart source ↔
      front ++ '\n' :: back <:+: compiled := by
  constructor
  · intro occurs
    have lines := Text.flatten_lines compiled
    rw [← lines]
    apply Text.infix_of_append ?_ inFront inBack filled differs
    · rw [List.flatten_append, lines, Text.flatten_lines]
      exact occurs
    · intro line member
      rcases List.mem_append.1 member with inCompiled | behind
      · exact Text.ended_of_mem_lines ends inCompiled
      · exact ended_of_mem_escapedPart behind
  · exact fun occurs => List.infix_append_of_infix_left occurs

/-! ## Legacy blocks -/

theorem isLegacy_append_escapedPart :
    isLegacy (compiled ++ escapedPart source) = isLegacy compiled := by
  have same := infix_append_escapedPart_iff ends "//start_unprocessed_text".toList "/*".toList
    (by decide) (by decide) (by decide)
    fun line (member : line ∈ (escapedPart source).lines) =>
      not_begins_of_mem_escapedPart member (by decide) (by decide) (by decide) (by decide)
  unfold isLegacy
  rw [Bool.eq_iff_iff, Text.contains_iff_occurs, Text.contains_iff_occurs]
  exact same

/-- A legacy block that is left open in the compiled text is not closed behind it. -/
theorem splitFirst?_legacyEnd_append (unclosed : compiled.splitFirst? legacyEnd = none) :
    (compiled ++ escapedPart source).splitFirst? legacyEnd = none := by
  have same := infix_append_escapedPart_iff ends "*/".toList "//end_unprocessed_text".toList
    (by decide) (by decide) (by decide)
    fun line (member : line ∈ (escapedPart source).lines) =>
      not_begins_of_mem_escapedPart member (by decide) (by decide) (by decide) (by decide)
  rw [Text.splitFirst?_eq_none_iff] at unclosed ⊢
  exact fun occurs => unclosed (same.1 occurs)

omit ends

/-- A character that stands equally often in every legacy spelling and in its replacement keeps its
number. -/
theorem count_modernize {character : Char}
    (kept : ∀ spelling ∈ legacySpellings, spelling.1.count character = spelling.2.count character)
    (text : Text) : (modernize text).count character = text.count character := by
  have filled : ∀ spelling ∈ legacySpellings, spelling.1 ≠ [] := by decide
  unfold modernize
  generalize legacySpellings = spellings at kept filled ⊢
  induction spellings generalizing text with
  | nil => rfl
  | cons spelling more ih =>
    rw [List.foldl_cons, ih _ (fun other member => kept other (List.mem_cons_of_mem _ member))
      (fun other member => filled other (List.mem_cons_of_mem _ member))]
    exact Text.count_replaceAll (filled spelling List.mem_cons_self)
      (kept spelling List.mem_cons_self) text

theorem count_le_count_endLastLine (text : Text) :
    text.count '\n' ≤ (endLastLine text).count '\n' := by
  unfold endLastLine
  split
  · exact le_rfl
  · rw [List.count_append]
    exact Nat.le_add_right _ _

theorem count_flatten_escaped (lines : List Text) :
    (lines.map (escapeMark ++ ·)).flatten.count '\n' = lines.flatten.count '\n' := by
  have inMark : escapeMark.count '\n' = 0 := by decide
  induction lines with
  | nil => rfl
  | cons line rest ih =>
    rw [List.map_cons, List.flatten_cons, List.flatten_cons, List.count_append, List.count_append,
      List.count_append, ih, inMark, Nat.zero_add]

/-- The escaped part has more lines than the source. -/
theorem count_lt_count_escapedPart (source : Text) :
    source.count '\n' < (escapedPart source).count '\n' := by
  have escaped : source.count '\n' ≤ (escapeLines source).count '\n' := by
    unfold escapeLines
    rw [List.count_append, count_flatten_escaped, Text.flatten_lines]
    exact Nat.le_add_right _ _
  unfold escapedPart escape
  rw [List.count_cons_self, List.count_append, List.count_cons_self]
  omega

include ends

/-- A legacy block holds the source exactly when it is closed within the compiled text and holds
the source there. -/
theorem convertLegacy_append_escapedPart_iff (legacy : isLegacy compiled = true) :
    convertLegacy (compiled ++ escapedPart source) = source ↔
      closedLegacy? compiled = some source := by
  rcases Option.isSome_iff_exists.1 legacy with ⟨⟨before, body⟩, opened⟩
  have bodyEnds : body = [] ∨ body.getLast? = some '\n' := by
    by_cases filled : body = []
    · exact Or.inl filled
    · right
      rw [Text.eq_of_splitFirst? opened] at ends
      rw [← List.getLast?_append_of_ne_nil (before ++ legacyStart) filled]
      exact ends.resolve_left (by simp [filled])
  unfold convertLegacy closedLegacy?
  rw [Text.splitFirst?_append opened, opened]
  cases closed : body.splitFirst? legacyEnd with
  | some pair =>
    rcases pair with ⟨inside, after⟩
    simp [Text.splitFirst?_append closed, closed]
  | none =>
    simp only [splitFirst?_legacyEnd_append bodyEnds closed, Option.bind_eq_bind, Option.bind_some,
      closed, Option.bind_none, reduceCtorEq, iff_false]
    intro same
    -- The rest of the document is read, and it has more lines than the source.
    have lines := congrArg (List.count '\n') same
    rw [count_modernize (by decide)] at lines
    have longer := count_le_count_endLastLine (body ++ escapedPart source)
    have escaped := count_lt_count_escapedPart source
    rw [List.count_append] at longer
    omega

/-! ## Include blocks -/

omit ends

theorem trim_isEmpty_of_mem {text : Text} {character : Char} (member : character ∈ text)
    (visible : isBlank character = false) : text.trim.isEmpty = false := by
  rw [Bool.eq_false_iff, ne_eq, List.isEmpty_iff, Text.trim_eq_nil_iff]
  intro blanks
  rw [blanks character member] at visible
  cases visible

theorem beginsWithFooter_append (rest more : Text) :
    beginsWithFooter (rest ++ '\n' :: more) = beginsWithFooter rest := by
  have line : (rest ++ '\n' :: more).takeWhile (· != '\n') = rest.takeWhile (· != '\n') := by
    induction rest with
    | nil => rfl
    | cons character rest ih =>
      rw [List.cons_append, List.takeWhile_cons, List.takeWhile_cons, ih]
  unfold beginsWithFooter
  rw [line]

include ends

/-- A compiled text with its escaped part is read as an include script exactly when an include
block is closed within the compiled text. -/
theorem decodeInclude_append_escapedPart (text : Text) :
    decodeInclude (compiled ++ escapedPart source) = .ok text ↔
      closedInclude? compiled = some text := by
  have unmarked : ∀ line ∈ (escapedPart source).lines, isMarkerLine includeMarker line = false :=
    fun line member => isMarkerLine_of_differs
      (not_begins_of_mem_escapedPart member (by decide) (by decide) (by decide) (by decide))
  have stops :
      takeEscaped (escapedPart source).lines = ([], false, (escapedPart source).lines) := by
    rw [lines_escapedPart]
    rfl
  unfold decodeInclude closedInclude?
  rw [Text.lines_append_of_ends ends]
  cases found : splitAtFirst? includeMarker compiled.lines with
  | none =>
    rw [splitAtFirst?_append_of_none found unmarked]
    simp
  | some pair =>
    rcases pair with ⟨before, after⟩
    rw [splitAtFirst?_append_of_some found]
    simp only [unescapeLines_append stops, Text.flatten_lines, Option.bind_eq_bind,
      Option.bind_some]
    rcases unescapeLines after with ⟨inside, rest⟩
    -- What follows the block is never blank, so the block must end with the footer.
    have visible : '/' ∈ rest ++ escapedPart source :=
      List.mem_append_right _ (List.mem_cons_of_mem _ (List.mem_append_left _ (by decide)))
    have footer : beginsWithFooter (rest ++ escapedPart source) = beginsWithFooter rest :=
      beginsWithFooter_append rest (escape source)
    simp only [trim_isEmpty_of_mem visible (by decide), footer]
    cases beginsWithFooter rest <;> cases inside <;> simp

theorem isInclude_append_escapedPart :
    isInclude (compiled ++ escapedPart source) = (closedInclude? compiled).isSome := by
  unfold isInclude
  cases decoded : decodeInclude (compiled ++ escapedPart source) with
  | ok text => rw [(decodeInclude_append_escapedPart ends text).1 decoded, Option.isSome_some]
  | error damage =>
    cases found : closedInclude? compiled with
    | none => rfl
    | some text =>
      rw [(decodeInclude_append_escapedPart ends text).2 found] at decoded
      cases decoded

/-! ## Whole documents -/

omit ends

/-- Whether loading reads the source behind a compiled text, or the same text in its place. -/
def LeavesSource (compiled source : Text) : Prop :=
  if isLegacy compiled then closedLegacy? compiled = some source
  else ∀ text ∈ closedInclude? compiled, text = source

instance (compiled source : Text) : Decidable (LeavesSource compiled source) :=
  inferInstanceAs (Decidable (if isLegacy compiled then closedLegacy? compiled = some source
    else ∀ text ∈ closedInclude? compiled, text = source))

theorem unescapeBlock_append_escapedPart (compiled source : Text) :
    unescapeBlock (compiled ++ escapedPart source) = .ok source := by
  have feed : compiled ++ ['\n'] = [] ∨ (compiled ++ ['\n']).getLast? = some '\n' :=
    Or.inr (by simp)
  have read := unescapeBlock_append_escape feed source
  rwa [List.append_assoc, List.singleton_append] at read

include ends

theorem hasMarker_append_escapedPart :
    hasMarker escapedMarker (compiled ++ escapedPart source) = true := by
  unfold hasMarker
  rw [Text.lines_append_of_ends ends, lines_escapedPart, List.any_eq_true]
  refine ⟨escapedMarker ++ ['\n'], ?_, by decide⟩
  exact List.mem_append_right _ (List.mem_cons_of_mem _ List.mem_cons_self)

/-- A source is loaded from behind a compiled text exactly when the compiled text leaves it. -/
theorem text_load_append_escapedPart_iff (filled : source ≠ []) :
    (load (compiled ++ escapedPart source)).text = source ↔ LeavesSource compiled source := by
  unfold LeavesSource load classify
  rw [isLegacy_append_escapedPart ends, isInclude_append_escapedPart ends,
    hasMarker_append_escapedPart ends]
  by_cases legacy : isLegacy compiled = true
  · rw [if_pos legacy, if_pos legacy]
    exact convertLegacy_append_escapedPart_iff ends legacy
  · rw [if_neg legacy, if_neg legacy]
    cases found : closedInclude? compiled with
    | some text =>
      simp only [(decodeInclude_append_escapedPart ends text).2 found]
      simp
    | none =>
      simp only [unescapeBlock_append_escapedPart]
      simp [filled]

omit ends

/-- Without an opened legacy block and without an include marker, a compiled text leaves every
source. -/
theorem leavesSource_of_absent (noLegacy : ¬ legacyStart <:+: compiled)
    (noInclude : ∀ line ∈ compiled.lines, isMarkerLine includeMarker line = false)
    (source : Text) : LeavesSource compiled source := by
  have notLegacy : isLegacy compiled = false := by
    rw [Bool.eq_false_iff]
    exact fun legacy => noLegacy (Text.contains_iff_occurs.1 legacy)
  unfold LeavesSource closedInclude?
  rw [notLegacy, splitAtFirst?_eq_none noInclude]
  simp

/-- A source is loaded from what is saved exactly when it is empty or the compiled text leaves
it. -/
theorem text_load_save_iff (script expanded : Text) :
    (load (save script expanded)).text = (load script).text ↔
      (load script).text = [] ∨
        LeavesSource (stripBlock expanded).withFinalNewline (load script).text := by
  unfold save
  generalize (load script).text = source
  by_cases empty : source = []
  · subst empty
    exact iff_of_true rfl (Or.inl rfl)
  · simp only [List.isEmpty_iff, empty, if_false, false_or]
    exact text_load_append_escapedPart_iff (Text.withFinalNewline_ends _) empty

end Document

end ScriptPreprocessor
