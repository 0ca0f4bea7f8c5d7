import ScriptPreprocessor.Document.Escape
import ScriptPreprocessor.Proofs.Text.Lines

namespace ScriptPreprocessor

/-!
# Reading escaped sources

Escaped lines are read back: in front of whatever is no escaped line, the escaped lines of a text
give the text (`unescapeLines_escapeLines_append`).  No escaped line is a marker, so the block that
`escape` writes is the last one of its document, and `unescapeBlock` reads it
(`unescapeBlock_append_escape`).
-/

namespace Document

/-! ## Marker lines -/

/-- A line without its ending is a beginning of the line. -/
theorem withoutEnding_isPrefix (line : Text) : line.withoutEnding <+: line := by
  have front (text : Text) (ending : Text) : (text.beforeEnd? ending).getD text <+: text := by
    cases cut : text.beforeEnd? ending with
    | none => exact List.prefix_rfl
    | some body =>
      rw [Text.beforeEnd?_eq_some_iff.1 cut]
      exact List.prefix_append body ending
  unfold Text.withoutEnding
  exact (front _ _).trans (front _ _)

theorem isMarkerLine_of_differs {marker line : Text} (differs : ¬ marker <+: line) :
    isMarkerLine marker line = false := by
  unfold isMarkerLine
  rw [beq_eq_false_iff_ne]
  rintro rfl
  exact differs (withoutEnding_isPrefix line)

/-- Two texts of which neither begins with the other do not begin the same line. -/
theorem not_begins_of_begins {first second line : Text} (begins : first <+: line)
    (differs : ¬ first <+: second ∧ ¬ second <+: first) : ¬ second <+: line := by
  intro also
  rcases List.prefix_or_prefix_of_prefix begins also with one | other
  · exact differs.1 one
  · exact differs.2 other

theorem splitAtFirst?_append_of_some {marker : Text} {lines before after : List Text}
    (found : splitAtFirst? marker lines = some (before, after)) (more : List Text) :
    splitAtFirst? marker (lines ++ more) = some (before, after ++ more) := by
  induction lines generalizing before with
  | nil => cases found
  | cons line rest ih =>
    unfold splitAtFirst? at found
    rw [List.cons_append]
    unfold splitAtFirst?
    split at found
    · next isMarker =>
      cases found
      rw [if_pos isMarker]
    · next notMarker =>
      rcases Option.map_eq_some_iff.1 found with ⟨⟨front, back⟩, inner, shape⟩
      cases shape
      rw [if_neg notMarker, ih inner]
      rfl

theorem splitAtFirst?_eq_none {marker : Text} {lines : List Text}
    (unmarked : ∀ line ∈ lines, isMarkerLine marker line = false) :
    splitAtFirst? marker lines = none := by
  induction lines with
  | nil => rfl
  | cons line rest ih =>
    unfold splitAtFirst?
    rw [if_neg (by simp [unmarked line List.mem_cons_self]),
      ih fun other member => unmarked other (List.mem_cons_of_mem _ member)]
    rfl

theorem splitAtFirst?_append_of_none {marker : Text} {lines more : List Text}
    (found : splitAtFirst? marker lines = none)
    (unmarked : ∀ line ∈ more, isMarkerLine marker line = false) :
    splitAtFirst? marker (lines ++ more) = none := by
  induction lines with
  | nil => exact splitAtFirst?_eq_none unmarked
  | cons line rest ih =>
    unfold splitAtFirst? at found
    rw [List.cons_append]
    unfold splitAtFirst?
    split at found
    · cases found
    · next notMarker =>
      rw [if_neg notMarker, ih (Option.map_eq_none_iff.1 found)]
      rfl

theorem splitAtLast?_eq_none {marker : Text} {lines : List Text}
    (unmarked : ∀ line ∈ lines, isMarkerLine marker line = false) :
    splitAtLast? marker lines = none := by
  induction lines with
  | nil => rfl
  | cons line rest ih =>
    unfold splitAtLast?
    rw [ih fun other member => unmarked other (List.mem_cons_of_mem _ member)]
    simp [unmarked line List.mem_cons_self]

/-- The marker line behind which there is none is the last one. -/
theorem splitAtLast?_append {marker line : Text} {more : List Text}
    (isMarker : isMarkerLine marker line = true)
    (unmarked : ∀ other ∈ more, isMarkerLine marker other = false) (before : List Text) :
    splitAtLast? marker (before ++ line :: more) = some (before, more) := by
  induction before with
  | nil =>
    rw [List.nil_append]
    unfold splitAtLast?
    rw [splitAtLast?_eq_none unmarked]
    simp [isMarker]
  | cons first before ih =>
    rw [List.cons_append]
    unfold splitAtLast?
    rw [ih]

/-! ## Escaped lines -/

theorem isUnterminated_iff (text : Text) :
    isUnterminated text = true ↔ text ≠ [] ∧ text.getLast? ≠ some '\n' := by
  unfold isUnterminated
  rw [Bool.and_eq_true, Bool.not_eq_true', Bool.not_eq_true', Bool.eq_false_iff,
    Bool.eq_false_iff, ne_eq, ne_eq, Text.endsWith_newline_iff, List.isEmpty_iff]

theorem ended_escapeMark_append {line : Text} (ended : line.IsEndedLine) :
    (escapeMark ++ line).IsEndedLine :=
  ended.append_left (by decide)

theorem ended_map_escapeMark {lines : List Text} (ended : ∀ line ∈ lines, line.IsEndedLine) :
    ∀ line ∈ lines.map (escapeMark ++ ·), line.IsEndedLine := by
  intro line member
  rcases List.mem_map.1 member with ⟨body, inLines, rfl⟩
  exact ended_escapeMark_append (ended body inLines)

/-- The escaped lines of a text that does not end its last line are ended. -/
theorem ended_of_mem_unterminated {ended : List Text} {last line : Text}
    (allEnded : ∀ line ∈ ended, line.IsEndedLine) (unbroken : '\n' ∉ last)
    (member : line ∈ ended.map (escapeMark ++ ·) ++
      [escapeMark ++ (last ++ ['\n']), endOfTextMarker ++ ['\n']]) : line.IsEndedLine := by
  rcases List.mem_append.1 member with inMap | atEnd
  · exact ended_map_escapeMark allEnded line inMap
  · rcases List.mem_cons.1 atEnd with rfl | isFinal
    · exact ended_escapeMark_append ⟨last, unbroken, rfl⟩
    · rw [List.mem_singleton.1 isFinal]
      exact ⟨endOfTextMarker, by decide, rfl⟩

/-- The escaped form of a text consists of its lines behind escape marks, and of the end-of-text
line when the last of them was not ended. -/
theorem lines_escapeLines (text : Text) :
    ∃ ended : List Text, (∀ line ∈ ended, line.IsEndedLine) ∧
      (text = ended.flatten ∧ (escapeLines text).lines = ended.map (escapeMark ++ ·) ∨
        ∃ last : Text, '\n' ∉ last ∧ text = ended.flatten ++ last ∧
          (escapeLines text).lines = ended.map (escapeMark ++ ·) ++
            [escapeMark ++ (last ++ ['\n']), endOfTextMarker ++ ['\n']]) := by
  have whole := Text.flatten_lines text
  rcases Text.lines_eq_ended_append text with
    ⟨ended, allEnded, ⟨lines, ends⟩ | ⟨last, filled, unbroken, lines, unended⟩⟩
  · have terminated : isUnterminated text = false := by
      rw [Bool.eq_false_iff, ne_eq, isUnterminated_iff]
      exact fun both => ends.elim both.1 both.2
    rw [lines] at whole
    refine ⟨ended, allEnded, Or.inl ⟨whole.symm, ?_⟩⟩
    unfold escapeLines
    rw [terminated, lines, if_neg (by decide), List.append_nil]
    exact Text.lines_flatten (ended_map_escapeMark allEnded)
  · rw [lines, List.flatten_append, List.flatten_singleton] at whole
    have unterminated : isUnterminated text = true := by
      rw [isUnterminated_iff, ← whole]
      exact ⟨by simp [filled], whole.symm ▸ unended⟩
    refine ⟨ended, allEnded, Or.inr ⟨last, unbroken, whole.symm, ?_⟩⟩
    have shape : escapeLines text = (ended.map (escapeMark ++ ·) ++
        [escapeMark ++ (last ++ ['\n']), endOfTextMarker ++ ['\n']]).flatten := by
      unfold escapeLines
      rw [unterminated, lines]
      simp
    rw [shape]
    exact Text.lines_flatten fun line => ended_of_mem_unterminated allEnded unbroken

theorem ended_of_mem_escapeLines {text line : Text} (member : line ∈ (escapeLines text).lines) :
    line.IsEndedLine := by
  rcases lines_escapeLines text with ⟨ended, allEnded, ⟨_, shape⟩ | ⟨last, unbroken, _, shape⟩⟩
  · rw [shape] at member
    exact ended_map_escapeMark allEnded line member
  · rw [shape] at member
    exact ended_of_mem_unterminated allEnded unbroken member

/-- Every escaped line begins with the escape mark, or it is the end-of-text line. -/
theorem begins_of_mem_escapeLines {text line : Text} (member : line ∈ (escapeLines text).lines) :
    escapeMark <+: line ∨ line = endOfTextMarker ++ ['\n'] := by
  have marked {lines : List Text} (inMap : line ∈ lines.map (escapeMark ++ ·)) :
      escapeMark <+: line := by
    rcases List.mem_map.1 inMap with ⟨body, _, rfl⟩
    exact List.prefix_append escapeMark body
  rcases lines_escapeLines text with ⟨ended, _, ⟨_, shape⟩ | ⟨last, _, _, shape⟩⟩
  · rw [shape] at member
    exact Or.inl (marked member)
  · rw [shape] at member
    rcases List.mem_append.1 member with inMap | atEnd
    · exact Or.inl (marked inMap)
    · rcases List.mem_cons.1 atEnd with rfl | isFinal
      · exact Or.inl (List.prefix_append escapeMark _)
      · exact Or.inr (List.mem_singleton.1 isFinal)

theorem takeEscaped_cons (line : Text) (more : List Text) :
    takeEscaped ((escapeMark ++ line) :: more) =
      (line :: (takeEscaped more).1, (takeEscaped more).2) := by
  have notEnd : isMarkerLine endOfTextMarker (escapeMark ++ line) = false :=
    isMarkerLine_of_differs
      (not_begins_of_begins (List.prefix_append escapeMark line) (by decide))
  have source : unescapeLine? (escapeMark ++ line) = some line := by
    unfold unescapeLine?
    rw [Text.afterStart?_eq_some_iff.2 rfl]
  rw [takeEscaped, if_neg (by simp [notEnd]), source]

theorem takeEscaped_map (lines more : List Text) :
    takeEscaped (lines.map (escapeMark ++ ·) ++ more) =
      (lines ++ (takeEscaped more).1, (takeEscaped more).2) := by
  induction lines with
  | nil => rfl
  | cons line rest ih =>
    rw [List.map_cons, List.cons_append, takeEscaped_cons, ih]
    rfl

/-- The lines that reading takes are escaped lines, and an end-of-text line when one follows them.
Of the lines behind them it looks at the first one only. -/
theorem exists_escaped (lines : List Text) :
    ∃ (escaped : List Text) (ending : Option Text) (behind : List Text),
      (∀ line ∈ escaped, (unescapeLine? line).isSome = true) ∧
      (∀ line ∈ ending, isMarkerLine endOfTextMarker line = true) ∧
      lines = escaped ++ (ending.toList ++ behind) ∧
      ∀ more, more.head? = behind.head? →
        takeEscaped (escaped ++ (ending.toList ++ more)) =
          (escaped.filterMap unescapeLine?, ending.isSome, more) := by
  induction lines with
  | nil =>
    refine ⟨[], none, [], by simp, by simp, rfl, fun more same => ?_⟩
    have empty : more = [] := by simpa using same
    rw [empty]
    rfl
  | cons line rest ih =>
    by_cases isEnd : isMarkerLine endOfTextMarker line = true
    · refine ⟨[], some line, rest, by simp, by simpa using isEnd, rfl, fun more _ => ?_⟩
      show takeEscaped (line :: more) = ([], true, more)
      rw [takeEscaped, if_pos isEnd]
    · cases source : unescapeLine? line with
      | none =>
        refine ⟨[], none, line :: rest, by simp, by simp, rfl, fun more same => ?_⟩
        rcases List.head?_eq_some_iff.1 same with ⟨later, rfl⟩
        show takeEscaped (line :: later) = ([], false, line :: later)
        rw [takeEscaped, if_neg isEnd, source]
      | some text =>
        rcases ih with ⟨escaped, ending, behind, escapes, ends, shape, taken⟩
        refine ⟨line :: escaped, ending, behind, ?_, ends, by rw [shape, List.cons_append],
          fun more same => ?_⟩
        · intro other member
          rcases List.mem_cons.1 member with rfl | later
          · rw [source]
            rfl
          · exact escapes other later
        · rw [List.cons_append, takeEscaped, if_neg isEnd, source, taken more same,
            List.filterMap_cons_some source]

/-- Lines behind one that is no escaped line are left to the rest. -/
theorem takeEscaped_append {more : List Text} (stops : takeEscaped more = ([], false, more))
    (lines : List Text) :
    takeEscaped (lines ++ more) = ((takeEscaped lines).1, (takeEscaped lines).2.1,
      (takeEscaped lines).2.2 ++ more) := by
  induction lines with
  | nil => exact stops
  | cons line rest ih =>
    rw [List.cons_append, takeEscaped, takeEscaped]
    split
    · rfl
    · split
      · rfl
      · rw [ih]

theorem unescapeLines_append {more : List Text} (stops : takeEscaped more = ([], false, more))
    (lines : List Text) :
    unescapeLines (lines ++ more) =
      ((unescapeLines lines).1, (unescapeLines lines).2 ++ more.flatten) := by
  unfold unescapeLines
  rw [takeEscaped_append stops]
  simp

/-- The escaped lines of a text are read back, in front of whatever is no escaped line. -/
theorem unescapeLines_escapeLines_append {more : List Text}
    (stops : takeEscaped more = ([], false, more)) (text : Text) :
    unescapeLines ((escapeLines text).lines ++ more) = (text, more.flatten) := by
  unfold unescapeLines
  rcases lines_escapeLines text with ⟨ended, _, ⟨source, shape⟩ | ⟨last, _, source, shape⟩⟩
  · rw [shape, takeEscaped_map, stops, source]
    simp
  · have final : takeEscaped ((endOfTextMarker ++ ['\n']) :: more) = ([], true, more) := by
      rw [takeEscaped, if_pos (by decide)]
    have cut : withoutFinalNewline ((ended ++ [last ++ ['\n']]).flatten) = text := by
      rw [List.flatten_append, List.flatten_singleton, ← List.append_assoc, ← source]
      unfold withoutFinalNewline
      rw [Text.beforeEnd?_eq_some_iff.2 rfl]
      rfl
    rw [shape, List.append_assoc, takeEscaped_map, List.cons_append, List.cons_append,
      List.nil_append, takeEscaped_cons, final]
    exact congrArg (·, more.flatten) cut

/-- No escaped line is a marker that begins otherwise. -/
theorem isMarkerLine_of_mem_escapeLines {marker text line : Text}
    (differs : ¬ escapeMark <+: marker ∧ ¬ marker <+: escapeMark)
    (notEnd : ¬ marker <+: endOfTextMarker ++ ['\n'])
    (member : line ∈ (escapeLines text).lines) : isMarkerLine marker line = false := by
  apply isMarkerLine_of_differs
  rcases begins_of_mem_escapeLines member with begins | rfl
  · exact not_begins_of_begins begins differs
  · exact notEnd

/-! ## Blocks -/

theorem lines_escape (text : Text) :
    (escape text).lines = (escapedMarker ++ ['\n']) :: (escapeLines text).lines := by
  have marker : (escapedMarker ++ ['\n']).IsEndedLine := ⟨escapedMarker, by decide, rfl⟩
  have taken := Text.lines_append_of_ended marker (escapeLines text)
  rwa [List.append_assoc] at taken

/-- The block that `escape` writes is the last one of its document. -/
theorem splitAtLast?_append_escape {before : Text}
    (ends : before = [] ∨ before.getLast? = some '\n') (text : Text) :
    splitAtLast? escapedMarker (before ++ escape text).lines =
      some (before.lines, (escapeLines text).lines) := by
  rw [Text.lines_append_of_ends ends, lines_escape]
  apply splitAtLast?_append
  · decide
  · intro line member
    exact isMarkerLine_of_mem_escapeLines (by decide) (by decide) member

/-- What `escape` writes behind a text is read back, whatever the text holds. -/
theorem unescapeBlock_append_escape {before : Text}
    (ends : before = [] ∨ before.getLast? = some '\n') (text : Text) :
    unescapeBlock (before ++ escape text) = .ok text := by
  have stops : takeEscaped [] = ([], false, []) := rfl
  have read := unescapeLines_escapeLines_append stops text
  rw [List.append_nil] at read
  unfold unescapeBlock
  rw [splitAtLast?_append_escape ends]
  simp only [read]
  rfl

end Document

end ScriptPreprocessor
