import ScriptPreprocessor.Document.Form
import ScriptPreprocessor.Proofs.Document.Escaping
import ScriptPreprocessor.Proofs.Text.Search

namespace ScriptPreprocessor

/-!
# Stored include scripts

An include script is stored as its marker, its escaped lines, the footer and the placeholder state.
Each of these lines is ended, and none of them begins like the second line of a legacy block; so
whatever the script holds, its stored form is no legacy document and is read back as the script
(`load_encodeInclude`).  Storing a stored include script therefore changes nothing
(`saveInclude_encodeInclude`).
-/

namespace Document

variable {text : Text}

/-! ## The lines of a stored include script -/

/-- The lines behind the escaped lines of an include script. -/
def includeTail : List Text :=
  [includeFooter ++ ['\n'], ['\n'], placeholderState ++ ['\n']]

/-- The lines that an include script is stored as. -/
def includeLines (text : Text) : List Text :=
  (includeMarker ++ ['\n']) :: ((escapeLines text).lines ++ includeTail)

theorem encodeInclude_eq_flatten (filled : text ≠ []) :
    encodeInclude text = (includeLines text).flatten := by
  unfold encodeInclude
  rw [if_neg (by simpa using filled), includeLines, List.flatten_cons, List.flatten_append,
    Text.flatten_lines]
  simp [includeTail]

theorem ended_of_mem_includeLines {line : Text} (member : line ∈ includeLines text) :
    line.IsEndedLine := by
  rcases List.mem_cons.1 member with rfl | behind
  · exact ⟨includeMarker, by decide, rfl⟩
  · rcases List.mem_append.1 behind with escaped | inTail
    · exact ended_of_mem_escapeLines escaped
    · have tail : ∀ body ∈ [includeFooter, [], placeholderState], '\n' ∉ body := by decide
      have shape : includeTail = [includeFooter, [], placeholderState].map (· ++ ['\n']) := rfl
      rw [shape] at inTail
      rcases List.mem_map.1 inTail with ⟨body, known, rfl⟩
      exact ⟨body, tail body known, rfl⟩

theorem lines_encodeInclude (filled : text ≠ []) :
    (encodeInclude text).lines = includeLines text := by
  rw [encodeInclude_eq_flatten filled]
  exact Text.lines_flatten fun line => ended_of_mem_includeLines

/-! ## Reading it back -/

section

variable {document : Text} (notLegacy : isLegacy document = false)
  (decoded : decodeInclude document = .ok text)

include notLegacy decoded

theorem classify_of_decodeInclude : classify document = .inclusion := by
  unfold classify isInclude
  rw [notLegacy, decoded]
  rfl

theorem load_of_decodeInclude : load document = ⟨text, .inclusion, none⟩ := by
  unfold load
  rw [classify_of_decodeInclude notLegacy decoded, decoded]

end

theorem decodeInclude_encodeInclude (filled : text ≠ []) :
    decodeInclude (encodeInclude text) = .ok text := by
  have marked : splitAtFirst? includeMarker (includeLines text) =
      some ([], (escapeLines text).lines ++ includeTail) := by
    unfold includeLines splitAtFirst?
    rw [if_pos (by decide)]
  have stops : takeEscaped includeTail = ([], false, includeTail) := rfl
  have footer : beginsWithFooter includeTail.flatten = true := by decide +kernel
  unfold decodeInclude
  rw [lines_encodeInclude filled, marked]
  simp [unescapeLines_escapeLines_append stops, footer, filled]

/-- The second line of a legacy block begins no line of a stored include script. -/
theorem isLegacy_encodeInclude (filled : text ≠ []) : isLegacy (encodeInclude text) = false := by
  have noLine : ∀ line ∈ includeLines text, ¬ "/*".toList <+: line := by
    intro line member
    rcases List.mem_cons.1 member with rfl | behind
    · decide
    · rcases List.mem_append.1 behind with escaped | inTail
      · rcases begins_of_mem_escapeLines escaped with marked | rfl
        · exact not_begins_of_begins marked (by decide)
        · decide
      · exact (by decide : ∀ line ∈ includeTail, ¬ "/*".toList <+: line) line inTail
  rw [isLegacy, Bool.eq_false_iff, ne_eq, Text.contains_iff_occurs,
    encodeInclude_eq_flatten filled]
  intro occurs
  rcases Text.exists_consecutive_of_infix (fun line => ended_of_mem_includeLines)
    (by decide : '\n' ∉ "//start_unprocessed_text".toList) (by decide) (by decide) occurs with
    ⟨before, after, line, next, shape, _, begins⟩
  exact noLine next (by simp [shape]) begins

theorem classify_encodeInclude (filled : text ≠ []) :
    classify (encodeInclude text) = .inclusion :=
  classify_of_decodeInclude (isLegacy_encodeInclude filled) (decodeInclude_encodeInclude filled)

theorem load_encodeInclude (filled : text ≠ []) :
    load (encodeInclude text) = ⟨text, .inclusion, none⟩ :=
  load_of_decodeInclude (isLegacy_encodeInclude filled) (decodeInclude_encodeInclude filled)

theorem includeSource_encodeInclude (filled : text ≠ []) :
    includeSource (encodeInclude text) = text := by
  unfold includeSource
  rw [classify_encodeInclude filled, decodeInclude_encodeInclude filled]

/-! ## Storing again -/

theorem saveInclude_encodeInclude (text : Text) :
    saveInclude (encodeInclude text) = encodeInclude text := by
  by_cases filled : text = []
  · subst filled
    rfl
  · unfold saveInclude
    rw [decodeInclude_encodeInclude filled]

/-- What a script is stored as is always the stored form of some text. -/
theorem exists_saveInclude_eq (script : Text) :
    ∃ text, saveInclude script = encodeInclude text := by
  unfold saveInclude
  split
  · next source _ => exact ⟨source, rfl⟩
  · exact ⟨script, rfl⟩

/-- Every text that is not empty is stored as an include script, and it is read back and spliced as
it is, whatever it holds.  An include script that is stored already is stored as it is. -/
theorem encodeInclude_read_back :
    (∀ text : Text, text ≠ [] →
      decodeInclude (encodeInclude text) = .ok text ∧
        classify (encodeInclude text) = .inclusion ∧
        load (encodeInclude text) = ⟨text, .inclusion, none⟩ ∧
        includeSource (encodeInclude text) = text) ∧
    ∀ script : Text, saveInclude (saveInclude script) = saveInclude script := by
  constructor
  · intro text filled
    exact ⟨decodeInclude_encodeInclude filled, classify_encodeInclude filled,
      load_encodeInclude filled, includeSource_encodeInclude filled⟩
  · intro script
    rcases exists_saveInclude_eq script with ⟨text, stored⟩
    rw [stored, saveInclude_encodeInclude]

/-- The text holds the lines of the format and a legacy block, and it does not end its last line. -/
theorem encodeInclude_read_back_legacy :
    ∃ text : Text,
      text = includeMarker ++ "\n//start_unprocessed_text\n/*x\n//*$\n".toList ++ includeFooter ++
        "\r\n//* y".toList ∧
      text ≠ [] ∧ decodeInclude (encodeInclude text) = .ok text ∧
      classify (encodeInclude text) = .inclusion ∧
      load (encodeInclude text) = ⟨text, .inclusion, none⟩ ∧
      includeSource (encodeInclude text) = text ∧
      saveInclude (saveInclude text) = saveInclude text := by
  let text : Text :=
    includeMarker ++ "\n//start_unprocessed_text\n/*x\n//*$\n".toList ++ includeFooter ++
      "\r\n//* y".toList
  have filled : text ≠ [] := by decide
  rcases encodeInclude_read_back.1 text filled with ⟨decoded, form, loaded, spliced⟩
  exact ⟨text, rfl, filled, decoded, form, loaded, spliced, encodeInclude_read_back.2 text⟩

end Document

end ScriptPreprocessor
