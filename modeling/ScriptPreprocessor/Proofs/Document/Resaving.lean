import ScriptPreprocessor.Proofs.Document.Loading

namespace ScriptPreprocessor

/-!
# Saving what was loaded

Saving reduces a script to the text it stores.  What is loaded from a saved script is that text,
and saving it again reduces it once more.  Reducing makes every stored document shorter and leaves
only plain texts alone (`text_load_eq_iff`).  So a script is saved again as it was exactly when
the text it stores is not a stored document itself (`save_loaded_eq_iff`); a document that is
stored in a document comes one level closer with every save (`exists_save_loaded_ne`).
-/

namespace Document

/-! ## Loading makes stored documents shorter -/

/-- The slashes of the markers are not read. -/
theorem count_convertLegacy_lt {document : Text} (legacy : isLegacy document = true) :
    (convertLegacy document).count '/' < document.count '/' := by
  rcases Option.isSome_iff_exists.1 legacy with ⟨⟨before, body⟩, opened⟩
  have whole := congrArg (List.count '/') (Text.eq_of_splitFirst? opened)
  have inStart : legacyStart.count '/' = 3 := by decide
  rw [List.count_append, List.count_append, inStart] at whole
  have endLine : ∀ text : Text, (endLastLine text).count '/' = text.count '/' := by
    intro text
    unfold endLastLine
    split <;> simp
  unfold convertLegacy
  rw [opened]
  simp only
  rw [count_modernize (by decide), endLine]
  split
  · next inside after closed =>
    have shape := congrArg (List.count '/') (Text.eq_of_splitFirst? closed)
    rw [List.count_append, List.count_append] at shape
    omega
  · omega

theorem length_lt_of_unescapeLine? {line source : Text}
    (unescaped : unescapeLine? line = some source) : source.length < line.length := by
  unfold unescapeLine? at unescaped
  split at unescaped
  · next escaped =>
    cases unescaped
    rw [Text.afterStart?_eq_some_iff.1 escaped, List.length_append]
    exact Nat.lt_add_of_pos_left (by decide)
  · split at unescaped
    · next isMark =>
      cases unescaped
      have filled : line ≠ [] := by
        rintro rfl
        cases isMark
      rw [List.length_drop]
      exact Nat.sub_lt (List.length_pos_iff.2 filled) (by decide)
    · cases unescaped

theorem length_filterMap_unescapeLine?_le (lines : List Text) :
    (lines.filterMap unescapeLine?).flatten.length ≤ lines.flatten.length := by
  induction lines with
  | nil => exact le_rfl
  | cons line rest ih =>
    rw [List.flatten_cons, List.length_append]
    cases unescaped : unescapeLine? line with
    | none =>
      rw [List.filterMap_cons_none unescaped]
      exact ih.trans (Nat.le_add_left _ _)
    | some source =>
      have shorter := length_lt_of_unescapeLine? unescaped
      rw [List.filterMap_cons_some unescaped, List.flatten_cons, List.length_append]
      omega

theorem length_withoutFinalNewline_le (text : Text) :
    (withoutFinalNewline text).length ≤ text.length := by
  unfold withoutFinalNewline
  cases cut : text.beforeEnd? ['\n'] with
  | none => exact le_rfl
  | some body =>
    rw [Text.beforeEnd?_eq_some_iff.1 cut, Option.getD_some, List.length_append]
    exact Nat.le_add_right _ _

/-- What the escaped lines of a document stand for is shorter than the document. -/
theorem Layout.length_text_lt {document : Text} (layout : Layout document) :
    layout.text.length < document.length := by
  have inDocument : layout.marker ∈ document.lines := by simp [layout.lines_eq]
  have marker : layout.marker ≠ [] := (Text.isOneLine_of_mem_lines inDocument).1
  have filled := List.length_pos_iff.2 marker
  have sources := length_filterMap_unescapeLine?_le layout.escaped
  have text : layout.text.length ≤ (layout.escaped.filterMap unescapeLine?).flatten.length := by
    unfold Layout.text
    simp only
    split
    · exact length_withoutFinalNewline_le _
    · exact le_rfl
  have whole := congrArg (fun lines : List Text => lines.flatten.length) layout.lines_eq
  simp only [Text.flatten_lines, List.flatten_append, List.flatten_cons, List.length_append]
    at whole
  omega

/-- A document is loaded as itself exactly when it is plain. -/
theorem text_load_eq_iff {document : Text} :
    (load document).text = document ↔ (load document).form = .plain := by
  cases reading document with
  | plain same => simp [same, plain]
  | legacy legacy same =>
    refine iff_of_false (fun whole => ?_) (by simp [same])
    have unread : convertLegacy document = document := by rwa [same] at whole
    exact absurd (count_convertLegacy_lt legacy) (by rw [unread]; exact Nat.lt_irrefl _)
  | inclusion _ _ same =>
    rcases exists_layout_of_inclusion (by rw [same]) with ⟨layout, text, _⟩
    refine iff_of_false (fun whole => ?_) (by simp [same])
    exact absurd layout.length_text_lt (by rw [← text, whole]; exact Nat.lt_irrefl _)
  | preprocessed _ _ same =>
    rcases exists_layout_of_preprocessed (by rw [same]) with ⟨layout, text, _⟩
    refine iff_of_false (fun whole => ?_) (by simp [same])
    exact absurd layout.length_text_lt (by rw [← text, whole]; exact Nat.lt_irrefl _)

/-! ## What stands in front of a block -/

/-- The text in front of the last marker line, or the document when it has none. -/
def beforeBlock (document : Text) : Text :=
  match splitAtLast? escapedMarker document.lines with
  | none => document
  | some (before, _) => before.flatten

/-- Stripping takes at most an empty line from the text in front of a block. -/
theorem beforeBlock_eq (document : Text) :
    ∃ gap, (gap = [] ∨ gap = ['\n'] ∧
        (stripBlock document = [] ∨ (stripBlock document).getLast? = some '\n')) ∧
      beforeBlock document = stripBlock document ++ gap := by
  unfold beforeBlock
  cases split : splitAtLast? escapedMarker document.lines with
  | none => exact ⟨[], Or.inl rfl, by rw [stripBlock_of_none split, List.append_nil]⟩
  | some pair => exact stripBlock_of_split split

section

variable {document : Text}

theorem not_infix_of_beforeBlock (absent : ¬ legacyStart <:+: beforeBlock document) :
    ¬ legacyStart <:+: (stripBlock document).withFinalNewline := by
  intro occurs
  have inStripped : legacyStart <:+: stripBlock document := by
    unfold Text.withFinalNewline at occurs
    split at occurs
    · exact occurs
    · -- The marker does not end in a line feed.
      rcases List.infix_concat_iff.1 occurs with atEnd | inside
      · rcases atEnd with ⟨front, whole⟩
        have last := congrArg List.getLast? whole
        rw [List.getLast?_concat, List.getLast?_append_of_ne_nil _ (by decide)] at last
        exact absurd last (by decide)
      · exact inside
  rcases beforeBlock_eq document with ⟨gap, _, whole⟩
  rw [whole] at absent
  exact absent (inStripped.trans (List.infix_append_left ..))

theorem mem_lines_of_stripBlock {line : Text} (member : line ∈ (stripBlock document).lines) :
    line ∈ (beforeBlock document).lines := by
  rcases beforeBlock_eq document with ⟨gap, rfl | ⟨_, ends⟩, whole⟩
  · rw [whole, List.append_nil]
    exact member
  · rw [whole, Text.lines_append_of_ends ends]
    exact List.mem_append_left _ member

theorem withoutEnding_ne_of_beforeBlock {marker : Text}
    (absent : ∀ line ∈ (beforeBlock document).lines, line.withoutEnding ≠ marker) :
    ∀ line ∈ (stripBlock document).withFinalNewline.lines, line.withoutEnding ≠ marker := by
  intro line member
  rcases Text.lines_withFinalNewline (stripBlock document) with
    same | ⟨ended, last, unbroken, lines, completed⟩
  · rw [same] at member
    exact absent line (mem_lines_of_stripBlock member)
  · rw [completed] at member
    rcases List.mem_append.1 member with earlier | final
    · exact absent line (mem_lines_of_stripBlock (by simp [lines, earlier]))
    · rw [List.mem_singleton.1 final, Text.withoutEnding_newline unbroken]
      exact absent last (mem_lines_of_stripBlock (by simp [lines]))

end

/-! ## Saving again -/

theorem escapedPart_injective : Function.Injective escapedPart := by
  intro source other same
  have read := unescapeBlock_append_escapedPart [] source
  rw [same, unescapeBlock_append_escapedPart [] other] at read
  exact (Except.ok.inj read).symm

/-- A text is saved like another one exactly when it is reduced to the same text. -/
theorem save_eq_save_iff {script other expanded : Text} :
    save script expanded = save other expanded ↔ (load script).text = (load other).text := by
  constructor
  · intro same
    have stores : ∀ text, (load text).text ≠ [] → save text expanded ≠ [] := by
      intro text filled
      rw [save_of_filled filled]
      simp [escapedPart]
    have nothing : ∀ text, (load text).text = [] → save text expanded = [] := by
      intro text empty
      unfold save
      simp [empty]
    by_cases empty : (load script).text = []
    · by_contra differs
      have filled : (load other).text ≠ [] := fun also => differs (empty.trans also.symm)
      exact stores other filled (same.symm.trans (nothing script empty))
    · have filled : (load other).text ≠ [] :=
        fun also => stores script empty (same.trans (nothing other also))
      rw [save_of_filled empty, save_of_filled filled] at same
      exact escapedPart_injective (List.append_cancel_left same)
  · intro same
    unfold save
    rw [same]

section

variable {expanded : Text} (noLegacy : ¬ legacyStart <:+: beforeBlock expanded)
  (noInclude : ∀ line ∈ (beforeBlock expanded).lines, line.withoutEnding ≠ includeMarker)

include noLegacy noInclude

/-- What is saved over a text without a block of another kind is loaded as the text it stores. -/
theorem text_load_save (script : Text) :
    (load (save script expanded)).text = (load script).text := by
  by_cases empty : (load script).text = []
  · have nothing : save script expanded = [] := by
      unfold save
      simp [empty]
    rw [nothing, empty]
    rfl
  · rw [save_of_filled empty, load_append_escapedPart (Text.withFinalNewline_ends _)
      (not_infix_of_beforeBlock noLegacy) (withoutEnding_ne_of_beforeBlock noInclude) empty]

end

/-- What was saved and loaded is saved again as it was exactly when the text of the script is not
a stored document itself. -/
theorem save_loaded_eq_iff (script expanded : Text)
    (noLegacy : ¬ legacyStart <:+: beforeBlock expanded)
    (noInclude : ∀ line ∈ (beforeBlock expanded).lines, line.withoutEnding ≠ includeMarker) :
    save (load (save script expanded)).text expanded = save script expanded ↔
      (load (load script).text).form = .plain := by
  rw [text_load_save noLegacy noInclude, save_eq_save_iff, text_load_eq_iff]

/-- The script is a legacy document whose text looks like an escaped line, and an older block
stands in the expanded text. -/
theorem save_loaded_eq_legacy :
    ∃ script expanded : Text,
      script = "k;\n//start_unprocessed_text\n/*//* a;\n*/\n//end_unprocessed_text\n".toList ∧
      expanded = "x;\n\n".toList ++ escapedMarker ++ "\n//* old\n".toList ∧
      (¬ legacyStart <:+: beforeBlock expanded) ∧
      (∀ line ∈ (beforeBlock expanded).lines, line.withoutEnding ≠ includeMarker) ∧
      (load script).form = .legacy ∧ (load (load script).text).form = .plain ∧
      save (load (save script expanded)).text expanded = save script expanded := by
  let script : Text :=
    "k;\n//start_unprocessed_text\n/*//* a;\n*/\n//end_unprocessed_text\n".toList
  let expanded : Text := "x;\n\n".toList ++ escapedMarker ++ "\n//* old\n".toList
  have facts : (¬ legacyStart <:+: beforeBlock expanded) ∧
      (∀ line ∈ (beforeBlock expanded).lines, line.withoutEnding ≠ includeMarker) ∧
      (load script).form = .legacy ∧ (load (load script).text).form = .plain := by
    decide +kernel
  rcases facts with ⟨noLegacy, noInclude, legacy, stores⟩
  exact ⟨script, expanded, rfl, rfl, noLegacy, noInclude, legacy, stores,
    (save_loaded_eq_iff script expanded noLegacy noInclude).2 stores⟩

/-- A compiled script is the text of an include script, and saving it again unpacks it once
more. -/
theorem exists_save_loaded_ne :
    ∃ script expanded : Text,
      script = encodeInclude ("a;\n\n".toList ++ escapedMarker ++ "\n//* a;\n".toList) ∧
      expanded = "a;\n".toList ∧
      (¬ legacyStart <:+: beforeBlock expanded) ∧
      (∀ line ∈ (beforeBlock expanded).lines, line.withoutEnding ≠ includeMarker) ∧
      save (load (save script expanded)).text expanded ≠ save script expanded := by
  let script : Text := encodeInclude ("a;\n\n".toList ++ escapedMarker ++ "\n//* a;\n".toList)
  let expanded : Text := "a;\n".toList
  have facts : (¬ legacyStart <:+: beforeBlock expanded) ∧
      (∀ line ∈ (beforeBlock expanded).lines, line.withoutEnding ≠ includeMarker) ∧
      save (load (save script expanded)).text expanded ≠ save script expanded := by
    decide +kernel
  exact ⟨script, expanded, rfl, rfl, facts⟩

end Document

end ScriptPreprocessor
