import ScriptPreprocessor.Proofs.Document.Saving

namespace ScriptPreprocessor

/-!
# Stripping blocks, and saving again

Stripping cuts a document at its last marker line.  Behind a compiled text and its escaped source,
the compiled text is left (`stripBlock_append_escapedPart`), so what `escape` writes behind a text
can be read and taken away again (`unescapeBlock_stripBlock_append_escape`).  A saved script is
loaded, spliced and saved again without a change, when its compiled text has no block of another
kind (`load_includeSource_resave`).

Stripping does not ask whether the block can be read.  A document whose last block cannot be read
loses the block all the same, and with it the lines that reading refuses to drop
(`stripBlock_of_damaged`).
-/

namespace Document

/-! ## Where the last marker line stands -/

theorem eq_of_splitAtLast? {marker : Text} {lines before after : List Text}
    (found : splitAtLast? marker lines = some (before, after)) :
    ∃ line, isMarkerLine marker line = true ∧ lines = before ++ line :: after := by
  induction lines generalizing before with
  | nil => cases found
  | cons first rest ih =>
    unfold splitAtLast? at found
    split at found
    · next front back later =>
      cases found
      rcases ih later with ⟨line, isMarker, shape⟩
      exact ⟨line, isMarker, by rw [shape, List.cons_append]⟩
    · split at found
      · next isMarker =>
        cases found
        exact ⟨first, isMarker, rfl⟩
      · cases found

theorem ne_nil_of_isMarkerLine {marker line : Text} (filled : marker ≠ [])
    (isMarker : isMarkerLine marker line = true) : line ≠ [] := by
  rintro rfl
  have same : marker = [] := (beq_iff_eq.1 isMarker).symm
  exact filled same

/-! ## What stripping leaves -/

/-- The text in front of a block, without the empty line that ends it. -/
theorem stripBlock_of_split {document : Text} {before after : List Text}
    (found : splitAtLast? escapedMarker document.lines = some (before, after)) :
    ∃ gap, (gap = [] ∨ gap = ['\n'] ∧
        (stripBlock document = [] ∨ (stripBlock document).getLast? = some '\n')) ∧
      before.flatten = stripBlock document ++ gap := by
  unfold stripBlock
  rw [found]
  simp only
  cases cut : Text.beforeEnd? before.flatten ['\n'] with
  | none => exact ⟨[], Or.inl rfl, (List.append_nil _).symm⟩
  | some rest =>
    simp only
    split
    · next ends =>
      rw [Bool.or_eq_true, List.isEmpty_iff, Text.endsWith_newline_iff] at ends
      exact ⟨['\n'], Or.inr ⟨rfl, ends⟩, Text.beforeEnd?_eq_some_iff.1 cut⟩
    · exact ⟨[], Or.inl rfl, (List.append_nil _).symm⟩

theorem stripBlock_of_none {document : Text}
    (absent : splitAtLast? escapedMarker document.lines = none) :
    stripBlock document = document := by
  unfold stripBlock
  rw [absent]

/-- Behind a compiled text and its escaped source, stripping leaves the compiled text. -/
theorem stripBlock_append_escapedPart {compiled : Text}
    (ends : compiled = [] ∨ compiled.getLast? = some '\n') (source : Text) :
    stripBlock (compiled ++ escapedPart source) = compiled := by
  have feed : compiled ++ ['\n'] = [] ∨ (compiled ++ ['\n']).getLast? = some '\n' :=
    Or.inr (by simp)
  have last := splitAtLast?_append_escape feed source
  rw [List.append_assoc, List.singleton_append] at last
  have kept : (compiled.isEmpty || compiled.endsWith ['\n']) = true := by
    rw [Bool.or_eq_true, Text.endsWith_newline_iff]
    exact ends.imp (fun empty => by rw [empty]; rfl) id
  unfold stripBlock escapedPart
  rw [last]
  simp only [Text.flatten_lines, Text.beforeEnd?_eq_some_iff.2 rfl, kept, if_true]

/-- Behind a text of whole lines, whatever it holds, the block that `escape` writes is read back as
the text that was escaped, and with an empty line in front it is taken away without a trace. -/
theorem unescapeBlock_stripBlock_append_escape {before : Text}
    (ends : before = [] ∨ before.getLast? = some '\n') (text : Text) :
    unescapeBlock (before ++ escape text) = .ok text ∧
      stripBlock (before ++ '\n' :: escape text) = before :=
  ⟨unescapeBlock_append_escape ends text, stripBlock_append_escapedPart ends text⟩

/-- A block and a marker stand in front, and the text looks like a block itself, with carriage
returns and without an end of its last line. -/
theorem unescapeBlock_stripBlock_append_escape_nested :
    ∃ before text : Text,
      before = "x;\n".toList ++ escapedMarker ++ "\n//* old\n//*$\n".toList ++ escapedMarker ++
        "\n".toList ∧
      text = escapedMarker ++ "\r\n//* a\n//*\n//*$\r".toList ∧
      (before = [] ∨ before.getLast? = some '\n') ∧
      unescapeBlock (before ++ escape text) = .ok text ∧
      stripBlock (before ++ '\n' :: escape text) = before := by
  have ends : ("x;\n".toList ++ escapedMarker ++ "\n//* old\n//*$\n".toList ++ escapedMarker ++
      "\n".toList).getLast? = some '\n' := by decide +kernel
  exact ⟨_, _, rfl, rfl, Or.inr ends, unescapeBlock_stripBlock_append_escape (Or.inr ends) _⟩

/-! ## Saving again -/

theorem save_of_filled {script : Text} (filled : (load script).text ≠ []) (expanded : Text) :
    save script expanded =
      (stripBlock expanded).withFinalNewline ++ escapedPart (load script).text := by
  unfold save
  simp only
  rw [if_neg (by simpa using filled)]
  rfl

section

variable {compiled : Text} (ends : compiled = [] ∨ compiled.getLast? = some '\n')
  (noLegacy : ¬ legacyStart <:+: compiled)
  (noInclude : ∀ line ∈ compiled.lines, line.withoutEnding ≠ includeMarker)

include ends noLegacy noInclude

/-- A compiled text without a block of another kind makes a compiled script. -/
theorem classify_append_escapedPart (source : Text) :
    classify (compiled ++ escapedPart source) = .preprocessed := by
  have notLegacy : isLegacy compiled = false := by
    rw [Bool.eq_false_iff]
    exact fun legacy => noLegacy (Text.contains_iff_occurs.1 legacy)
  have noBlock : closedInclude? compiled = none := by
    unfold closedInclude?
    rw [splitAtFirst?_eq_none fun line member => beq_eq_false_iff_ne.2 (noInclude line member)]
    rfl
  unfold classify
  rw [isLegacy_append_escapedPart ends, isInclude_append_escapedPart ends,
    hasMarker_append_escapedPart ends, notLegacy, noBlock]
  rfl

theorem load_append_escapedPart {source : Text} (filled : source ≠ []) :
    load (compiled ++ escapedPart source) = ⟨source, .preprocessed, some compiled⟩ := by
  unfold load
  rw [classify_append_escapedPart ends noLegacy noInclude source]
  simp only [unescapeBlock_append_escapedPart, stripBlock_append_escapedPart ends]
  rw [if_neg (by simpa using filled)]

end

/-- A saved script whose compiled text opens no legacy block and has no include marker is loaded as
its source with its compiled text, is spliced as its compiled text, and is saved again as it is. -/
theorem load_includeSource_resave (script expanded : Text) (filled : (load script).text ≠ [])
    (noLegacy : ¬ legacyStart <:+: (stripBlock expanded).withFinalNewline)
    (noInclude : ∀ line ∈ (stripBlock expanded).withFinalNewline.lines,
      line.withoutEnding ≠ includeMarker) :
    load (save script expanded) =
        ⟨(load script).text, .preprocessed, some (stripBlock expanded).withFinalNewline⟩ ∧
      includeSource (save script expanded) = (stripBlock expanded).withFinalNewline ∧
      save (save script expanded) (save script expanded) = save script expanded := by
  have ends := Text.withFinalNewline_ends (stripBlock expanded)
  have saved := save_of_filled filled expanded
  have loaded := load_append_escapedPart ends noLegacy noInclude filled
  have stripped := stripBlock_append_escapedPart ends (load script).text
  rw [← saved] at loaded stripped
  refine ⟨loaded, ?_, ?_⟩
  · have form := classify_append_escapedPart ends noLegacy noInclude (load script).text
    rw [← saved] at form
    unfold includeSource
    rw [form]
    exact stripped
  · have again : (load (save script expanded)).text ≠ [] := by
      rw [loaded]
      exact filled
    rw [save_of_filled again _, stripped, loaded, Text.withFinalNewline_of_ends ends]
    exact saved.symm

/-- An older marker stays in the compiled text, and the source looks like an escaped line and does
not end its last line. -/
theorem load_includeSource_resave_older :
    ∃ script expanded : Text,
      script = "//* a".toList ∧
      expanded = escapedMarker ++ "\nx;\r\n\n".toList ++ escapedMarker ++ "\n//* old\n".toList ∧
      (load script).text ≠ [] ∧
      (¬ legacyStart <:+: (stripBlock expanded).withFinalNewline) ∧
      (∀ line ∈ (stripBlock expanded).withFinalNewline.lines,
        line.withoutEnding ≠ includeMarker) ∧
      load (save script expanded) =
        ⟨"//* a".toList, .preprocessed, some (escapedMarker ++ "\nx;\r\n".toList)⟩ ∧
      includeSource (save script expanded) = escapedMarker ++ "\nx;\r\n".toList ∧
      save (save script expanded) (save script expanded) = save script expanded := by
  let script : Text := "//* a".toList
  let expanded : Text :=
    escapedMarker ++ "\nx;\r\n\n".toList ++ escapedMarker ++ "\n//* old\n".toList
  have facts : (load script).text = script ∧ script ≠ [] ∧
      (stripBlock expanded).withFinalNewline = escapedMarker ++ "\nx;\r\n".toList ∧
      (¬ legacyStart <:+: (stripBlock expanded).withFinalNewline) ∧
      ∀ line ∈ (stripBlock expanded).withFinalNewline.lines,
        line.withoutEnding ≠ includeMarker := by decide +kernel
  rcases facts with ⟨source, nonempty, compiled, noLegacy, noInclude⟩
  have filled : (load script).text ≠ [] := by
    rw [source]
    exact nonempty
  have stable := load_includeSource_resave script expanded filled noLegacy noInclude
  refine ⟨script, expanded, rfl, rfl, filled, noLegacy, noInclude, ?_, ?_, stable.2.2⟩
  · rw [stable.1, source, compiled]
  · rw [stable.2.1, compiled]

/-! ## Documents that cannot be read back -/

/-- The text behind the last block of a document, which no escaped line holds. -/
def behindBlock (document : Text) : Text :=
  match splitAtLast? escapedMarker document.lines with
  | none => []
  | some (_, after) => (unescapeLines after).2

/-- Stripping takes away everything from the last marker line on. -/
theorem exists_stripped {document : Text} {before after : List Text}
    (found : splitAtLast? escapedMarker document.lines = some (before, after)) :
    ∃ block, block ≠ [] ∧ document = stripBlock document ++ block ++ behindBlock document := by
  rcases eq_of_splitAtLast? found with ⟨line, isMarker, lines⟩
  rcases stripBlock_of_split found with ⟨gap, _, front⟩
  rcases exists_escaped after with ⟨escaped, ending, rest, _, _, back, taken⟩
  have behind : behindBlock document = rest.flatten := by
    have read := taken rest rfl
    rw [← back] at read
    unfold behindBlock unescapeLines
    rw [found]
    simp only [read]
  rw [← List.append_assoc] at back
  refine ⟨gap ++ line ++ (escaped ++ ending.toList).flatten, ?_, ?_⟩
  · simp [ne_nil_of_isMarkerLine (by decide) isMarker]
  · calc document = document.lines.flatten := (Text.flatten_lines document).symm
      _ = before.flatten ++ line ++ after.flatten := by rw [lines]; simp
      _ = before.flatten ++ line ++
          ((escaped ++ ending.toList).flatten ++ behindBlock document) := by
        rw [behind, ← List.flatten_append, ← back]
      _ = _ := by rw [front]; simp

/-- A block cannot be read when there is none, or when the lines behind it are not blank. -/
theorem damage_of_unescapeBlock {document : Text} {damage : Damage}
    (damaged : unescapeBlock document = .error damage) :
    damage = .noEscapedMarker ∧ splitAtLast? escapedMarker document.lines = none ∨
      damage = .textAfterSources ∧ (behindBlock document).trim ≠ [] ∧
        ∃ pair, splitAtLast? escapedMarker document.lines = some pair := by
  unfold unescapeBlock at damaged
  unfold behindBlock
  cases found : splitAtLast? escapedMarker document.lines with
  | none =>
    rw [found] at damaged
    cases damaged
    exact Or.inl ⟨rfl, rfl⟩
  | some pair =>
    simp only [found] at damaged
    by_cases blank : (unescapeLines pair.2).2.trim.isEmpty = true
    · rw [if_pos blank] at damaged
      cases damaged
    · rw [if_neg blank] at damaged
      cases damaged
      exact Or.inr ⟨rfl, by simpa using blank, pair, rfl⟩

/-- A document of no other kind is spliced as what stripping leaves. -/
theorem includeSource_eq_stripBlock {document : Text} (notLegacy : isLegacy document = false)
    (notInclude : isInclude document = false) : includeSource document = stripBlock document := by
  unfold includeSource classify
  rw [notLegacy, notInclude]
  cases marked : hasMarker escapedMarker document with
  | true => rfl
  | false =>
    -- Without a marker line there is no block, and nothing is stripped.
    have unmarked : ∀ line ∈ document.lines, isMarkerLine escapedMarker line = false := by
      simpa [hasMarker] using marked
    exact (stripBlock_of_none (splitAtLast?_eq_none unmarked)).symm

/-- A document that cannot be read back is left as it is exactly when it has no marker line.  In
any other, the lines behind the block are not blank, and stripping takes them away with it.  What
is left is what an include of the document splices and what is saved as a compiled text. -/
theorem stripBlock_of_damaged {document : Text} {damage : Damage}
    (damaged : unescapeBlock document = .error damage) :
    (stripBlock document = document ↔ damage = .noEscapedMarker) ∧
      (damage ≠ .noEscapedMarker → (behindBlock document).trim ≠ [] ∧
        ∃ block, block ≠ [] ∧ document = stripBlock document ++ block ++ behindBlock document) ∧
      (isLegacy document = false → isInclude document = false →
        includeSource document = stripBlock document) ∧
      ∀ script, (load script).text ≠ [] → save script document =
        (stripBlock document).withFinalNewline ++ escapedPart (load script).text := by
  refine ⟨?_, ?_, includeSource_eq_stripBlock,
    fun script filled => save_of_filled filled document⟩
  · rcases damage_of_unescapeBlock damaged with ⟨rfl, absent⟩ | ⟨rfl, _, pair, found⟩
    · exact iff_of_true (stripBlock_of_none absent) rfl
    · rcases exists_stripped found with ⟨block, filled, whole⟩
      refine iff_of_false (fun same => filled ?_) (by decide)
      have lengths := congrArg List.length whole
      rw [same, List.length_append, List.length_append] at lengths
      exact List.length_eq_zero_iff.1 (by omega)
  · rcases damage_of_unescapeBlock damaged with ⟨rfl, _⟩ | ⟨rfl, visible, pair, found⟩
    · exact fun marked => absurd rfl marked
    · exact fun _ => ⟨visible, exists_stripped found⟩

/-- A line below the block is taken away. -/
theorem stripBlock_of_damaged_line :
    ∃ document : Text,
      document = "x;\n\n".toList ++ escapedMarker ++ "\n//* a;\nuser_added_line;\n".toList ∧
      unescapeBlock document = .error .textAfterSources ∧
      stripBlock document ≠ document ∧ behindBlock document = "user_added_line;\n".toList ∧
      includeSource document = stripBlock document ∧
      ∃ block, block ≠ [] ∧
        document = stripBlock document ++ block ++ "user_added_line;\n".toList := by
  let document : Text :=
    "x;\n\n".toList ++ escapedMarker ++ "\n//* a;\nuser_added_line;\n".toList
  have facts : unescapeBlock document = .error .textAfterSources ∧
      behindBlock document = "user_added_line;\n".toList ∧ isLegacy document = false ∧
      isInclude document = false := by decide +kernel
  rcases facts with ⟨damaged, behind, notLegacy, notInclude⟩
  rcases stripBlock_of_damaged damaged with ⟨kept, taken, spliced, _⟩
  have drops := (taken (by decide)).2
  rw [behind] at drops
  exact ⟨document, rfl, damaged, fun same => absurd (kept.1 same) (by decide), behind,
    spliced notLegacy notInclude, drops⟩

/-- A document is stripped of a line that it cannot be read back from, although it is neither a
legacy document nor an include script, and the line is missing from what is spliced. -/
theorem exists_damaged_stripped :
    ∃ document : Text, (∃ damage, unescapeBlock document = .error damage) ∧
      stripBlock document ≠ document ∧ isLegacy document = false ∧ isInclude document = false ∧
      "user_added_line;\n".toList ∈ document.lines ∧
      "user_added_line;\n".toList ∉ (includeSource document).lines := by
  let document : Text :=
    "x;\n\n".toList ++ escapedMarker ++ "\n//* a;\nuser_added_line;\n".toList
  have facts : unescapeBlock document = .error .textAfterSources ∧
      stripBlock document ≠ document ∧ isLegacy document = false ∧ isInclude document = false ∧
      "user_added_line;\n".toList ∈ document.lines ∧
      "user_added_line;\n".toList ∉ (includeSource document).lines := by decide +kernel
  exact ⟨document, ⟨.textAfterSources, facts.1⟩, facts.2⟩

end Document

end ScriptPreprocessor
