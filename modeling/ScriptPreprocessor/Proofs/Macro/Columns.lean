import ScriptPreprocessor.Macro.Expansion
import ScriptPreprocessor.Text.Utf8

namespace ScriptPreprocessor

/-!
# Columns of expanded lines

The spans of a line are read off its segments, and so is what a column stands for.  A column that
lies in no span belongs to a copied segment; moved back by what the replacements before it have
grown, it meets the same byte in the source (`getElem?_sourceColumnFrom`).  A column in a span goes
to where the invocation begins (`sourceColumnFrom_of_mem`).

Both statements are by induction on the segments.  What is kept is that the shift is the distance
between the two columns at which the remaining segments begin.
-/

namespace Utf8

theorem length_encodeCharacter (character : Char) :
    (encodeCharacter character).length = character.utf8Size := by
  unfold encodeCharacter Char.utf8Size
  simp only [Char.toNat, UInt32.le_iff_toNat_le]
  grind

theorem encode_append (front rest : Text) : encode (front ++ rest) = encode front ++ encode rest :=
  List.flatMap_append

theorem length_encode (text : Text) : (encode text).length = text.width := by
  induction text with
  | nil => rfl
  | cons character rest ih =>
    have split := congrArg List.length (encode_append [character] rest)
    simp only [List.singleton_append, List.length_append, ih] at split
    rw [split, Text.width_cons]
    congr 1
    simp [encode, length_encodeCharacter]

/-- Behind a text, a byte is found as far from the beginning of what follows. -/
theorem getElem?_encode_append {front rest : Text} {start column : Nat}
    (behind : start + front.width ≤ column) :
    (encode front ++ encode rest)[column - start]? =
      (encode rest)[column - (start + front.width)]? := by
  rw [List.getElem?_append_right (by rw [length_encode]; omega), length_encode, Nat.sub_sub]

end Utf8

namespace MacroSpan

/-- A column of the expanded line that the replacement covers. -/
def Covers (span : MacroSpan) (column : Nat) : Prop :=
  span.expandedStart ≤ column ∧ column < span.expandedEnd

/-- A column in front of all spans is only shifted. -/
theorem sourceColumnFrom_of_before {spans : List MacroSpan} {column : Nat} {shift : Int}
    (before : ∀ span ∈ spans, column < span.expandedStart) :
    sourceColumnFrom column shift spans = ((column : Int) - shift).toNat := by
  cases spans with
  | nil => rfl
  | cons span rest =>
    unfold sourceColumnFrom
    rw [if_pos (before span List.mem_cons_self)]

/-- A column behind a span is moved back by its growth. -/
theorem sourceColumnFrom_of_behind {span : MacroSpan} {column : Nat}
    (starts : span.expandedStart ≤ column) (ends : span.expandedEnd ≤ column) (shift : Int)
    (spans : List MacroSpan) :
    sourceColumnFrom column shift (span :: spans) =
      sourceColumnFrom column (shift + span.growth) spans := by
  rw [sourceColumnFrom, if_neg (Nat.not_lt.2 starts), if_neg (Nat.not_lt.2 ends)]

end MacroSpan

namespace Segment

/-- Spans begin where their segments begin or later. -/
theorem le_expandedStart_of_mem {segments : List Segment} {expandedColumn sourceColumn : Nat}
    {span : MacroSpan} (member : span ∈ spansFrom expandedColumn sourceColumn segments) :
    expandedColumn ≤ span.expandedStart := by
  induction segments generalizing expandedColumn sourceColumn with
  | nil => simp [spansFrom] at member
  | cons segment rest ih =>
    cases segment with
    | copied text =>
      exact Nat.le_trans (Nat.le_add_right _ _) (ih member)
    | replaced invocation replacement =>
      rcases List.mem_cons.1 member with rfl | later
      · exact Nat.le_refl _
      · exact Nat.le_trans (Nat.le_add_right _ _) (ih later)

/-- A column that no span covers holds the same byte in the source, once it is moved back. -/
theorem getElem?_sourceColumnFrom {segments : List Segment} {expandedColumn sourceColumn : Nat}
    {column : Nat} (behind : expandedColumn ≤ column)
    (within : column < expandedColumn + Text.width (segments.flatMap expanded))
    (outside : ∀ span ∈ spansFrom expandedColumn sourceColumn segments, ¬ span.Covers column) :
    sourceColumn ≤ MacroSpan.sourceColumnFrom column ((expandedColumn : Int) - sourceColumn)
        (spansFrom expandedColumn sourceColumn segments) ∧
      (Utf8.encode (segments.flatMap source))[MacroSpan.sourceColumnFrom column
          ((expandedColumn : Int) - sourceColumn)
          (spansFrom expandedColumn sourceColumn segments) - sourceColumn]? =
        (Utf8.encode (segments.flatMap expanded))[column - expandedColumn]? := by
  induction segments generalizing expandedColumn sourceColumn with
  | nil =>
    simp only [List.flatMap_nil, Text.width_nil] at within
    omega
  | cons segment rest ih =>
    rw [List.flatMap_cons, List.flatMap_cons, Utf8.encode_append, Utf8.encode_append]
    rw [List.flatMap_cons, Text.width_append] at within
    cases segment with
    | copied text =>
      simp only [expanded] at within
      simp only [spansFrom, expanded, source] at outside ⊢
      by_cases inText : column < expandedColumn + text.width
      · have before : ∀ span ∈ spansFrom (expandedColumn + text.width)
            (sourceColumn + text.width) rest, column < span.expandedStart := fun span member =>
          Nat.lt_of_lt_of_le inText (le_expandedStart_of_mem member)
        rw [MacroSpan.sourceColumnFrom_of_before before]
        have moved : ((column : Int) - ((expandedColumn : Int) - sourceColumn)).toNat =
            sourceColumn + (column - expandedColumn) := by omega
        have bound : column - expandedColumn < (Utf8.encode text).length := by
          rw [Utf8.length_encode]
          omega
        rw [moved, Nat.add_sub_cancel_left]
        refine ⟨Nat.le_add_right _ _, ?_⟩
        rw [List.getElem?_append_left bound, List.getElem?_append_left bound]
      · have later : expandedColumn + text.width ≤ column := Nat.le_of_not_lt inText
        have sameShift : ((expandedColumn + text.width : Nat) : Int) -
            ((sourceColumn + text.width : Nat) : Int) = (expandedColumn : Int) - sourceColumn := by
          omega
        have remaining := ih later (by omega) outside
        rw [sameShift] at remaining
        refine ⟨Nat.le_trans (Nat.le_add_right _ _) remaining.1, ?_⟩
        rw [Utf8.getElem?_encode_append remaining.1, Utf8.getElem?_encode_append later]
        exact remaining.2
    | replaced invocation replacement =>
      simp only [expanded] at within
      simp only [spansFrom, expanded, source] at outside ⊢
      have notHere := outside _ List.mem_cons_self
      have later : expandedColumn + replacement.width ≤ column := by
        apply Nat.le_of_not_lt
        exact fun inReplacement => notHere ⟨behind, inReplacement⟩
      have remaining := ih later (by omega)
        fun span member => outside span (List.mem_cons_of_mem _ member)
      have grown : (expandedColumn : Int) - sourceColumn +
          MacroSpan.growth ⟨expandedColumn, expandedColumn + replacement.width, sourceColumn,
            invocation.width⟩ =
          ((expandedColumn + replacement.width : Nat) : Int) -
            ((sourceColumn + invocation.width : Nat) : Int) := by
        simp only [MacroSpan.growth]
        omega
      rw [MacroSpan.sourceColumnFrom_of_behind behind later, grown]
      refine ⟨Nat.le_trans (Nat.le_add_right _ _) remaining.1, ?_⟩
      rw [Utf8.getElem?_encode_append remaining.1, Utf8.getElem?_encode_append later]
      exact remaining.2

/-- A column that a span covers stands for the beginning of the invocation. -/
theorem sourceColumnFrom_of_mem {segments : List Segment} {expandedColumn sourceColumn : Nat}
    {column : Nat} {shift : Int} {span : MacroSpan}
    (member : span ∈ spansFrom expandedColumn sourceColumn segments)
    (covers : span.Covers column) :
    MacroSpan.sourceColumnFrom column shift (spansFrom expandedColumn sourceColumn segments) =
      span.sourceColumn := by
  induction segments generalizing expandedColumn sourceColumn shift with
  | nil => simp [spansFrom] at member
  | cons segment rest ih =>
    cases segment with
    | copied text => exact ih member
    | replaced invocation replacement =>
      simp only [spansFrom] at member ⊢
      rcases List.mem_cons.1 member with rfl | later
      · unfold MacroSpan.sourceColumnFrom
        rw [if_neg (Nat.not_lt.2 covers.1), if_pos covers.2]
      · have behind := Nat.le_trans (le_expandedStart_of_mem later) covers.1
        rw [MacroSpan.sourceColumnFrom_of_behind (Nat.le_of_add_right_le behind) behind]
        exact ih later

/-- Every span belongs to a replaced segment: its columns are the widths of what stands before the
segment, in the expanded line and in the source. -/
theorem exists_replaced_of_mem_spansFrom {segments : List Segment}
    {expandedColumn sourceColumn : Nat} {span : MacroSpan}
    (member : span ∈ spansFrom expandedColumn sourceColumn segments) :
    ∃ (before after : List Segment) (invocation replacement : Text),
      segments = before ++ .replaced invocation replacement :: after ∧
        span = ⟨expandedColumn + Text.width (before.flatMap expanded),
          expandedColumn + Text.width (before.flatMap expanded) + replacement.width,
          sourceColumn + Text.width (before.flatMap source), invocation.width⟩ := by
  induction segments generalizing expandedColumn sourceColumn with
  | nil => simp [spansFrom] at member
  | cons segment rest ih =>
    cases segment with
    | copied text =>
      rcases ih member with ⟨before, after, invocation, replacement, rfl, rfl⟩
      refine ⟨.copied text :: before, after, invocation, replacement, rfl, ?_⟩
      simp [expanded, source, Nat.add_assoc]
    | replaced invocation replacement =>
      rcases List.mem_cons.1 member with rfl | later
      · exact ⟨[], rest, invocation, replacement, rfl, rfl⟩
      · rcases ih later with ⟨before, after, inner, text, rfl, rfl⟩
        refine ⟨.replaced invocation replacement :: before, after, inner, text, rfl, ?_⟩
        simp [expanded, source, Nat.add_assoc]

end Segment

end ScriptPreprocessor
