import ScriptPreprocessor.Proofs.Macro.Columns
import ScriptPreprocessor.Proofs.Macro.Segments

namespace ScriptPreprocessor

/-!
# The spans of an expanded line

The spans of an expansion are all that is needed to undo it: with every replacement exchanged for
the bytes of the source line that its span names, the expanded line is the source line again
(`MacroSpan.restore_spansFrom`).

Between two spans, and in front of the first one, stand equally many bytes in both lines
(`MacroSpan.Aligned`).  From this alone follows what a reader of columns relies on: spans are
ordered and disjoint in both lines, a greater column never stands for a smaller one, and moving a
column back never leads in front of the line.
-/

namespace MacroSpan

/-! ## Reading spans -/

/-- A span that ends, in both lines, before another begins. -/
def Precedes (first second : MacroSpan) : Prop :=
  first.expandedEnd ≤ second.expandedStart ∧
    first.sourceColumn + first.sourceLength ≤ second.sourceColumn

/-- A span that lies inside of an expanded line and of a source line. -/
def LiesIn (expanded source : Text) (span : MacroSpan) : Prop :=
  span.expandedStart ≤ span.expandedEnd ∧ span.expandedEnd ≤ expanded.width ∧
    span.sourceColumn + span.sourceLength ≤ source.width

/-- The bytes of an expanded line from a column on, with every replacement exchanged for the bytes
of the source line that its span names. -/
def restoreFrom (column : Nat) (expanded source : Bytes) : List MacroSpan → Bytes
  | [] => expanded.drop column
  | span :: spans =>
    (expanded.drop column).take (span.expandedStart - column) ++
      (source.drop span.sourceColumn).take span.sourceLength ++
      restoreFrom span.expandedEnd expanded source spans

/-- An expanded line with its replacements taken back. -/
def restore (expanded source : Bytes) (spans : List MacroSpan) : Bytes :=
  restoreFrom 0 expanded source spans

/-- The source column of an expanded column as `sourceColumnFrom` computes it, but negative when
the column is moved back beyond the beginning of the line. -/
def unclampedColumnFrom (column : Nat) (shift : Int) : List MacroSpan → Int
  | [] => column - shift
  | span :: spans =>
    if column < span.expandedStart then column - shift
    else if column < span.expandedEnd then span.sourceColumn
    else unclampedColumnFrom column (shift + span.growth) spans

theorem sourceColumnFrom_eq_toNat (column : Nat) (shift : Int) (spans : List MacroSpan) :
    sourceColumnFrom column shift spans = (unclampedColumnFrom column shift spans).toNat := by
  induction spans generalizing shift with
  | nil => rfl
  | cons span rest ih =>
    unfold sourceColumnFrom unclampedColumnFrom
    split
    · rfl
    · split
      · rfl
      · exact ih _

/-- An integer that a signed word of 64 bits holds. -/
def FitsWord (number : Int) : Prop :=
  -0x8000000000000000 ≤ number ∧ number < 0x8000000000000000

/-- In words a column goes to the same place when the exact place is a signed word. -/
theorem wrappedColumnFrom_eq {column : Nat} {shift : Int} {spans : List MacroSpan}
    (fits : FitsWord (unclampedColumnFrom column shift spans)) :
    wrappedColumnFrom column shift spans = sourceColumnFrom column shift spans := by
  have exact {number : Int} (fits : FitsWord number) : number.bmod wordCount = number :=
    Int.bmod_eq_of_le fits.1 fits.2
  induction spans generalizing shift with
  | nil => exact congrArg Int.toNat (exact fits)
  | cons span rest ih =>
    unfold unclampedColumnFrom at fits
    unfold wrappedColumnFrom sourceColumnFrom
    split at fits
    · next before => rw [if_pos before, if_pos before, wrappedColumn, exact fits]
    · next notBefore =>
      rw [if_neg notBefore, if_neg notBefore]
      split at fits
      · next inside => rw [if_pos inside, if_pos inside]
      · next behind => rw [if_neg behind, if_neg behind, ih fits]

/-! ## Aligned spans -/

/-- Spans, behind given columns of both lines, that have equally many bytes in front of them in
both lines. -/
def Aligned (expandedColumn sourceColumn : Nat) : List MacroSpan → Prop
  | [] => True
  | span :: spans =>
    (∃ gap, span.expandedStart = expandedColumn + gap ∧ span.sourceColumn = sourceColumn + gap) ∧
      span.expandedStart ≤ span.expandedEnd ∧
      Aligned span.expandedEnd (span.sourceColumn + span.sourceLength) spans

variable {spans : List MacroSpan} {expandedColumn sourceColumn : Nat}

/-- Equally many bytes may be put in front. -/
theorem Aligned.behind {count : Nat}
    (aligned : Aligned (expandedColumn + count) (sourceColumn + count) spans) :
    Aligned expandedColumn sourceColumn spans := by
  cases spans with
  | nil => trivial
  | cons span rest =>
    obtain ⟨⟨gap, start, column⟩, ordered, later⟩ := aligned
    exact ⟨⟨count + gap, start.trans (Nat.add_assoc _ _ _), column.trans (Nat.add_assoc _ _ _)⟩,
      ordered, later⟩

/-- Aligned spans begin, in both lines, behind the columns they are counted from. -/
theorem Aligned.le_of_mem (aligned : Aligned expandedColumn sourceColumn spans) :
    ∀ span ∈ spans, expandedColumn ≤ span.expandedStart ∧ sourceColumn ≤ span.sourceColumn := by
  induction spans generalizing expandedColumn sourceColumn with
  | nil => simp
  | cons first rest ih =>
    obtain ⟨⟨gap, start, column⟩, ordered, later⟩ := aligned
    intro span member
    rcases List.mem_cons.1 member with rfl | inRest
    · exact ⟨start ▸ Nat.le_add_right _ _, column ▸ Nat.le_add_right _ _⟩
    · have behind := ih later span inRest
      omega

/-- Aligned spans are ordered and disjoint in both lines. -/
theorem Aligned.pairwise (aligned : Aligned expandedColumn sourceColumn spans) :
    spans.Pairwise Precedes := by
  induction spans generalizing expandedColumn sourceColumn with
  | nil => exact List.Pairwise.nil
  | cons first rest ih =>
    obtain ⟨_, _, later⟩ := aligned
    exact List.Pairwise.cons later.le_of_mem (ih later)

/-- What the shift grows to behind a span is again the distance between both columns. -/
theorem shift_add_growth {span : MacroSpan} {gap : Nat}
    (start : span.expandedStart = expandedColumn + gap)
    (column : span.sourceColumn = sourceColumn + gap) :
    (expandedColumn : Int) - sourceColumn + span.growth =
      (span.expandedEnd : Int) - ((span.sourceColumn + span.sourceLength : Nat) : Int) := by
  simp only [growth, start, column]
  omega

/-- A column behind the columns that spans are counted from stands for one behind them. -/
theorem Aligned.le_unclampedColumnFrom (aligned : Aligned expandedColumn sourceColumn spans)
    {column : Nat} (behind : expandedColumn ≤ column) :
    (sourceColumn : Int) ≤
      unclampedColumnFrom column ((expandedColumn : Int) - sourceColumn) spans := by
  induction spans generalizing expandedColumn sourceColumn with
  | nil =>
    simp only [unclampedColumnFrom]
    omega
  | cons span rest ih =>
    obtain ⟨⟨gap, start, sourceStart⟩, ordered, later⟩ := aligned
    unfold unclampedColumnFrom
    split
    · omega
    · split
      · omega
      · next notCovered =>
        have rest := ih later (Nat.le_of_not_lt notCovered)
        rw [shift_add_growth start sourceStart]
        omega

/-- A greater column stands for a greater one, or for the same. -/
theorem Aligned.unclampedColumnFrom_mono (aligned : Aligned expandedColumn sourceColumn spans)
    {column later : Nat} (behind : expandedColumn ≤ column) (le : column ≤ later) :
    unclampedColumnFrom column ((expandedColumn : Int) - sourceColumn) spans ≤
      unclampedColumnFrom later ((expandedColumn : Int) - sourceColumn) spans := by
  induction spans generalizing expandedColumn sourceColumn with
  | nil =>
    simp only [unclampedColumnFrom]
    omega
  | cons span rest ih =>
    obtain ⟨⟨gap, start, sourceStart⟩, ordered, aligned⟩ := aligned
    simp only [unclampedColumnFrom, shift_add_growth start sourceStart]
    by_cases lastBehind : span.expandedEnd ≤ later
    · -- The later column stands for one behind the invocation.
      have lower := aligned.le_unclampedColumnFrom lastBehind
      have lastNotInFront : ¬ later < span.expandedStart := by omega
      have lastNotCovered : ¬ later < span.expandedEnd := by omega
      rw [if_neg lastNotInFront, if_neg lastNotCovered]
      split
      · omega
      · split
        · omega
        · next firstNotCovered => exact ih aligned (Nat.le_of_not_lt firstNotCovered)
    · have lastBefore : later < span.expandedEnd := Nat.lt_of_not_le lastBehind
      have firstBefore : column < span.expandedEnd := Nat.lt_of_le_of_lt le lastBefore
      rw [if_pos lastBefore, if_pos firstBefore]
      split <;> split <;> omega

/-- Without a shift at the beginning of both lines, no column is moved back beyond it. -/
theorem Aligned.sourceColumnFrom_eq (aligned : Aligned 0 0 spans) (column : Nat) :
    (sourceColumnFrom column 0 spans : Int) = unclampedColumnFrom column 0 spans := by
  have lower := aligned.le_unclampedColumnFrom (Nat.zero_le column)
  rw [sourceColumnFrom_eq_toNat]
  exact Int.toNat_of_nonneg lower

theorem Aligned.sourceColumnFrom_mono (aligned : Aligned 0 0 spans) {column later : Nat}
    (le : column ≤ later) :
    sourceColumnFrom column 0 spans ≤ sourceColumnFrom later 0 spans := by
  have grows := aligned.unclampedColumnFrom_mono (Nat.zero_le column) le
  rw [sourceColumnFrom_eq_toNat, sourceColumnFrom_eq_toNat]
  exact Int.toNat_le_toNat grows

/-! ## The spans of segments -/

theorem aligned_spansFrom (segments : List Segment) (expandedColumn sourceColumn : Nat) :
    Aligned expandedColumn sourceColumn
      (Segment.spansFrom expandedColumn sourceColumn segments) := by
  induction segments generalizing expandedColumn sourceColumn with
  | nil => trivial
  | cons segment rest ih =>
    cases segment with
    | copied text => exact (ih _ _).behind
    | replaced invocation replacement =>
      exact ⟨⟨0, rfl, rfl⟩, Nat.le_add_right _ _, ih _ _⟩

theorem liesIn_of_mem_spansFrom {segments : List Segment} {span : MacroSpan}
    (member : span ∈ Segment.spansFrom 0 0 segments) :
    span.LiesIn (segments.flatMap Segment.expanded) (segments.flatMap Segment.source) := by
  rcases Segment.exists_replaced_of_mem_spansFrom member with
    ⟨before, after, invocation, replacement, rfl, rfl⟩
  simp only [LiesIn, List.flatMap_append, List.flatMap_cons, Text.width_append, Segment.expanded,
    Segment.source]
  omega

/-- Taking the replacements back, from behind a front of both lines on and with some copied bytes
still to be written, gives these bytes and the sources of the segments. -/
theorem restoreFrom_spansFrom (segments : List Segment) (front copied sourceFront : Bytes) :
    restoreFrom front.length (front ++ copied ++ Utf8.encode (segments.flatMap Segment.expanded))
        (sourceFront ++ Utf8.encode (segments.flatMap Segment.source))
        (Segment.spansFrom (front.length + copied.length) sourceFront.length segments) =
      copied ++ Utf8.encode (segments.flatMap Segment.source) := by
  induction segments generalizing front copied sourceFront with
  | nil =>
    simp only [List.flatMap_nil, Segment.spansFrom, restoreFrom, List.append_assoc,
      List.drop_left]
  | cons segment rest ih =>
    rw [List.flatMap_cons, List.flatMap_cons, Utf8.encode_append, Utf8.encode_append]
    cases segment with
    | copied text =>
      have later := ih front (copied ++ Utf8.encode text) (sourceFront ++ Utf8.encode text)
      simpa [Segment.spansFrom, Segment.expanded, Segment.source, Utf8.length_encode,
        Nat.add_assoc] using later
    | replaced invocation replacement =>
      have later := ih (front ++ copied ++ Utf8.encode replacement) []
        (sourceFront ++ Utf8.encode invocation)
      simp only [List.length_append, Utf8.length_encode, List.length_nil, Nat.add_zero,
        List.append_nil, List.nil_append, List.append_assoc, ← Nat.add_assoc] at later
      simp only [Segment.spansFrom, Segment.expanded, Segment.source, restoreFrom,
        List.append_assoc, List.drop_left, Nat.add_sub_cancel_left, List.take_left, later]
      rw [List.take_left' (Utf8.length_encode invocation)]

/-- The spans of segments lead from what the segments are expanded to back to their sources. -/
theorem restore_spansFrom (segments : List Segment) :
    restore (Utf8.encode (segments.flatMap Segment.expanded))
        (Utf8.encode (segments.flatMap Segment.source)) (Segment.spansFrom 0 0 segments) =
      Utf8.encode (segments.flatMap Segment.source) :=
  restoreFrom_spansFrom segments [] [] []

end MacroSpan

/-! ## Expansions -/

/-- The spans of an expansion of a line are exact: they tell where every part of the expanded line
comes from, and columns can be translated by them without loss. -/
structure Expansion.IsExact (expansion : Expansion) (line : Text) : Prop where
  /-- The spans are ordered and disjoint in both lines. -/
  ordered : expansion.spans.Pairwise MacroSpan.Precedes
  inside : ∀ span ∈ expansion.spans, span.LiesIn expansion.text line
  /-- With its replacements taken back, the expanded line is the line. -/
  restored : MacroSpan.restore (Utf8.encode expansion.text) (Utf8.encode line) expansion.spans =
    Utf8.encode line
  monotone : ∀ entry : LineEntry, entry.spans = expansion.spans → ∀ column later : Nat,
    column ≤ later → entry.sourceColumnOf column ≤ entry.sourceColumnOf later
  /-- No column is moved back beyond the beginning of the line. -/
  unclamped : ∀ entry : LineEntry, entry.spans = expansion.spans → ∀ column : Nat,
    (entry.sourceColumnOf column : Int) = MacroSpan.unclampedColumnFrom column 0 entry.spans
  /-- A byte outside of all spans stands in the line, at the column that its own is sent to. -/
  copied : ∀ entry : LineEntry, entry.spans = expansion.spans → ∀ (column : Nat) (byte : UInt8),
    (Utf8.encode expansion.text)[column]? = some byte →
    (∀ span ∈ expansion.spans, ¬ span.Covers column) →
    (Utf8.encode line)[entry.sourceColumnOf column]? = some byte

/-- Whatever the macros and the line are, the spans of the expansion are exact. -/
theorem MacroTable.isExact_expand (table : MacroTable) (origin : Origin) (line : Text) :
    (table.expand origin line).IsExact line := by
  have source := table.source_expand origin line
  generalize table.expand origin line = expansion at source
  subst source
  have aligned : MacroSpan.Aligned 0 0 expansion.spans :=
    MacroSpan.aligned_spansFrom expansion.segments 0 0
  refine ⟨aligned.pairwise, fun span => MacroSpan.liesIn_of_mem_spansFrom,
    MacroSpan.restore_spansFrom expansion.segments, ?_, ?_, ?_⟩
  · intro entry same column later le
    unfold LineEntry.sourceColumnOf
    rw [same]
    exact aligned.sourceColumnFrom_mono le
  · intro entry same column
    unfold LineEntry.sourceColumnOf
    rw [same]
    exact aligned.sourceColumnFrom_eq column
  · intro entry same column byte there outside
    have bound := (List.getElem?_eq_some_iff.1 there).1
    rw [Utf8.length_encode] at bound
    have met := @Segment.getElem?_sourceColumnFrom expansion.segments 0 0 column
      (Nat.zero_le column) (by rwa [Nat.zero_add]) outside
    unfold LineEntry.sourceColumnOf
    rw [same]
    exact met.2.trans there

end ScriptPreprocessor
