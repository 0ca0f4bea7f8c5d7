import Mathlib.Data.List.Induction
import ScriptPreprocessor.Proofs.Run.Units

namespace ScriptPreprocessor

/-!
# Emitted lines and the lines of the expanded text

The entries of the line map are numbered like the lines that are emitted.  For these to be the
lines of the expanded text, each of them must be an ended line.  Only the last line of the main
unit can expand to a text without a line feed, and then the run is over: nothing is emitted behind
it (`Course.closing`).
-/

/-- The entry of an emitted line, when so many lines were emitted before it. -/
def Emission.entryAt (index : Nat) (emission : Emission) : LineEntry :=
  ⟨index + 1, emission.origin, emission.spans⟩

theorem LineMap.toList_push (map : LineMap) (origin : Origin) (spans : List MacroSpan) :
    (map.push origin spans).entries.toList =
      map.entries.toList ++ [⟨map.entries.toList.length + 1, origin, spans⟩] := by
  simp [push, size]

/-- Entries number themselves from one. -/
theorem LineMap.toList_foldl_push (emissions : List Emission) :
    (emissions.foldl (fun map emission => map.push emission.origin emission.spans)
      ({} : LineMap)).entries.toList = emissions.mapIdx Emission.entryAt := by
  induction emissions using List.reverseRecOn with
  | nil => rfl
  | append_singleton earlier emission ih =>
    rw [List.foldl_append, List.foldl_cons, List.foldl_nil, toList_push, ih, List.mapIdx_concat,
      List.length_mapIdx]
    rfl

namespace Reading

variable {main : SourceUnit} {resolved : ResolvedUnits} {reading : Reading}

/-- The reading of the last line of the main unit, when that line has no line feed. -/
def IsOpenEnd (main : SourceUnit) (reading : Reading) : Prop :=
  reading.unit = main ∧ reading.isIncluded = false ∧ reading.index + 1 = main.lineCount ∧
    '\n' ∉ reading.line

/-- The last line of the main unit has no line feed and expands to the empty text. -/
def IsVanishedEnd (main : SourceUnit) (reading : Reading) : Prop :=
  reading.IsOpenEnd main ∧ ∃ emission, reading.emission? = some emission ∧ emission.text = []

/-- Whatever the reading emits is an ended line. -/
def EmitsEnded (reading : Reading) : Prop :=
  ∀ emission, reading.emission? = some emission → emission.text.IsEndedLine

/-- Only the end of the main unit is read without a line feed. -/
theorem ended_or_isOpenEnd (isFrom : reading.IsFrom main resolved)
    (units : ∀ entry ∈ resolved, entry.2.text = [] ∨ entry.2.text.getLast? = some '\n') :
    reading.line.IsEndedLine ∨ reading.IsOpenEnd main := by
  have one := (Text.isOneLine_of_mem_lines isFrom.line_mem).2
  rcases one.unbroken_or_ended with unbroken | ended
  · have last := Text.last_of_unbroken_line isFrom.found unbroken
    cases inside : reading.isIncluded with
    | false =>
      have unit := isFrom.outer inside
      exact Or.inr ⟨unit, inside, unit ▸ last.1, unbroken⟩
    | true =>
      rcases isFrom.included inside with ⟨key, known⟩
      rcases units (key, reading.unit) known with empty | feed
      · exact absurd empty last.2.1
      · exact absurd feed last.2.2
  · exact Or.inl ended

/-- An ended line emits ended lines only. -/
theorem emitsEnded (unbroken : reading.IsUnbroken) (ended : reading.line.IsEndedLine) :
    reading.EmitsEnded := by
  intro emission emitted
  rcases Option.map_eq_some_iff.1 emitted with ⟨segments, contributed, rfl⟩
  exact LineState.ended_of_emitted contributed unbroken.macros unbroken.unit ended

theorem EmitsEnded.not_isVanishedEnd (ended : reading.EmitsEnded) :
    ¬ reading.IsVanishedEnd main := by
  rintro ⟨_, emission, emitted, empty⟩
  exact (ended emission emitted).ne_nil empty

theorem emitsEnded_of_none (noEmission : reading.emission? = none) : reading.EmitsEnded := by
  intro emission emitted
  rw [noEmission] at emitted
  cases emitted

theorem emitsEnded_concat {readings : List Reading}
    (earlier : ∀ other ∈ readings, other.EmitsEnded) (final : reading.EmitsEnded) :
    ∀ other ∈ readings ++ [reading], other.EmitsEnded := by
  intro other member
  rcases List.mem_append.1 member with before | new
  · exact earlier other before
  · rw [List.mem_singleton.1 new]
    exact final

/-- Readings that emit ended lines emit the lines of what they emit. -/
theorem lines_of_emitsEnded {readings : List Reading}
    (ended : ∀ reading ∈ readings, reading.EmitsEnded) (rest : Text) :
    Text.lines ((readings.filterMap emission?).flatMap Emission.text ++ rest) =
      (readings.filterMap emission?).map Emission.text ++ rest.lines := by
  rw [List.flatMap_def]
  apply Text.lines_flatten_append
  intro piece member
  rcases List.mem_map.1 member with ⟨emission, inEmitted, rfl⟩
  rcases List.mem_filterMap.1 inEmitted with ⟨reading, known, emitted⟩
  exact ended reading known emission emitted

/-- A line without a line feed emits none. -/
theorem unbroken_of_emission {emission : Emission} (unbroken : reading.IsUnbroken)
    (inLine : '\n' ∉ reading.line) (emitted : reading.emission? = some emission) :
    '\n' ∉ emission.text := by
  rcases Option.map_eq_some_iff.1 emitted with ⟨segments, contributed, rfl⟩
  exact LineState.unbroken_of_emitted contributed unbroken.macros unbroken.unit inLine

end Reading

namespace Preprocessor

/-- A run that has nothing left to read. -/
def IsExhausted (preprocessor : Preprocessor) : Prop :=
  preprocessor.pending = none ∧ ∀ frame ∈ preprocessor.frames, frame.unread = []

/-- What readings have emitted: ended lines only, or behind them a last line without a line feed,
with which the run is exhausted. -/
def Closing (main : SourceUnit) (readings : List Reading) (last : Preprocessor) : Prop :=
  (∀ reading ∈ readings, reading.EmitsEnded) ∨
    ∃ earlier final emission, readings = earlier ++ [final] ∧
      (∀ reading ∈ earlier, reading.EmitsEnded) ∧ final.IsOpenEnd main ∧
      final.emission? = some emission ∧ '\n' ∉ emission.text ∧ last.IsExhausted

variable {main : SourceUnit} {preprocessor next : Preprocessor}

/-- The emitted lines are the lines of the expanded text, and an empty one behind them when the end
of the main unit has vanished. -/
theorem Closing.texts_eq {readings : List Reading} {last : Preprocessor}
    (closing : Closing main readings last) :
    ((∃ reading ∈ readings, reading.IsVanishedEnd main) →
      (readings.filterMap Reading.emission?).map Emission.text =
        Text.lines ((readings.filterMap Reading.emission?).flatMap Emission.text) ++ [[]]) ∧
    ((¬ ∃ reading ∈ readings, reading.IsVanishedEnd main) →
      (readings.filterMap Reading.emission?).map Emission.text =
        Text.lines ((readings.filterMap Reading.emission?).flatMap Emission.text)) := by
  rcases closing with allEnded | ⟨earlier, final, emission, rfl, ended, isEnd, emitted, text, _⟩
  · have whole := Reading.lines_of_emitsEnded allEnded []
    rw [List.append_nil, Text.lines_nil, List.append_nil] at whole
    refine ⟨?_, fun _ => whole.symm⟩
    rintro ⟨reading, member, vanished⟩
    exact absurd vanished (allEnded reading member).not_isVanishedEnd
  · have last : [final].filterMap Reading.emission? = [emission] := by simp [emitted]
    rw [List.filterMap_append, last, List.flatMap_append, List.map_append, List.flatMap_cons,
      List.flatMap_nil, List.append_nil, Reading.lines_of_emitsEnded ended, List.map_cons,
      List.map_nil]
    by_cases empty : emission.text = []
    · rw [empty, Text.lines_nil, List.append_nil]
      refine ⟨fun _ => rfl, fun none => ?_⟩
      exact absurd ⟨final, by simp, isEnd, emission, emitted, empty⟩ none
    · rw [Text.lines_of_unbroken text empty]
      refine ⟨?_, fun _ => rfl⟩
      rintro ⟨reading, member, vanished⟩
      rcases List.mem_append.1 member with before | new
      · exact absurd vanished (ended reading before).not_isVanishedEnd
      · rw [List.mem_singleton.1 new] at vanished
        rcases vanished.2 with ⟨other, same, none⟩
        rw [emitted] at same
        cases same
        exact absurd none empty

/-- Behind the end of the main unit, when it is emitted, there is nothing left to read. -/
theorem isExhausted_of_isOpenEnd {reading : Reading} {emission : Emission}
    (orderly : preprocessor.IsOrderly main) (idle : preprocessor.pending = none)
    (move : Move preprocessor (some reading) next) (isOpenEnd : reading.IsOpenEnd main)
    (emitted : reading.emission? = some emission) : next.IsExhausted := by
  rcases Option.map_eq_some_iff.1 emitted with ⟨segments, contributed, rfl⟩
  have noTarget := (LineState.emitted_of_read contributed).1
  cases move with
  | @read frame below line unread _ stack lines placement =>
    have whole := orderly.stack
    rw [stack] at whole
    have unit : frame.unit = main := isOpenEnd.1
    have outermost : below = [] := by
      have notInside := isOpenEnd.2.1
      simpa [readingOf] using notInside
    have finished : unread = [] := by
      have rest := whole.position.unread_eq lines
      have count : frame.linesRead + 1 = main.lineCount := isOpenEnd.2.2.1
      rw [unit, count] at rest
      rw [rest]
      exact List.drop_length
    cases placement with
    | plain =>
      refine ⟨idle, fun other member => ?_⟩
      rw [outermost] at member
      rw [List.mem_singleton.1 member]
      exact finished
    | skip asked | cycle asked | reuse asked | ask asked =>
      exact absurd (asked.symm.trans noTarget) (by simp)

/-- A line that is read behind ended lines emits an ended line, or it is the end of the main
unit. -/
theorem closing_of_move {readings : List Reading} {reading : Reading}
    (allEnded : ∀ other ∈ readings, other.EmitsEnded) (orderly : preprocessor.IsOrderly main)
    (unbroken : preprocessor.IsUnbroken) (idle : preprocessor.pending = none)
    (move : Move preprocessor (some reading) next) :
    Closing main (readings ++ [reading]) next := by
  have notBroken := unbroken.reading move
  rcases Reading.ended_or_isOpenEnd (orderly.isFrom move) orderly.ended with ended | isEnd
  · exact Or.inl (Reading.emitsEnded_concat allEnded (Reading.emitsEnded notBroken ended))
  · cases emitted : reading.emission? with
    | none =>
      exact Or.inl (Reading.emitsEnded_concat allEnded (Reading.emitsEnded_of_none emitted))
    | some emission =>
      have text := Reading.unbroken_of_emission notBroken isEnd.2.2.2 emitted
      exact Or.inr ⟨readings, reading, emission, rfl, allEnded, isEnd, emitted, text,
        isExhausted_of_isOpenEnd orderly idle move isEnd emitted⟩

/-- An exhausted run can only leave units. -/
theorem IsExhausted.move {reading : Option Reading} (exhausted : preprocessor.IsExhausted)
    (move : Move preprocessor reading next) : reading = none ∧ next.IsExhausted := by
  cases move with
  | leave stack _ =>
    refine ⟨rfl, exhausted.1, ?_⟩
    intro frame member
    apply exhausted.2 frame
    rw [stack]
    exact List.mem_cons_of_mem _ member
  | @read frame below line unread _ stack lines placement =>
    have empty := exhausted.2 frame (by simp [stack])
    rw [lines] at empty
    cases empty

namespace Course

variable {Answers : IncludeRequest → IncludeOutcome → Prop} {start last : Preprocessor}
  {readings : List Reading}

/-- Only the last line that is emitted can lack its line feed, and only when it is the end of the
main unit. -/
theorem closing (course : Course Answers start readings last) (first : start.IsOrderly main)
    (clean : start.IsUnbroken)
    (named : ∀ request unit, Answers request (.ok unit) → '\n' ∉ request.target →
      '\n' ∉ unit.name) :
    Closing main readings last := by
  refine course.keeps (Closing main) (Or.inl (by simp)) ?_ ?_
  · intro readings preprocessor reading next earlier closing idle move
    have orderly := earlier.orderly first
    have unbroken := (earlier.unbroken first clean named).1
    rcases closing with allEnded | ⟨before, final, emission, rfl, ended, isEnd, emitted, text,
      exhausted⟩
    · cases reading with
      | none => exact Or.inl (by simpa using allEnded)
      | some reading => exact closing_of_move allEnded orderly unbroken idle move
    · rcases exhausted.move move with ⟨rfl, still⟩
      exact Or.inr ⟨before, final, emission, by simp, ended, isEnd, emitted, text, still⟩
  · intro readings preprocessor request outcome _ closing waiting _
    rcases closing with allEnded | ⟨before, final, emission, _, _, _, _, _, exhausted⟩
    · exact Or.inl allEnded
    · rw [exhausted.1] at waiting
      cases waiting

end Course

end Preprocessor

end ScriptPreprocessor
