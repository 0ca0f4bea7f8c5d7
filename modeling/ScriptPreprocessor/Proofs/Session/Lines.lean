import ScriptPreprocessor.Proofs.Run.Alignment
import ScriptPreprocessor.Proofs.Session.Ending

namespace ScriptPreprocessor

/-!
# The line map of a session

The entries of the line map of a finished session stand for the lines of its expanded text, one for
one and in order.  There is one entry more when the end of the main unit has vanished: its last
line has no line feed and expands to the empty text.
-/

@[simp] theorem Emission.text_mk (origin : Origin) (expansion : Expansion) :
    Emission.text ⟨origin, expansion.segments⟩ = expansion.text := rfl

theorem Preprocessor.expanded_output (preprocessor : Preprocessor) :
    preprocessor.output.expanded = preprocessor.emissions.toList.flatMap Emission.text := rfl

theorem Preprocessor.entries_output (preprocessor : Preprocessor) :
    preprocessor.output.lineMap.entries.toList =
      preprocessor.emissions.toList.mapIdx Emission.entryAt := by
  unfold output
  rw [← Array.foldl_toList, LineMap.toList_foldl_push]

/-- The entries of the line map stand for the lines of the expanded text, one for one and in order,
when these lines were read for it. -/
structure RunOutput.IsAligned (output : RunOutput) (main : SourceUnit) (readings : List Reading) :
    Prop where
  /-- Every entry has its own number, and the origin and the spans of what was emitted for it. -/
  entries : ∀ index : Nat, output.lineMap.entries[index]? =
    ((readings.filterMap Reading.emission?)[index]?).map (Emission.entryAt index)
  /-- Every line is the text that was emitted for its entry. -/
  lines : ∀ (index : Nat) (line : Text), output.expanded.lines[index]? = some line →
    ((readings.filterMap Reading.emission?)[index]?).map Emission.text = some line
  vanished : (∃ reading ∈ readings, reading.IsVanishedEnd main) →
    output.lineMap.size = output.expanded.lines.length + 1
  whole : (¬ ∃ reading ∈ readings, reading.IsVanishedEnd main) →
    output.lineMap.size = output.expanded.lines.length

namespace Session

variable {options : RunOptions} {environment : Environment} {main : SourceUnit}
  {session : Session} {output : RunOutput} {readings : List Reading}

theorem isOrderly_opening (options : RunOptions) (environment : Environment) (main : SourceUnit) :
    (opening options environment main).IsOrderly main :=
  Preprocessor.isOrderly_enter options environment main

/-- Names that fit what was asked for have no line feed when what was asked for has none. -/
theorem unbroken_of_fits (request : IncludeRequest) (unit : SourceUnit)
    (fits : request.Fits (.ok unit)) (asked : '\n' ∉ request.target) : '\n' ∉ unit.name := by
  rw [fits unit rfl]
  exact asked

theorem Journal.entries_eq (journal : Journal options environment main output readings) :
    output.lineMap.entries.toList =
      (readings.filterMap Reading.emission?).mapIdx Emission.entryAt := by
  rcases journal with ⟨last, follows, _, shape⟩
  have emitted : last.emissions.toList = readings.filterMap Reading.emission? := follows.emissions
  rw [shape, ← emitted]
  exact last.entries_output

theorem Journal.expanded_eq (journal : Journal options environment main output readings) :
    output.expanded = (readings.filterMap Reading.emission?).flatMap Emission.text := by
  rcases journal with ⟨last, follows, _, shape⟩
  rw [shape]
  exact congrArg (List.flatMap Emission.text) follows.emissions

theorem Journal.size_eq (journal : Journal options environment main output readings) :
    output.lineMap.size =
      ((readings.filterMap Reading.emission?).map Emission.text).length := by
  have count := congrArg List.length journal.entries_eq
  rw [Array.length_toList, List.length_mapIdx] at count
  rw [List.length_map]
  exact count

section

variable (builtins : ∀ entry ∈ environment.builtins, '\n' ∉ entry.2)
  (predefined : ∀ entry ∈ environment.predefined, '\n' ∉ entry.2) (name : '\n' ∉ main.name)

include builtins predefined name

/-- The emitted lines are the lines of the expanded text, but for a vanished end. -/
theorem Journal.texts_eq (journal : Journal options environment main output readings) :
    ((∃ reading ∈ readings, reading.IsVanishedEnd main) →
      (readings.filterMap Reading.emission?).map Emission.text =
        output.expanded.lines ++ [[]]) ∧
    ((¬ ∃ reading ∈ readings, reading.IsVanishedEnd main) →
      (readings.filterMap Reading.emission?).map Emission.text = output.expanded.lines) := by
  rw [journal.expanded_eq]
  rcases journal with ⟨last, follows, _, _⟩
  have closing := follows.closing (isOrderly_opening options environment main)
    (Preprocessor.isUnbroken_enter options builtins predefined name) unbroken_of_fits
  exact closing.texts_eq

/-- Every line of the expanded text is emitted, in its place. -/
theorem Journal.exists_emission (journal : Journal options environment main output readings)
    {index : Nat} {line : Text} (found : output.expanded.lines[index]? = some line) :
    ∃ emission, (readings.filterMap Reading.emission?)[index]? = some emission ∧
      emission.text = line := by
  have texts := journal.texts_eq builtins predefined name
  apply Option.map_eq_some_iff.1
  rw [← List.getElem?_map]
  by_cases vanished : ∃ reading ∈ readings, reading.IsVanishedEnd main
  · have bound := (List.getElem?_eq_some_iff.1 found).1
    rw [texts.1 vanished, List.getElem?_append_left bound]
    exact found
  · rw [texts.2 vanished]
    exact found

end

/-- Without line feeds in built-in texts, predefined values and the name of the main unit, every
entry of the line map stands for one line of the expanded text, which is the text emitted for it.
Only a last entry, for the end of the main unit, can stand for no line. -/
theorem entries_stand_for_lines (reached : Reached options environment main session)
    (done : session.phase = .done output)
    (builtins : ∀ entry ∈ environment.builtins, '\n' ∉ entry.2)
    (predefined : ∀ entry ∈ environment.predefined, '\n' ∉ entry.2) (name : '\n' ∉ main.name) :
    ∃ readings, Journal options environment main output readings ∧
      output.IsAligned main readings := by
  rcases (isRunOf_of_reached reached).done output done with ⟨readings, journal⟩
  have texts := journal.texts_eq builtins predefined name
  refine ⟨readings, journal, ?_, ?_, ?_, ?_⟩
  · intro index
    rw [← Array.getElem?_toList, journal.entries_eq, List.getElem?_mapIdx]
  · intro index line found
    rcases journal.exists_emission builtins predefined name found with ⟨emission, there, text⟩
    rw [there, ← text]
    rfl
  · intro vanished
    rw [journal.size_eq, texts.1 vanished, List.length_append]
    rfl
  · intro none
    rw [journal.size_eq, texts.2 none]

/-- The end of a main unit vanishes behind the unit that it includes, so there are two entries for
one line. -/
theorem entries_stand_for_lines_vanished :
    ∃ main session output readings,
      main.text = "#define E\n#include \"a\"\nE".toList ∧ Reached {} .bare main session ∧
      session.phase = .done output ∧ output.expanded = "x\n".toList ∧ output.lineMap.size = 2 ∧
      (∀ entry ∈ Environment.bare.builtins, '\n' ∉ entry.2) ∧
      (∀ entry ∈ Environment.bare.predefined, '\n' ∉ entry.2) ∧ '\n' ∉ main.name ∧
      Journal {} .bare main output readings ∧ output.IsAligned main readings := by
  have steps : ∃ after last,
      advances 6 ({ files := .ofEntries [("./a".toList, .contents [120])] },
          opening {} .bare ⟨"m".toList, "#define E\n#include \"a\"\nE".toList, none⟩) =
        some (after, last) ∧ last.step = .finish ∧
      last.emissions.toList =
        [⟨⟨"a".toList, 1⟩, ((MacroTable.bareWith "E".toList []).expand ⟨"a".toList, 1⟩
            "x\n".toList).segments⟩,
          ⟨⟨"m".toList, 3⟩, ((MacroTable.bareWith "E".toList []).expand ⟨"m".toList, 3⟩
            ['E']).segments⟩] :=
    ⟨_, _, rfl, rfl, rfl⟩
  rcases steps with ⟨after, last, reached, finished, emissions⟩
  have done := phase_completed reached finished
  have copied : ((MacroTable.bareWith "E".toList []).expand ⟨"a".toList, 1⟩ "x\n".toList).text =
      "x\n".toList :=
    MacroTable.text_expandActive_of_absent (by decide)
  have vanished :
      ((MacroTable.bareWith "E".toList []).expand ⟨"m".toList, 3⟩ ['E']).text = [] := by
    unfold MacroTable.expand
    rw [MacroTable.text_expandActive_of_object "E".toList [] rfl rfl
      (by decide) (by decide), MacroTable.text_expandActive_of_absent (by decide),
      MacroTable.text_expandActive_of_absent (by decide)]
    rfl
  have expanded : last.output.expanded = "x\n".toList := by
    rw [last.expanded_output, emissions]
    simp only [List.flatMap_cons, List.flatMap_nil, Emission.text_mk, copied, vanished,
      List.append_nil]
  have size : last.output.lineMap.size = 2 := by
    have entries := congrArg List.length last.entries_output
    rw [emissions] at entries
    exact entries
  have reachable := reached_completed { files := .ofEntries [("./a".toList, .contents [120])] } {}
    .bare ⟨"m".toList, "#define E\n#include \"a\"\nE".toList, none⟩
  rcases entries_stand_for_lines reachable done (by decide) (by decide) (by decide) with
    ⟨readings, journal, aligned⟩
  exact ⟨_, _, last.output, readings, rfl, reachable, done, expanded, size, by decide, by decide,
    by decide, journal, aligned⟩

end Session

end ScriptPreprocessor
