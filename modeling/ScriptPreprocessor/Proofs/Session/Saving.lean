import ScriptPreprocessor.Proofs.Document.Saving
import ScriptPreprocessor.Proofs.Session.Lines

namespace ScriptPreprocessor

/-!
# Loading what a session saved

What a finished session saves is loaded as the text of its main unit, unless the expanded text
holds a block of its own (`text_load_saveForm_iff`).  Such a block can come about although no unit
holds one, because directive lines are dropped: the lines around them become neighbours.
-/

namespace Session

variable {options : RunOptions} {environment : Environment} {main : SourceUnit}
  {session : Session} {output : RunOutput}

theorem saveForm_eq (done : session.phase = .done output) :
    session.saveForm = .ok (Document.save session.source.text output.expanded) := by
  unfold saveForm finish
  rw [done]
  rfl

/-- A finished session can be saved, and its main unit is loaded from what is saved exactly when
there is nothing to load or the expanded text leaves it. -/
theorem text_load_saveForm_iff (reached : Reached options environment main session)
    (done : session.phase = .done output) :
    ∃ saved, session.saveForm = .ok saved ∧
      ((Document.load saved).text = (Document.load main.text).text ↔
        (Document.load main.text).text = [] ∨
          Document.LeavesSource (Document.stripBlock output.expanded).withFinalNewline
            (Document.load main.text).text) := by
  have source : session.source = main := (isRunOf_of_reached reached).source
  refine ⟨Document.save main.text output.expanded, ?_, ?_⟩
  · rw [saveForm_eq done, source]
  · exact Document.text_load_save_iff main.text output.expanded

/-- A comment line and a definition are loaded again. -/
theorem text_load_saveForm_comment :
    ∃ main session output saved,
      main.text = "/* note */\n#define X\n".toList ∧ Reached {} .bare main session ∧
      session.phase = .done output ∧ output.expanded = "/* note */\n".toList ∧
      session.saveForm = .ok saved ∧
      (Document.load saved).text = (Document.load main.text).text := by
  have steps : ∃ after last,
      advances 3 ({}, opening {} .bare ⟨"m".toList, "/* note */\n#define X\n".toList, none⟩) =
        some (after, last) ∧ last.step = .finish ∧
      last.emissions.toList = [⟨⟨"m".toList, 1⟩, ((MacroTable.ofEnvironment .bare 32).expand
        ⟨"m".toList, 1⟩ "/* note */\n".toList).segments⟩] :=
    ⟨_, _, rfl, rfl, rfl⟩
  rcases steps with ⟨after, last, reached, finished, emissions⟩
  have reachable := reached_completed {} {} .bare
    ⟨"m".toList, "/* note */\n#define X\n".toList, none⟩
  have done := phase_completed reached finished
  have expanded : last.output.expanded = "/* note */\n".toList := by
    rw [last.expanded_output, emissions, List.flatMap_singleton, Emission.text_mk]
    exact MacroTable.text_expandActive_of_absent (by decide)
  rcases text_load_saveForm_iff reachable done with ⟨saved, isSaved, recovered⟩
  refine ⟨_, _, last.output, saved, rfl, reachable, done, expanded, isSaved, recovered.2 ?_⟩
  rw [expanded]
  exact Or.inr (Document.leavesSource_of_absent (by decide) (by decide) _)

/-- Two comment lines with a definition between them: the dropped line brings them together, and
they open a legacy block. -/
theorem exists_advances_joined :
    ∃ after last,
      advances 4 ({}, opening {} .bare
          ⟨"m".toList, "//start_unprocessed_text\n#define X\n/* note */\n".toList, none⟩) =
        some (after, last) ∧ last.step = .finish ∧
      last.output.expanded = "//start_unprocessed_text\n/* note */\n".toList := by
  have steps : ∃ after last,
      advances 4 ({}, opening {} .bare
          ⟨"m".toList, "//start_unprocessed_text\n#define X\n/* note */\n".toList, none⟩) =
        some (after, last) ∧ last.step = .finish ∧
      last.emissions.toList =
        [⟨⟨"m".toList, 1⟩, ((MacroTable.ofEnvironment .bare 32).expand ⟨"m".toList, 1⟩
            "//start_unprocessed_text\n".toList).segments⟩,
          ⟨⟨"m".toList, 3⟩, ((MacroTable.bareWith "X".toList []).expand ⟨"m".toList, 3⟩
            "/* note */\n".toList).segments⟩] :=
    ⟨_, _, rfl, rfl, rfl⟩
  rcases steps with ⟨after, last, reached, finished, emissions⟩
  have first : ((MacroTable.ofEnvironment .bare 32).expand ⟨"m".toList, 1⟩
      "//start_unprocessed_text\n".toList).text = "//start_unprocessed_text\n".toList :=
    MacroTable.text_expandActive_of_absent (by decide)
  have second : ((MacroTable.bareWith "X".toList []).expand ⟨"m".toList, 3⟩
      "/* note */\n".toList).text = "/* note */\n".toList :=
    MacroTable.text_expandActive_of_absent (by decide)
  refine ⟨after, last, reached, finished, ?_⟩
  rw [last.expanded_output, emissions]
  simp only [List.flatMap_cons, List.flatMap_nil, Emission.text_mk, first, second]
  decide

/-- Another text than that of the main unit is loaded. -/
theorem text_load_saveForm_ne :
    ∃ main session output saved,
      main.text = "//start_unprocessed_text\n#define X\n/* note */\n".toList ∧
      Reached {} .bare main session ∧ session.phase = .done output ∧
      session.saveForm = .ok saved ∧
      (Document.load saved).text ≠ (Document.load main.text).text := by
  rcases exists_advances_joined with ⟨after, last, reached, finished, expanded⟩
  have reachable := reached_completed {} {} .bare
    ⟨"m".toList, "//start_unprocessed_text\n#define X\n/* note */\n".toList, none⟩
  have done := phase_completed reached finished
  refine ⟨_, _, last.output, _, rfl, reachable, done, saveForm_eq done, ?_⟩
  rw [(isRunOf_of_reached reachable).source, expanded, ne_eq, Document.text_load_save_iff]
  decide +kernel

end Session

end ScriptPreprocessor
