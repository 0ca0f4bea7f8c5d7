import ScriptPreprocessor.Proofs.Macro.Segments
import ScriptPreprocessor.Proofs.Session.Lines
import ScriptPreprocessor.Proofs.Session.Shortcut

namespace ScriptPreprocessor

/-!
# Texts that are left alone

A text is left alone when none of its lines is a directive and none of the words outside of its
literals has a meaning.  The run is finished at once, the expanded text is the text itself,
character for character, and every line stands for itself.

Literals are those of a line: one that is not closed there ends with the line.  Nothing else is
asked of the text.  It may have carriage returns, quotation marks without a partner, and a last line
without a line feed.
-/

/-! ## Lines that are left alone -/

namespace Text

theorem exists_beforeEnd?_cons {first last : Char} (differs : first ≠ last) (rest : Text) :
    ∃ kept : Text, (beforeEnd? (first :: rest) [last]).getD (first :: rest) = first :: kept := by
  cases cut : beforeEnd? (first :: rest) [last] with
  | none => exact ⟨rest, rfl⟩
  | some front =>
    have shape := beforeEnd?_eq_some_iff.1 cut
    cases front with
    | nil => exact absurd (List.cons.inj shape).1 differs
    | cons other kept =>
      rw [(List.cons.inj shape).1]
      exact ⟨kept, rfl⟩

/-- Taking the ending off a line leaves its first character, unless that belongs to the ending. -/
theorem exists_withoutEnding_cons {first : Char} (noFeed : first ≠ '\n') (noReturn : first ≠ '\r')
    (rest : Text) : ∃ kept : Text, withoutEnding (first :: rest) = first :: kept := by
  rcases exists_beforeEnd?_cons noFeed rest with ⟨unfed, same⟩
  rcases exists_beforeEnd?_cons noReturn unfed with ⟨kept, sameToo⟩
  refine ⟨kept, ?_⟩
  rw [withoutEnding]
  simp only [same, sameToo]

end Text

/-- A line that begins with `#` is a directive. -/
theorem Directive.isSome_parse? (rest : Text) : (parse? ('#' :: rest)).isSome = true := by
  have noFeed : '#' ≠ '\n' := by decide
  have noReturn : '#' ≠ '\r' := by decide
  rcases Text.exists_withoutEnding_cons noFeed noReturn rest with ⟨kept, same⟩
  rw [parse?, same]
  rfl

namespace PlacedLine

theorem getElem?_listFrom (before : Nat) (texts : List Text) (index : Nat) :
    (listFrom before texts)[index]? =
      texts[index]?.map fun text => ⟨before + index + 1, text⟩ := by
  induction texts generalizing before index with
  | nil => rfl
  | cons text rest ih =>
    cases index with
    | zero => rfl
    | succ index =>
      rw [listFrom, List.getElem?_cons_succ, List.getElem?_cons_succ, ih, Nat.add_right_comm before,
        Nat.add_assoc before]

end PlacedLine

theorem PlacedLine.entryAt_pieces (unit : Text) (line : PlacedLine) (index : Nat) :
    Emission.entryAt index (line.pieces unit) = ⟨index + 1, ⟨unit, line.number⟩, []⟩ := by
  rw [Emission.entryAt, spans_pieces]
  rfl

namespace LineState

variable {state : LineState}

/-- Plain lines without meaning are copied one by one. -/
theorem readLines_of_inert (outside : state.IsOutside) (unit : Text) {lines : List PlacedLine}
    (plain : ∀ line ∈ lines, Directive.parse? line.text = none)
    (inert : ∀ line ∈ lines, state.macros.IsInert line.text) :
    state.readLines unit lines = { state, emissions := lines.map (PlacedLine.pieces unit) } := by
  induction lines with
  | nil => rfl
  | cons line rest ih =>
    rw [List.forall_mem_cons] at plain inert
    have first := read_of_inert outside plain.1 inert.1 ⟨unit, line.number⟩
    rw [readLines_cons, first, ih plain.2 inert.2]
    rfl

end LineState

/-! ## Units that are left alone -/

/-- What a run produces that leaves its main unit alone. -/
structure RunOutput.LeavesAlone (output : RunOutput) (main : SourceUnit) : Prop where
  expanded : output.expanded = main.text
  /-- There is one entry for every line, which stands for that line and has no spans. -/
  entries : ∀ index : Nat, output.lineMap.entries[index]? =
    if index < main.lineCount then some ⟨index + 1, ⟨main.name, index + 1⟩, []⟩ else none
  diagnostics : output.diagnostics = []
  units : output.units = []

namespace Preprocessor

/-- A unit without directives begins with its first line. -/
theorem mainFrame_of_plain {main : SourceUnit} (options : RunOptions)
    (plain : ∀ line ∈ main.lines, Directive.parse? line = none) :
    mainFrame options main = Frame.ofUnit main.name main := by
  refine mainFrame_cases (fun _ => rfl) fun {first rest} lines shebang => ?_
  -- A line that begins with `#!` would be a directive.
  rw [Bool.and_eq_true, Text.startsWith, List.isPrefixOf_iff_prefix] at shebang
  rcases shebang.2 with ⟨behind, rfl⟩
  have directive := Directive.isSome_parse? ('!' :: behind)
  have parsed : Directive.parse? ('#' :: '!' :: behind) = none :=
    plain _ (by rw [lines]; exact List.mem_cons_self)
  rw [parsed] at directive
  cases directive

/-- A run over plain lines without meaning is finished behind them, and has copied them. -/
theorem run_of_inert {preprocessor : Preprocessor} {frame : Frame}
    (stack : preprocessor.frames = [frame]) (outside : (preprocessor.lineState frame).IsOutside)
    (plain : ∀ line ∈ frame.unread, Directive.parse? line = none)
    (inert : ∀ line ∈ frame.unread, preprocessor.macros.IsInert line) :
    ∃ last : Preprocessor, preprocessor.run = (last.withoutOutput, .finished last.output) ∧
      last.emissions.toList = preprocessor.emissions.toList ++
        (PlacedLine.listFrom frame.linesRead frame.unread).map
          (PlacedLine.pieces frame.unit.name) ∧
      last.diagnostics = preprocessor.diagnostics ∧ last.resolved = preprocessor.resolved := by
  have noTargets : ∀ line ∈ frame.unread, Directive.lineTarget? line = none := by
    intro line member
    rw [Directive.lineTarget?, plain line member]
    rfl
  have inUnread {line : PlacedLine}
      (member : line ∈ PlacedLine.listFrom frame.linesRead frame.unread) :
      line.text ∈ frame.unread := PlacedLine.mem_of_mem_listFrom member
  have copied := LineState.readLines_of_inert outside frame.unit.name
    (fun line member => plain line.text (inUnread member))
    (fun line member => inert line.text (inUnread member))
  let passage : Passage := ⟨preprocessor.lineState frame,
    (PlacedLine.listFrom frame.linesRead frame.unread).map (PlacedLine.pieces frame.unit.name), []⟩
  let behind := preprocessor.behindPassage passage
    [advanceBy frame frame.unread.length [] passage.state]
  have ran : preprocessor.run = behind.run := by
    rw [run_of_lines stack (List.append_nil _).symm noTargets, copied]
  have left : behind.frames = [advanceBy frame frame.unread.length [] passage.state] := rfl
  refine ⟨_, ran.trans ((run_of_next (step_of_exhausted left rfl)).trans (run_of_finish rfl)),
    ?_, ?_, rfl⟩
  · simp [leave, behind, behindPassage, passage]
  · -- Nothing is open at the end of the unit.
    have noBlocks : frame.blocks = [] := outside.1
    simp [leave, behind, behindPassage, passage, advanceBy, lineState, Frame.closingDiagnostics,
      Block.unclosed, noBlocks]

/-- A text without directives and without words that have a meaning is left alone, by the engine and
by a session. -/
theorem start_leavesAlone {options : RunOptions} {environment : Environment} {main : SourceUnit}
    (plain : ∀ line ∈ main.lines, Directive.parse? line = none)
    (inert : ∀ line ∈ main.lines,
      (MacroTable.ofEnvironment environment options.maxExpansionDepth).IsInert line) :
    ∃ stopped output,
      (ofEnvironment options environment).start main = (stopped, .finished output) ∧
      output.LeavesAlone main ∧
      ∀ sources, Session.start sources options environment main =
        (⟨main, stopped, .done output⟩, sources) := by
  have entered : ((ofEnvironment options environment).enter main).frames =
      [Frame.ofUnit main.name main] := by
    rw [← mainFrame_of_plain options plain]
    rfl
  rcases run_of_inert entered ⟨rfl, rfl⟩ plain inert with
    ⟨last, ran, emissions, diagnostics, resolved⟩
  have copied : last.emissions.toList =
      (PlacedLine.listFrom 0 main.lines).map (PlacedLine.pieces main.name) := emissions
  refine ⟨last.withoutOutput, last.output, ran, ⟨?_, ?_, ?_, ?_⟩,
    fun sources => Session.drive_of_finished ran⟩
  · rw [expanded_output, copied, List.flatMap_map]
    simp only [PlacedLine.text_pieces]
    rw [List.flatMap_def, PlacedLine.map_text_listFrom]
    exact Text.flatten_lines main.text
  · intro index
    rw [← Array.getElem?_toList, entries_output, copied, List.getElem?_mapIdx, List.getElem?_map,
      PlacedLine.getElem?_listFrom]
    split
    · next inside =>
      rw [List.getElem?_eq_getElem inside]
      simp only [Option.map_some, PlacedLine.entryAt_pieces, Nat.zero_add]
    · next outside =>
      rw [List.getElem?_eq_none (Nat.le_of_not_lt outside)]
      rfl
  · rw [output, diagnostics]
    rfl
  · rw [output, resolved]
    rfl

/-- A unit with words that have a meaning inside of literals only, a number sign behind the
beginning of a line, a carriage return, a quotation mark without a partner, and no line feed at the
end. -/
def quietUnit : SourceUnit where
  name := "main".toList
  text := "a \"LIMIT \\\" __LINE__\" 'LIMIT';\r\n\nb # define LIMIT2 é\n\"__FILE__".toList

def limitedEnvironment : Environment :=
  { Environment.bare with predefined := [("LIMIT".toList, "9".toList)] }

theorem start_leavesAlone_quiet :
    (∀ line ∈ quietUnit.lines, Directive.parse? line = none) ∧
      (∀ line ∈ quietUnit.lines, (MacroTable.ofEnvironment limitedEnvironment 32).IsInert line) ∧
      ∃ stopped output,
        (ofEnvironment {} limitedEnvironment).start quietUnit = (stopped, .finished output) ∧
        output.LeavesAlone quietUnit := by
  have plain : ∀ line ∈ quietUnit.lines, Directive.parse? line = none := by decide
  have inert : ∀ line ∈ quietUnit.lines,
      (MacroTable.ofEnvironment limitedEnvironment 32).IsInert line := by decide +kernel
  rcases @start_leavesAlone {} limitedEnvironment quietUnit plain inert with
    ⟨stopped, output, started, alone, _⟩
  exact ⟨plain, inert, stopped, output, started, alone⟩

end Preprocessor

end ScriptPreprocessor
