import ScriptPreprocessor.Proofs.Run.BlockReading

namespace ScriptPreprocessor

/-!
# Lines that are copied

Behind a line that switches preprocessing off, lines are copied until one switches it on again.
Nothing else comes of them: the macros, the include path and the blocks stay, no unit is asked for
and nothing is reported (`Preprocessor.run_of_switchedOff`).  Other directives are copied as well,
but a pragma is not; it is dropped without a word, so the lines come out whole exactly when there is
no pragma among them (`PlacedLine.text_copies_eq_iff`).
-/

/-- The pragma on a line, if there is one. -/
def Directive.linePragma? (line : Text) : Option Pragma := do
  let directive ← parse? line
  if directive.kind = .pragma then some (Pragma.parse directive.argument) else none

namespace PlacedLine

theorem isPragma_iff {line : PlacedLine} :
    line.IsPragma ↔ (Directive.linePragma? line.text).isSome = true := by
  cases parsed : Directive.parse? line.text <;>
    simp [IsPragma, Directive.linePragma?, parsed]

theorem IsPragma.ne_nil {line : PlacedLine} (pragma : line.IsPragma) : line.text ≠ [] := by
  rcases pragma with ⟨directive, parsed, _⟩
  intro empty
  rw [empty] at parsed
  cases parsed

/-! ## Copies -/

/-- What a copied line of a unit contributes. -/
def copied (unit : Text) (line : PlacedLine) : Emission :=
  ⟨⟨unit, line.number⟩, [.copied line.text]⟩

/-- What lines of a unit contribute when all but the pragmas are copied. -/
def copies (unit : Text) (lines : List PlacedLine) : List Emission :=
  (lines.filter fun line => ¬ line.IsPragma).map (copied unit)

section

variable (unit : Text) (line : PlacedLine) {lines : List PlacedLine}

@[simp] theorem origin_copied : (line.copied unit).origin = ⟨unit, line.number⟩ := rfl

@[simp] theorem text_copied : (line.copied unit).text = line.text := by
  simp [copied, Emission.text, Segment.expanded]

@[simp] theorem spans_copied : (line.copied unit).spans = [] := rfl

@[simp] theorem copies_nil : copies unit [] = [] := rfl

variable {line}

theorem copies_cons_of_pragma (pragma : line.IsPragma) :
    copies unit (line :: lines) = copies unit lines := by
  simp [copies, pragma]

theorem copies_cons_of_other (other : ¬ line.IsPragma) :
    copies unit (line :: lines) = line.copied unit :: copies unit lines := by
  simp [copies, other]

theorem length_copies_le (lines : List PlacedLine) :
    ((copies unit lines).flatMap Emission.text).length ≤
      (lines.map PlacedLine.text).flatten.length := by
  induction lines with
  | nil => exact le_rfl
  | cons line rest ih =>
    rw [List.map_cons, List.flatten_cons, List.length_append]
    by_cases pragma : line.IsPragma
    · rw [copies_cons_of_pragma unit pragma]
      exact ih.trans (Nat.le_add_left _ _)
    · rw [copies_cons_of_other unit pragma, List.flatMap_cons, List.length_append, text_copied]
      exact Nat.add_le_add_left ih _

/-- Lines are copied whole exactly when none of them is a pragma. -/
theorem text_copies_eq_iff (lines : List PlacedLine) :
    (copies unit lines).flatMap Emission.text = (lines.map PlacedLine.text).flatten ↔
      ∀ line ∈ lines, ¬ line.IsPragma := by
  induction lines with
  | nil => simp
  | cons line rest ih =>
    rw [List.forall_mem_cons, ← ih, List.map_cons, List.flatten_cons]
    by_cases pragma : line.IsPragma
    · rw [copies_cons_of_pragma unit pragma]
      refine iff_of_false (fun whole => ?_) (fun none => none.1 pragma)
      have shorter := length_copies_le unit rest
      have filled := List.length_pos_iff.2 pragma.ne_nil
      rw [whole, List.length_append] at shorter
      omega
    · rw [copies_cons_of_other unit pragma, List.flatMap_cons, text_copied,
        List.append_cancel_left_eq]
      exact (and_iff_right pragma).symm

end

end PlacedLine

namespace LineState

variable {state : LineState} {line : PlacedLine}

/-- The state behind a line that switches preprocessing off. -/
def switchedOff (state : LineState) : LineState :=
  { state with enabled := false }

/-! ## Lines that are read while preprocessing is off -/

theorem read_of_pragma {text : Text} {pragma : Pragma} (off : state.enabled = false)
    (found : Directive.linePragma? text = some pragma) (stays : pragma ≠ .preprocessorOn)
    (origin : Origin) : state.read origin text = state.skip := by
  rcases Option.bind_eq_some_iff.1 found with ⟨directive, parsed, asked⟩
  by_cases kind : directive.kind = .pragma
  · rw [if_pos kind] at asked
    have same : Pragma.parse directive.argument = pragma := Option.some.inj asked
    simp only [read, parsed, off, kind, Bool.not_false, if_true, readPragma, same]
    cases pragma with
    | preprocessorOn => exact absurd rfl stays
    | preprocessorOff =>
      -- Switching off what is off already changes nothing.
      rw [← off]
      rfl
    | includeFrom path => rfl
    | other argument => rfl
  · rw [if_neg kind] at asked
    cases asked

theorem read_of_other {text : Text} (off : state.enabled = false)
    (active : state.isActive = true) (found : Directive.linePragma? text = none)
    (origin : Origin) : state.read origin text = state.copy text := by
  unfold Directive.linePragma? at found
  cases parsed : Directive.parse? text with
  | none => simp [read, parsed, readPlain, off, active]
  | some directive =>
    have otherKind : directive.kind ≠ .pragma := fun kind => by simp [parsed, kind] at found
    simp [read, parsed, off, otherKind]

/-- A line that does not switch preprocessing on is copied, unless it is another pragma.  It changes
nothing and asks for nothing. -/
theorem ofEffect_of_off (off : state.enabled = false) (active : state.isActive = true)
    (stays : Directive.linePragma? line.text ≠ some .preprocessorOn) (unit : Text) :
    (state.read ⟨unit, line.number⟩ line.text).target = none ∧
      (state.read ⟨unit, line.number⟩ line.text).state = state ∧
      Passage.ofEffect ⟨unit, line.number⟩ (state.read ⟨unit, line.number⟩ line.text) =
        { state, emissions := PlacedLine.copies unit [line] } := by
  cases found : Directive.linePragma? line.text with
  | some pragma =>
    have isPragma : line.IsPragma := PlacedLine.isPragma_iff.2 (by rw [found]; rfl)
    have switches : pragma ≠ .preprocessorOn := by
      rintro rfl
      exact stays found
    rw [read_of_pragma off found switches, PlacedLine.copies_cons_of_pragma unit isPragma]
    exact ⟨rfl, rfl, rfl⟩
  | none =>
    have other : ¬ line.IsPragma := by simp [PlacedLine.isPragma_iff, found]
    rw [read_of_other off active found, PlacedLine.copies_cons_of_other unit other]
    exact ⟨rfl, rfl, rfl⟩

/-- Lines of which none switches preprocessing on are copied, all but the pragmas. -/
theorem readLines_of_off (off : state.enabled = false) (active : state.isActive = true)
    {lines : List PlacedLine}
    (stays : ∀ line ∈ lines, Directive.linePragma? line.text ≠ some .preprocessorOn)
    (unit : Text) :
    state.AsksNothing unit lines ∧
      state.readLines unit lines = { state, emissions := PlacedLine.copies unit lines } := by
  induction lines with
  | nil => exact ⟨trivial, rfl⟩
  | cons line rest ih =>
    rcases ofEffect_of_off off active (stays line List.mem_cons_self) unit with
      ⟨quiet, unchanged, passage⟩
    rcases ih fun other member => stays other (List.mem_cons_of_mem _ member) with
      ⟨restQuiet, restCopied⟩
    refine ⟨⟨quiet, by rwa [unchanged]⟩, ?_⟩
    rw [readLines_cons, passage, unchanged, restCopied]
    by_cases pragma : line.IsPragma
    · simp [Passage.andThen, PlacedLine.copies_cons_of_pragma unit pragma]
    · simp [Passage.andThen, PlacedLine.copies_cons_of_other unit pragma]

/-- Switching preprocessing off contributes nothing. -/
theorem read_of_switch {text : Text} (on : state.enabled = true) (active : state.isActive = true)
    (switches : Directive.linePragma? text = some .preprocessorOff) (origin : Origin) :
    state.read origin text = { state := state.switchedOff } := by
  rcases Option.bind_eq_some_iff.1 switches with ⟨directive, parsed, asked⟩
  by_cases kind : directive.kind = .pragma
  · rw [if_pos kind] at asked
    have same : Pragma.parse directive.argument = .preprocessorOff := Option.some.inj asked
    simp [read, parsed, on, kind, DirectiveKind.isConditional, active, readDirective, readPragma,
      same, switchedOff]
  · rw [if_neg kind] at asked
    cases asked

end LineState

namespace Preprocessor

/-- Behind an active line that switches preprocessing off, the lines up to the one that switches it
on again, or up to the end of their unit, are copied with their own places, all but the pragmas.
The run goes on behind them with the same macros, the same include path and the same blocks, and it
has nothing to say about them.  The lines come out whole exactly when none of them is a pragma. -/
theorem run_of_switchedOff {preprocessor : Preprocessor} {frame : Frame} {below : List Frame}
    {switch : Text} {lines rest : List Text} (stack : preprocessor.frames = frame :: below)
    (shape : frame.unread = switch :: (lines ++ rest)) (on : frame.enabled = true)
    (active : Block.isActive frame.blocks = true)
    (switches : Directive.linePragma? switch = some .preprocessorOff)
    (stays : ∀ line ∈ lines, Directive.linePragma? line ≠ some .preprocessorOn) :
    let region := PlacedLine.listFrom (frame.linesRead + 1) lines
    let off := (preprocessor.lineState frame).switchedOff
    preprocessor.run =
        (preprocessor.behindPassage
          { state := off, emissions := PlacedLine.copies frame.unit.name region }
          (advanceBy frame (lines.length + 1) rest off :: below)).run ∧
      (∀ line ∈ region, (line.copied frame.unit.name).text = line.text ∧
        (line.copied frame.unit.name).origin = ⟨frame.unit.name, line.number⟩ ∧
        (line.copied frame.unit.name).spans = []) ∧
      ((PlacedLine.copies frame.unit.name region).flatMap Emission.text = lines.flatten ↔
        ∀ line ∈ region, ¬ line.IsPragma) := by
  intro region off
  have texts : region.map PlacedLine.text = lines := PlacedLine.map_text_listFrom _ _
  have isOn : (preprocessor.lineState frame).enabled = true := on
  have isOff : off.enabled = false := rfl
  have switched := LineState.read_of_switch isOn active switches
    ⟨frame.unit.name, frame.linesRead + 1⟩
  have stayOff : ∀ line ∈ region, Directive.linePragma? line.text ≠ some .preprocessorOn :=
    fun line member => stays line.text (texts ▸ List.mem_map_of_mem member)
  rcases LineState.readLines_of_off isOff active stayOff frame.unit.name with ⟨quiet, copied⟩
  have front : PlacedLine.listFrom frame.linesRead (switch :: lines) =
      ⟨frame.linesRead + 1, switch⟩ :: region := rfl
  have passage : (preprocessor.lineState frame).readLines frame.unit.name
      (PlacedLine.listFrom frame.linesRead (switch :: lines)) =
      { state := off, emissions := PlacedLine.copies frame.unit.name region } := by
    rw [front, LineState.readLines_cons, switched]
    exact (congrArg _ copied).trans rfl
  have asksNothing : (preprocessor.lineState frame).AsksNothing frame.unit.name
      (PlacedLine.listFrom frame.linesRead (switch :: lines)) := by
    rw [front]
    exact ⟨by rw [switched], by rw [switched]; exact quiet⟩
  refine ⟨?_, fun line _ => ⟨line.text_copied _, rfl, rfl⟩, ?_⟩
  · have unread : frame.unread = (switch :: lines) ++ rest := shape
    have ran := run_of_quiet_lines stack unread asksNothing
    rwa [passage] at ran
  · rw [← PlacedLine.text_copies_eq_iff, texts]

/-- A definition and an include are copied, a pragma between them is not. -/
theorem run_of_switchedOff_include :
    (start { options := {}, macros := ⟨[], [], 32⟩ } ⟨"m".toList,
      "#pragma preprocessor-off\n#define Y 2\n#pragma note\n#include \"lib\"\n".toList, none⟩).2 =
      .finished
        { expanded := "#define Y 2\n#include \"lib\"\n".toList
          lineMap := (LineMap.push {} ⟨"m".toList, 2⟩ []).push ⟨"m".toList, 4⟩ []
          diagnostics := []
          units := [] } := by
  let main : SourceUnit := ⟨"m".toList,
    "#pragma preprocessor-off\n#define Y 2\n#pragma note\n#include \"lib\"\n".toList, none⟩
  have unread : (mainFrame {} main).unread = "#pragma preprocessor-off\n".toList ::
      (["#define Y 2\n".toList, "#pragma note\n".toList, "#include \"lib\"\n".toList] ++ []) := rfl
  rw [start, (run_of_switchedOff rfl unread rfl rfl (by decide) (by decide)).1,
    run_of_next (step_of_exhausted rfl rfl), run_of_finish rfl]
  decide +kernel

/-- While preprocessing is off, a pragma is left out of the expanded text, and nothing is said about
it. -/
theorem exists_line_dropped :
    ∃ (main : SourceUnit) (line : Text) (output : RunOutput),
      main.lines = ["#pragma preprocessor-off\n".toList, line, "x;\n".toList,
        "#pragma preprocessor-on\n".toList] ∧
      Directive.linePragma? "#pragma preprocessor-off\n".toList = some .preprocessorOff ∧
      Directive.linePragma? line ≠ some .preprocessorOn ∧
      (start (ofEnvironment {} .bare) main).2 = .finished output ∧
      line ∉ output.expanded.lines ∧
      (∀ entry ∈ output.lineMap.entries, entry.origin.line ≠ 2) ∧ output.diagnostics = [] := by
  let line : Text := "#pragma note\n".toList
  let main : SourceUnit := ⟨"m".toList,
    "#pragma preprocessor-off\n#pragma note\nx;\n#pragma preprocessor-on\n".toList, none⟩
  have ran : (start (ofEnvironment {} .bare) main).2 = .finished
      { expanded := "x;\n".toList
        lineMap := LineMap.push {} ⟨"m".toList, 3⟩ []
        diagnostics := []
        units := [] } := by
    rw [start, run_of_lines rfl (List.append_nil _).symm (by decide),
      run_of_next (step_of_exhausted rfl rfl), run_of_finish rfl]
    decide +kernel
  exact ⟨main, line, _, by decide, by decide, by decide, ran, by decide, by decide, rfl⟩

end Preprocessor

end ScriptPreprocessor
