import ScriptPreprocessor.Proofs.Run.Course

namespace ScriptPreprocessor

/-!
# Passages

Lines that include nothing are read one after another, each in the state that the line before it
has left.  What they come to together is a passage: a state, emitted lines and diagnostics.  A run
that has such lines before it is the run behind their passage (`Preprocessor.run_of_quiet_lines`),
so the stack of frames need not be looked at while a passage is studied.  A unit that consists of
such lines contributes the text of its passage (`Preprocessor.exists_output_of_lines`).
-/

/-- A line of a unit, with its number. -/
structure PlacedLine where
  number : Nat
  text : Text

/-- Lines with their numbers, when so many lines come before them. -/
def PlacedLine.listFrom : Nat → List Text → List PlacedLine
  | _, [] => []
  | before, text :: rest => ⟨before + 1, text⟩ :: listFrom (before + 1) rest

theorem PlacedLine.map_text_listFrom (before : Nat) (texts : List Text) :
    (listFrom before texts).map PlacedLine.text = texts := by
  induction texts generalizing before with
  | nil => rfl
  | cons text rest ih => exact congrArg (text :: ·) (ih (before + 1))

/-- What reading lines comes to. -/
structure Passage where
  state : LineState
  emissions : List Emission := []
  diagnostics : List Diagnostic := []

namespace Passage

/-- A passage and the one that begins in its state. -/
def andThen (first second : Passage) : Passage :=
  { state := second.state
    emissions := first.emissions ++ second.emissions
    diagnostics := first.diagnostics ++ second.diagnostics }

theorem andThen_assoc (first second third : Passage) :
    (first.andThen second).andThen third = first.andThen (second.andThen third) := by
  simp [andThen]

/-- The text that lines contribute. -/
def text (passage : Passage) : Text :=
  passage.emissions.flatMap Emission.text

@[simp] theorem text_andThen (first second : Passage) :
    (first.andThen second).text = first.text ++ second.text := by
  simp [text, andThen]

/-- The passage of one line. -/
def ofEffect (origin : Origin) (effect : LineEffect) : Passage :=
  { state := effect.state
    emissions := (effect.emitted.map fun segments => (⟨origin, segments⟩ : Emission)).toList
    diagnostics := effect.problems.map fun problem => problem.diagnosticAt origin }

end Passage

namespace LineState

/-- Reads lines of a unit, one after another. -/
def readLines (unit : Text) (state : LineState) : List PlacedLine → Passage
  | [] => { state }
  | line :: rest =>
    let first := Passage.ofEffect ⟨unit, line.number⟩ (state.read ⟨unit, line.number⟩ line.text)
    first.andThen (readLines unit first.state rest)

@[simp] theorem readLines_nil (unit : Text) (state : LineState) :
    state.readLines unit [] = { state } := rfl

theorem readLines_cons (unit : Text) (state : LineState) (line : PlacedLine)
    (rest : List PlacedLine) :
    state.readLines unit (line :: rest) =
      (Passage.ofEffect ⟨unit, line.number⟩
        (state.read ⟨unit, line.number⟩ line.text)).andThen
        ((state.read ⟨unit, line.number⟩ line.text).state.readLines unit rest) := rfl

theorem readLines_append (unit : Text) (state : LineState) (earlier later : List PlacedLine) :
    state.readLines unit (earlier ++ later) =
      (state.readLines unit earlier).andThen
        ((state.readLines unit earlier).state.readLines unit later) := by
  induction earlier generalizing state with
  | nil => simp [Passage.andThen]
  | cons line rest ih =>
    rw [List.cons_append, readLines_cons, ih, readLines_cons, Passage.andThen_assoc]
    rfl

/-- No line asks for a unit when the lines are read one after another. -/
def AsksNothing (unit : Text) (state : LineState) : List PlacedLine → Prop
  | [] => True
  | line :: rest =>
    (state.read ⟨unit, line.number⟩ line.text).target = none ∧
      (state.read ⟨unit, line.number⟩ line.text).state.AsksNothing unit rest

/-- Lines that name no unit ask for none, however they are read. -/
theorem asksNothing_of_absent {lines : List PlacedLine}
    (noTargets : ∀ line ∈ lines, Directive.lineTarget? line.text = none) (unit : Text)
    (state : LineState) : state.AsksNothing unit lines := by
  induction lines generalizing state with
  | nil => trivial
  | cons line rest ih =>
    refine ⟨?_, ih (fun other member => noTargets other (List.mem_cons_of_mem _ member)) _⟩
    cases asked : (state.read ⟨unit, line.number⟩ line.text).target with
    | none => rfl
    | some target =>
      have named := target_eq_of_read asked
      rw [noTargets line List.mem_cons_self] at named
      cases named

end LineState

namespace Preprocessor

/-- The preprocessor behind a passage. -/
def behindPassage (preprocessor : Preprocessor) (passage : Passage) (frames : List Frame) :
    Preprocessor :=
  { preprocessor with
    macros := passage.state.macros
    searchPath := passage.state.searchPath
    frames
    emissions := preprocessor.emissions ++ passage.emissions.toArray
    diagnostics := preprocessor.diagnostics ++ passage.diagnostics.toArray }

/-- The frame behind lines that have been read. -/
def advanceBy (frame : Frame) (count : Nat) (unread : List Text) (state : LineState) : Frame :=
  { frame with
    unread
    linesRead := frame.linesRead + count
    enabled := state.enabled
    blocks := state.blocks }

theorem behindPassage_andThen (preprocessor : Preprocessor) (first second : Passage)
    (between frames : List Frame) :
    (preprocessor.behindPassage first between).behindPassage second frames =
      preprocessor.behindPassage (first.andThen second) frames := by
  simp [behindPassage, Passage.andThen, Array.append_assoc]

/-- A line's effect is applied by its passage. -/
theorem apply_eq_behindPassage (preprocessor : Preprocessor) (origin : Origin)
    (effect : LineEffect) (frames : List Frame) :
    preprocessor.apply origin effect frames =
      preprocessor.behindPassage (Passage.ofEffect origin effect) frames := by
  unfold apply behindPassage Passage.ofEffect
  cases effect.emitted <;> simp

/-- Lines that ask for nothing are read without a pause. -/
theorem run_of_quiet_lines {preprocessor : Preprocessor} {frame : Frame} {below : List Frame}
    {lines rest : List Text} (stack : preprocessor.frames = frame :: below)
    (shape : frame.unread = lines ++ rest)
    (quiet : (preprocessor.lineState frame).AsksNothing frame.unit.name
      (PlacedLine.listFrom frame.linesRead lines)) :
    preprocessor.run =
      (preprocessor.behindPassage
        ((preprocessor.lineState frame).readLines frame.unit.name
          (PlacedLine.listFrom frame.linesRead lines))
        (advanceBy frame lines.length rest
          ((preprocessor.lineState frame).readLines frame.unit.name
            (PlacedLine.listFrom frame.linesRead lines)).state :: below)).run := by
  induction lines generalizing preprocessor frame with
  | nil =>
    have same : preprocessor.behindPassage { state := preprocessor.lineState frame }
        (advanceBy frame 0 rest (preprocessor.lineState frame) :: below) = preprocessor := by
      rw [List.nil_append] at shape
      simp [behindPassage, advanceBy, lineState, ← shape, ← stack]
    exact (congrArg run same).symm
  | cons line more ih =>
    have lines : frame.unread = line :: (more ++ rest) := shape
    have plain : (preprocessor.readingOf frame below line).effect.target = none := quiet.1
    have stepped := step_of_line stack lines
    rw [plain] at stepped
    have later := @ih (preprocessor.behind frame below line (more ++ rest)) _ rfl rfl quiet.2
    rw [run_of_next stepped, later, behind, apply_eq_behindPassage, behindPassage_andThen]
    simp only [advanceBy, advance, List.length_cons, Nat.add_assoc, Nat.add_comm 1]
    rfl

/-- Lines that include nothing are read without a pause. -/
theorem run_of_lines {preprocessor : Preprocessor} {frame : Frame} {below : List Frame}
    {lines rest : List Text} (stack : preprocessor.frames = frame :: below)
    (shape : frame.unread = lines ++ rest)
    (noTargets : ∀ line ∈ lines, Directive.lineTarget? line = none) :
    preprocessor.run =
      (preprocessor.behindPassage
        ((preprocessor.lineState frame).readLines frame.unit.name
          (PlacedLine.listFrom frame.linesRead lines))
        (advanceBy frame lines.length rest
          ((preprocessor.lineState frame).readLines frame.unit.name
            (PlacedLine.listFrom frame.linesRead lines)).state :: below)).run := by
  apply run_of_quiet_lines stack shape
  apply LineState.asksNothing_of_absent
  rwa [← List.forall_mem_map (P := fun text => Directive.lineTarget? text = none),
    PlacedLine.map_text_listFrom]

/-! ## Whole units -/

/-- The text that has been contributed. -/
def text (preprocessor : Preprocessor) : Text :=
  preprocessor.emissions.toList.flatMap Emission.text

/-- Behind its last line, a run that has no other unit on the stack is finished. -/
theorem run_of_last {last : Preprocessor} {frame : Frame} (stack : last.frames = [frame])
    (exhausted : frame.unread = []) :
    ∃ stopped output, last.run = (stopped, .finished output) ∧ output.expanded = last.text := by
  have left := run_of_next (step_of_exhausted stack exhausted)
  exact ⟨_, _, left.trans (run_of_finish rfl), rfl⟩

/-- A unit without includes comes to the passage of its lines. -/
theorem exists_output_of_lines {preprocessor : Preprocessor} {frame : Frame}
    (stack : preprocessor.frames = [frame])
    (noTargets : ∀ line ∈ frame.unread, Directive.lineTarget? line = none) :
    ∃ stopped output, preprocessor.run = (stopped, .finished output) ∧
      output.expanded = preprocessor.text ++
        ((preprocessor.lineState frame).readLines frame.unit.name
          (PlacedLine.listFrom frame.linesRead frame.unread)).text := by
  let passage := (preprocessor.lineState frame).readLines frame.unit.name
    (PlacedLine.listFrom frame.linesRead frame.unread)
  let behind := preprocessor.behindPassage passage
    [advanceBy frame frame.unread.length [] passage.state]
  have ran : preprocessor.run = behind.run :=
    run_of_lines stack (List.append_nil _).symm noTargets
  have left : behind.frames = [advanceBy frame frame.unread.length [] passage.state] := rfl
  rcases run_of_last left rfl with ⟨stopped, output, ended, expanded⟩
  refine ⟨stopped, output, ran.trans ended, expanded.trans ?_⟩
  simp [behind, behindPassage, text, Passage.text, passage]

end Preprocessor

end ScriptPreprocessor
