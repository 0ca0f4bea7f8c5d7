import ScriptPreprocessor.Run.Frame

namespace ScriptPreprocessor

/-!
# Runs of the preprocessor

A run expands a main unit line by line.  It goes on until the stack of frames is empty, or until an
include asks for a unit that the run does not have; then it waits for an answer.  One preprocessor
may expand several main units one after another: the macros and the include path stay, and the
output of each run is taken out.

`Preprocessor.step` reads one line or leaves one unit, and `Preprocessor.run` repeats it.  What a
step can do is said once, case by case (`Preprocessor.Steps`).  Every step lowers the potential of
the stack, so the repetition ends.
-/

/-- Whether a unit that was included before is spliced again. -/
inductive IncludeMode where
  | always
  | once
  deriving DecidableEq, Repr

/-- The options of a run.  The defaults are those that hold without any configuration. -/
structure RunOptions where
  includeMode : IncludeMode := .always
  maxExpansionDepth : Nat := 32
  /-- Whether a first line that begins with `#!` is left out. -/
  skipShebang : Bool := true
  deriving DecidableEq, Repr

/-- One line of the expanded text, with the line it came from.  It is kept in segments until the
end, from which the text and the spans follow without being able to disagree. -/
structure Emission where
  origin : Origin
  segments : List Segment
  deriving DecidableEq, Repr

namespace Emission

def text (emission : Emission) : Text :=
  emission.segments.flatMap Segment.expanded

/-- The macro invocations that were replaced on the line. -/
def spans (emission : Emission) : List MacroSpan :=
  Segment.spansFrom 0 0 emission.segments

end Emission

/-- What a finished run has produced.  The line map has one entry for every line of the expanded
text that was emitted, in order. -/
structure RunOutput where
  expanded : Text
  lineMap : LineMap
  diagnostics : List Diagnostic
  /-- The units that were included, in the order in which they were first resolved. -/
  units : List SourceUnit
  deriving DecidableEq, Repr

/-- The state of a preprocessor.  Known units are in the order in which they were first resolved,
and the macros and the include path outlive a run. -/
structure Preprocessor where
  options : RunOptions
  macros : MacroTable
  searchPath : Option Text := none
  frames : List Frame := []
  emissions : Array Emission := #[]
  diagnostics : Array Diagnostic := #[]
  resolved : ResolvedUnits := []
  pending : Option IncludeRequest := none

/-- What a run has come to. -/
inductive RunResult where
  | paused (request : IncludeRequest)
  | finished (output : RunOutput)
  deriving DecidableEq, Repr

inductive RunStep where
  | next (preprocessor : Preprocessor)
  | pause (preprocessor : Preprocessor) (request : IncludeRequest)
  | finish

namespace Preprocessor

def ofEnvironment (options : RunOptions) (environment : Environment) : Preprocessor :=
  { options, macros := .ofEnvironment environment options.maxExpansionDepth }

/-! ## Steps -/

def lineState (preprocessor : Preprocessor) (frame : Frame) : LineState :=
  { macros := preprocessor.macros
    searchPath := preprocessor.searchPath
    enabled := frame.enabled
    blocks := frame.blocks }

def advance (frame : Frame) (unread : List Text) (state : LineState) : Frame :=
  { frame with
    unread
    linesRead := frame.linesRead + 1
    enabled := state.enabled
    blocks := state.blocks }

/-- The preprocessor behind a line with an effect.  The output only grows, and what the line says
about itself is placed on that line. -/
def apply (preprocessor : Preprocessor) (origin : Origin) (effect : LineEffect)
    (frames : List Frame) : Preprocessor :=
  { preprocessor with
    macros := effect.state.macros
    searchPath := effect.state.searchPath
    frames
    emissions :=
      match effect.emitted with
      | some segments => preprocessor.emissions.push ⟨origin, segments⟩
      | none => preprocessor.emissions
    diagnostics := preprocessor.diagnostics ++
      (effect.problems.map fun problem => problem.diagnosticAt origin).toArray }

/-- What the run does about an include on the line that was read last.  A unit that is known is
spliced, unless it is to be spliced only once; a unit that is being expanded is never spliced into
itself; any other unit is asked for. -/
def includeUnit (preprocessor : Preprocessor) (origin : Origin) (location : Option Location)
    (target : Text) : RunStep :=
  let known := preprocessor.resolved.lookup target
  if known.isSome ∧ preprocessor.options.includeMode = .once then
    .next preprocessor
  else if ∃ frame ∈ preprocessor.frames, frame.key = target then
    let chain := (preprocessor.frames.map Frame.key).reverse
    .next { preprocessor with
      diagnostics :=
        preprocessor.diagnostics.push ((Problem.includeCycle target chain).diagnosticAt origin) }
  else
    match known with
    | some unit =>
      .next { preprocessor with frames := Frame.ofUnit target unit :: preprocessor.frames }
    | none =>
      let request : IncludeRequest :=
        { target
          searchPath := preprocessor.searchPath
          includer := origin.unit
          location
          line := origin.line }
      .pause { preprocessor with pending := some request } request

/-- Reads the next line of the innermost unit, or leaves the unit when none is left. -/
def step (preprocessor : Preprocessor) : RunStep :=
  match preprocessor.frames with
  | [] => .finish
  | frame :: below =>
    match frame.unread with
    | [] =>
      .next { preprocessor with
        frames := below
        diagnostics := preprocessor.diagnostics ++
          (frame.closingDiagnostics !below.isEmpty).toArray }
    | line :: unread =>
      let origin : Origin := ⟨frame.unit.name, frame.linesRead + 1⟩
      let effect := (preprocessor.lineState frame).read origin line
      let behind := preprocessor.apply origin effect (advance frame unread effect.state :: below)
      match effect.target with
      | none => .next behind
      | some target => behind.includeUnit origin frame.unit.location target

/-! ## What a step can do -/

theorem mem_of_lookup_eq_some {resolved : ResolvedUnits} {target : Text} {unit : SourceUnit}
    (found : resolved.lookup target = some unit) : (target, unit) ∈ resolved := by
  obtain ⟨earlier, later, rfl, _⟩ := List.lookup_eq_some_iff.1 found
  simp

/-- What becomes of the unit that a line includes, if it includes one.  The guards are those under
which `includeUnit` takes the branch, so nothing has to be unfolded again. -/
inductive Decides (preprocessor : Preprocessor) (origin : Origin) (location : Option Location) :
    Option Text → RunStep → Prop
  /-- The line includes nothing. -/
  | plain : Decides preprocessor origin location none (.next preprocessor)
  /-- The unit is known, and units are spliced only once. -/
  | skip {target : Text} (known : (preprocessor.resolved.lookup target).isSome = true)
      (once : preprocessor.options.includeMode = .once) :
      Decides preprocessor origin location (some target) (.next preprocessor)
  /-- The unit is being expanded. -/
  | cycle {target : Text}
      (notSkipped : ¬ ((preprocessor.resolved.lookup target).isSome = true ∧
        preprocessor.options.includeMode = .once))
      (expanding : ∃ frame ∈ preprocessor.frames, frame.key = target) :
      Decides preprocessor origin location (some target)
        (.next { preprocessor with
          diagnostics := preprocessor.diagnostics.push
            ((Problem.includeCycle target (preprocessor.frames.map Frame.key).reverse).diagnosticAt
              origin) })
  /-- The unit is known and spliced again. -/
  | reuse {target : Text} {unit : SourceUnit} (always : preprocessor.options.includeMode ≠ .once)
      (known : preprocessor.resolved.lookup target = some unit)
      (fresh : ∀ frame ∈ preprocessor.frames, frame.key ≠ target) :
      Decides preprocessor origin location (some target)
        (.next { preprocessor with frames := Frame.ofUnit target unit :: preprocessor.frames })
  /-- The unit is not known, and it is asked for. -/
  | ask {target : Text} {request : IncludeRequest}
      (unknown : preprocessor.resolved.lookup target = none)
      (fresh : ∀ frame ∈ preprocessor.frames, frame.key ≠ target)
      (asked : request =
        ⟨target, preprocessor.searchPath, origin.unit, location, origin.line⟩) :
      Decides preprocessor origin location (some target)
        (.pause { preprocessor with pending := some request } request)

theorem decides_includeUnit (preprocessor : Preprocessor) (origin : Origin)
    (location : Option Location) (target : Text) :
    Decides preprocessor origin location (some target)
      (preprocessor.includeUnit origin location target) := by
  unfold includeUnit
  simp only
  split
  · next skipped => exact .skip skipped.1 skipped.2
  · next notSkipped =>
    split
    · next expanding => exact .cycle notSkipped expanding
    · next notExpanding =>
      have fresh : ∀ frame ∈ preprocessor.frames, frame.key ≠ target :=
        fun frame member same => notExpanding ⟨frame, member, same⟩
      split
      · next unit known =>
        exact .reuse (fun once => notSkipped ⟨by simp [known], once⟩) known fresh
      · next unknown => exact .ask unknown fresh rfl

/-- A request is for a name that is not known, and nothing changes but that it is pending. -/
theorem Decides.of_pause {preprocessor paused : Preprocessor} {origin : Origin}
    {location : Option Location} {asked : Option Text} {request : IncludeRequest}
    (decides : Decides preprocessor origin location asked (.pause paused request)) :
    asked = some request.target ∧ preprocessor.resolved.lookup request.target = none ∧
      paused = { preprocessor with pending := some request } := by
  cases decides with
  | ask unknown fresh asked =>
    subst asked
    exact ⟨rfl, unknown, rfl⟩

/-- What a step does.  Every invariant of a run is proved from these three cases, and from those of
`Decides`. -/
inductive Steps (preprocessor : Preprocessor) : RunStep → Prop
  /-- No unit is left. -/
  | finish (empty : preprocessor.frames = []) : Steps preprocessor .finish
  /-- The innermost unit has no line left. -/
  | leave {frame : Frame} {below : List Frame} (stack : preprocessor.frames = frame :: below)
      (exhausted : frame.unread = []) :
      Steps preprocessor
        (.next { preprocessor with
          frames := below
          diagnostics := preprocessor.diagnostics ++
            (frame.closingDiagnostics !below.isEmpty).toArray })
  /-- The next line of the innermost unit is read. -/
  | read {frame : Frame} {below : List Frame} {line : Text} {unread : List Text}
      {outcome : RunStep} (origin : Origin) (effect : LineEffect)
      (stack : preprocessor.frames = frame :: below) (lines : frame.unread = line :: unread)
      (place : origin = ⟨frame.unit.name, frame.linesRead + 1⟩)
      (reads : effect = (preprocessor.lineState frame).read origin line)
      (decides : Decides
        (preprocessor.apply origin effect (advance frame unread effect.state :: below)) origin
        frame.unit.location effect.target outcome) :
      Steps preprocessor outcome

theorem steps_step (preprocessor : Preprocessor) : Steps preprocessor preprocessor.step := by
  unfold step
  split
  · next empty => exact .finish empty
  · next frame below stack =>
    split
    · next exhausted => exact .leave stack exhausted
    · next line unread lines =>
      refine .read _ _ stack lines rfl rfl ?_
      simp only
      split
      · next noTarget =>
        rw [noTarget]
        exact .plain
      · next target asked =>
        rw [asked]
        exact decides_includeUnit _ _ _ target

theorem steps_of_eq {preprocessor : Preprocessor} {outcome : RunStep}
    (stepped : preprocessor.step = outcome) : Steps preprocessor outcome :=
  stepped ▸ steps_step preprocessor

/-! ## Potentials -/

def potential (preprocessor : Preprocessor) : Nat :=
  Frame.potential preprocessor.resolved preprocessor.frames

/-- An include lowers the potential again once the weight of its line is taken into account. -/
theorem Decides.potential_lt {preprocessor next : Preprocessor} {origin : Origin}
    {location : Option Location} {asked : Option Text}
    (decides : Decides preprocessor origin location asked (.next next)) :
    next.potential < preprocessor.potential +
      Frame.lineWeight preprocessor.resolved
        (Frame.unusedUnits preprocessor.resolved preprocessor.frames) := by
  have positive := Frame.lineWeight_pos preprocessor.resolved
    (Frame.unusedUnits preprocessor.resolved preprocessor.frames)
  cases decides with
  | plain | skip | cycle => exact Nat.lt_add_of_pos_right positive
  | reuse always known fresh =>
    exact Frame.potential_splice_lt (mem_of_lookup_eq_some known) fresh

/-- Behind a line, the potential has dropped by the weight of a line. -/
theorem potential_apply {preprocessor : Preprocessor} {frame : Frame} {below : List Frame}
    {line : Text} {unread : List Text} (origin : Origin) (effect : LineEffect)
    (stack : preprocessor.frames = frame :: below) (lines : frame.unread = line :: unread) :
    let behind := preprocessor.apply origin effect (advance frame unread effect.state :: below)
    behind.potential + Frame.lineWeight behind.resolved
      (Frame.unusedUnits behind.resolved behind.frames) = preprocessor.potential := by
  have read := Frame.potential_read preprocessor.resolved frame
    (advance frame unread effect.state) below rfl lines
  simpa [potential, apply, stack] using read

/-- Every step lowers the potential. -/
theorem potential_lt_of_step {preprocessor next : Preprocessor}
    (stepped : preprocessor.step = .next next) : next.potential < preprocessor.potential := by
  cases steps_of_eq stepped with
  | @leave frame below stack =>
    simpa [potential, stack] using Frame.potential_tail_lt preprocessor.resolved frame below
  | read origin effect stack lines place reads decides =>
    rw [← potential_apply origin effect stack lines]
    exact decides.potential_lt

theorem potential_lt_of_step_pause {preprocessor paused : Preprocessor} {request : IncludeRequest}
    (stepped : preprocessor.step = .pause paused request) :
    paused.potential < preprocessor.potential := by
  cases steps_of_eq stepped with
  | read origin effect stack lines place reads decides =>
    rcases decides.of_pause with ⟨-, -, rfl⟩
    rw [← potential_apply origin effect stack lines]
    exact Nat.lt_add_of_pos_right (Frame.lineWeight_pos _ _)

/-! ## Runs -/

def output (preprocessor : Preprocessor) : RunOutput :=
  { expanded := preprocessor.emissions.toList.flatMap Emission.text
    lineMap := preprocessor.emissions.foldl
      (fun map emission => map.push emission.origin emission.spans) {}
    diagnostics := preprocessor.diagnostics.toList
    units := preprocessor.resolved.map Prod.snd }

/-- The preprocessor without the output it holds.  The units that were included go with it, so that
the next main unit asks for them anew. -/
def withoutOutput (preprocessor : Preprocessor) : Preprocessor :=
  { preprocessor with emissions := #[], diagnostics := #[], resolved := [] }

/-- Goes on until the units are exhausted or an include is asked for.  A finished run leaves a
preprocessor without output, ready for the next main unit. -/
def run (preprocessor : Preprocessor) : Preprocessor × RunResult :=
  match _stepped : preprocessor.step with
  | .next next => run next
  | .pause paused request => (paused, .paused request)
  | .finish => (preprocessor.withoutOutput, .finished preprocessor.output)
  termination_by preprocessor.potential
  decreasing_by exact potential_lt_of_step _stepped

/-- A run that pauses has lowered the potential. -/
theorem potential_lt_of_run {preprocessor paused : Preprocessor} {request : IncludeRequest}
    (ran : preprocessor.run = (paused, .paused request)) :
    paused.potential < preprocessor.potential := by
  fun_induction run preprocessor with
  | case1 preprocessor next stepped ih =>
    exact Nat.lt_trans (ih ran) (potential_lt_of_step stepped)
  | case2 preprocessor stopped asked stepped =>
    simp only [Prod.mk.injEq, RunResult.paused.injEq] at ran
    obtain ⟨rfl, rfl⟩ := ran
    exact potential_lt_of_step_pause stepped
  | case3 => simp at ran

/-- The frame of a main unit, without its first line when that is to be left out.  The line still
counts, so that positions are those of the unit. -/
def mainFrame (options : RunOptions) (unit : SourceUnit) : Frame :=
  let frame := Frame.ofUnit unit.name unit
  match frame.unread with
  | first :: rest =>
    if options.skipShebang && first.startsWith "#!".toList then
      { frame with unread := rest, linesRead := 1 }
    else frame
  | [] => frame

/-- A main unit begins with its first line, or behind it. -/
@[elab_as_elim]
theorem mainFrame_cases {options : RunOptions} {unit : SourceUnit} {motive : Frame → Prop}
    (whole : (∀ first rest, unit.lines = first :: rest →
      (options.skipShebang && first.startsWith "#!".toList) = false) →
        motive (.ofUnit unit.name unit))
    (behind : ∀ {first : Text} {rest : List Text}, unit.lines = first :: rest →
      (options.skipShebang && first.startsWith "#!".toList) = true →
        motive { Frame.ofUnit unit.name unit with unread := rest, linesRead := 1 }) :
    motive (mainFrame options unit) := by
  have unread : (Frame.ofUnit unit.name unit).unread = unit.lines := rfl
  unfold mainFrame
  simp only [unread]
  split
  · next first rest lines =>
    split
    · next dropped => exact behind lines dropped
    · next kept =>
      refine whole fun other later shape => ?_
      cases lines.symm.trans shape
      exact Bool.eq_false_iff.2 kept
  · next empty => exact whole fun first rest shape => nomatch empty.symm.trans shape

def enter (preprocessor : Preprocessor) (unit : SourceUnit) : Preprocessor :=
  { preprocessor with
    frames := mainFrame preprocessor.options unit :: preprocessor.frames }

def start (preprocessor : Preprocessor) (unit : SourceUnit) : Preprocessor × RunResult :=
  (preprocessor.enter unit).run

/-- The preprocessor with a unit that answers a request, ready to expand it.  It is known under the
name that was asked for, and its last line is ended, since what follows the `#include` comes right
behind it. -/
def splice (preprocessor : Preprocessor) (request : IncludeRequest) (unit : SourceUnit) :
    Preprocessor :=
  { preprocessor with
    pending := none
    resolved := preprocessor.resolved ++ [(request.target, unit.withFinalNewline)]
    frames := Frame.ofUnit request.target unit.withFinalNewline :: preprocessor.frames }

def fail (preprocessor : Preprocessor) (request : IncludeRequest) (failure : IncludeFailure) :
    Preprocessor :=
  { preprocessor with
    pending := none
    diagnostics := preprocessor.diagnostics.push
      ((Problem.includeFailure failure).diagnosticAt ⟨request.includer, request.line⟩) }

def answered (preprocessor : Preprocessor) (request : IncludeRequest) :
    IncludeOutcome → Preprocessor
  | .ok unit => preprocessor.splice request unit
  | .error failure => preprocessor.fail request failure

theorem pending_answered (preprocessor : Preprocessor) (request : IncludeRequest)
    (outcome : IncludeOutcome) : (preprocessor.answered request outcome).pending = none := by
  cases outcome <;> rfl

/-- Goes on with the answer to the pending request.  Without a pending request the answer is not
looked at. -/
def resume (preprocessor : Preprocessor) (answer : IncludeAnswer) : Preprocessor × RunResult :=
  match preprocessor.pending with
  | none => preprocessor.run
  | some request =>
    match answer with
    | .pending => (preprocessor, .paused request)
    | .resolved unit => (preprocessor.answered request (.ok unit)).run
    | .failed failure => (preprocessor.answered request (.error failure)).run

end Preprocessor

def RunOutput.hasErrors (output : RunOutput) : Bool :=
  output.diagnostics.any Diagnostic.isError

end ScriptPreprocessor
