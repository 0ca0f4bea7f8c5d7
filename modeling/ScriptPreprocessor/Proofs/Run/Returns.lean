import Mathlib.Data.List.Forall2
import ScriptPreprocessor.Proofs.Macro.Endings
import ScriptPreprocessor.Proofs.Run.Alignment
import ScriptPreprocessor.Proofs.Run.Splices
import ScriptPreprocessor.Proofs.Text.Returns

namespace ScriptPreprocessor

/-!
# Runs over texts with carriage returns

The texts of a run can be given with a carriage return in front of every line feed.  When every line
is ended and has no other carriage return, the run over these texts goes step by step like the run
over the given ones: `Preprocessor.Mirrors` relates the two, and a step leads from states that are
related to states that are related (`Preprocessor.Mirrors.step`).

They differ in the expanded lines only, and there only in the endings.  For this no line feed may
come from a macro, so that the one line feed of an expanded line is the ending of the line that was
read (`Preprocessor.IsPlain`).
-/

/-! ## With carriage returns -/

/-- A unit with a carriage return in front of every line feed. -/
def SourceUnit.withReturns (unit : SourceUnit) : SourceUnit :=
  { unit with text := unit.text.withReturns }

/-- A frame of a unit with carriage returns. -/
def Frame.withReturns (frame : Frame) : Frame :=
  { frame with
    unit := frame.unit.withReturns
    unread := frame.unread.map Text.withReturns }

/-- Known units with carriage returns. -/
def ResolvedUnits.withReturns (units : ResolvedUnits) : ResolvedUnits :=
  units.map fun entry => (entry.1, entry.2.withReturns)

/-- An answer, the unit with carriage returns if it is one. -/
def IncludeAnswer.withReturns : IncludeAnswer → IncludeAnswer
  | .resolved unit => .resolved unit.withReturns
  | .failed failure => .failed failure
  | .pending => .pending

/-- An output with carriage returns in the expanded text and in the units.  What is said about lines
stays the same. -/
def RunOutput.withReturns (output : RunOutput) : RunOutput :=
  { output with
    expanded := output.expanded.withReturns
    units := output.units.map SourceUnit.withReturns }

/-- The result of a run, with carriage returns in the output. -/
def RunResult.withReturns : RunResult → RunResult
  | .paused request => .paused request
  | .finished output => .finished output.withReturns

/-- An ended line that has no carriage return. -/
def Text.IsPlainLine (line : Text) : Prop :=
  line.IsEndedLine ∧ '\r' ∉ line

/-- A unit in which every line is ended and has no carriage return, under a name without a line
feed. -/
structure SourceUnit.IsPlain (unit : SourceUnit) : Prop where
  name : '\n' ∉ unit.name
  noReturn : '\r' ∉ unit.text
  ended : unit.text = [] ∨ unit.text.getLast? = some '\n'

namespace SourceUnit

theorem lines_withReturns (unit : SourceUnit) :
    unit.withReturns.lines = unit.lines.map Text.withReturns :=
  Text.lines_withReturns unit.text

theorem lineCount_withReturns (unit : SourceUnit) :
    unit.withReturns.lineCount = unit.lineCount := by
  rw [lineCount, lines_withReturns, List.length_map, lineCount]

theorem IsPlain.lines {unit : SourceUnit} (plain : unit.IsPlain) :
    ∀ line ∈ unit.lines, line.IsPlainLine := by
  intro line member
  refine ⟨Text.ended_of_mem_lines plain.ended member, fun inLine => plain.noReturn ?_⟩
  rw [← Text.flatten_lines unit.text]
  exact List.mem_flatten_of_mem member inLine

/-- The last line of a plain unit is ended already. -/
theorem IsPlain.withFinalNewline {unit : SourceUnit} (plain : unit.IsPlain) :
    unit.withFinalNewline = unit ∧ unit.withReturns.withFinalNewline = unit.withReturns := by
  have ended := Text.ends_withReturns plain.ended
  constructor
  · simp only [SourceUnit.withFinalNewline, Text.withFinalNewline_of_ends plain.ended]
  · simp only [SourceUnit.withFinalNewline, SourceUnit.withReturns,
      Text.withFinalNewline_of_ends ended]

end SourceUnit

theorem Frame.ofUnit_withReturns (key : Text) (unit : SourceUnit) :
    ofUnit key unit.withReturns = (ofUnit key unit).withReturns := by
  simp only [ofUnit, withReturns, SourceUnit.lines_withReturns]

theorem Frame.closingDiagnostics_withReturns (frame : Frame) (wasIncluded : Bool) :
    frame.withReturns.closingDiagnostics wasIncluded = frame.closingDiagnostics wasIncluded := by
  have count : frame.withReturns.unit.lineCount = frame.unit.lineCount :=
    SourceUnit.lineCount_withReturns frame.unit
  unfold closingDiagnostics
  rw [count]
  rfl

theorem ResolvedUnits.lookup_withReturns (units : ResolvedUnits) (target : Text) :
    units.withReturns.lookup target = (units.lookup target).map SourceUnit.withReturns := by
  induction units with
  | nil => rfl
  | cons entry more ih =>
    unfold ResolvedUnits.withReturns at ih ⊢
    rw [List.map_cons, List.lookup_cons, List.lookup_cons, ih]
    cases target == entry.1 <;> rfl

/-! ## Lines -/

/-- Segments of a line, and segments of the same line with a carriage return. -/
structure Segment.Mirrors (short long : List Segment) : Prop where
  expanded : long.flatMap expanded = Text.withReturns (short.flatMap Segment.expanded)
  spans : spansFrom 0 0 long = spansFrom 0 0 short

/-- The effect of a line, and the effect of the same line with a carriage return. -/
structure LineEffect.Mirrors (effect other : LineEffect) : Prop where
  state : other.state = effect.state
  problems : other.problems = effect.problems
  target : other.target = effect.target
  emitted : Option.Rel Segment.Mirrors effect.emitted other.emitted

theorem LineEffect.mirrors_of_silent {effect : LineEffect} (silent : effect.emitted = none) :
    effect.Mirrors effect :=
  ⟨rfl, rfl, rfl, by rw [silent]; exact .none⟩

theorem Directive.parse?_withReturns {line : Text} (plain : line.IsPlainLine) :
    parse? line.withReturns = parse? line := by
  rcases plain with ⟨⟨body, unbroken, rfl⟩, noReturn⟩
  have inBody : '\r' ∉ body := fun member => noReturn (List.mem_append_left _ member)
  have same := Text.withoutEnding_of_ended inBody
  rw [Text.withReturns_of_ended unbroken]
  simp only [parse?, same.1, same.2]

/-- What replaces macros has no line feed, so the expansions of a line with the one and with the
other ending differ in the ending only. -/
theorem MacroTable.mirrors_expand {table : MacroTable} {origin : Origin} {line : Text}
    (unbroken : table.IsUnbroken) (inUnit : '\n' ∉ origin.unit) (ended : line.IsEndedLine) :
    (table.expand origin line.withReturns).issues = (table.expand origin line).issues ∧
      Segment.Mirrors (table.expand origin line).segments
        (table.expand origin line.withReturns).segments := by
  rcases ended with ⟨body, inBody, rfl⟩
  have feed : Text.IsEnding ['\n'] := by simp [Text.IsEnding]
  have both : Text.IsEnding ['\r', '\n'] := by simp [Text.IsEnding]
  have short := isEndedBy_expand table origin feed body
  have long := isEndedBy_expand table origin both body
  have inExpansion := unbroken_expand unbroken inUnit inBody
  rw [Text.withReturns_of_ended inBody]
  refine ⟨long.issues.trans short.issues.symm, ?_, (long.spans 0 0).trans (short.spans 0 0).symm⟩
  calc (table.expand origin (body ++ ['\r', '\n'])).text
      = (table.expand origin body).text ++ ['\r', '\n'] := long.text
    _ = Text.withReturns ((table.expand origin body).text ++ ['\n']) :=
        (Text.withReturns_of_ended inExpansion).symm
    _ = Text.withReturns (table.expand origin (body ++ ['\n'])).text := by rw [short.text]

namespace LineState

variable {state : LineState} {origin : Origin} {line : Text}

theorem mirrors_copy (state : LineState) (line : Text) :
    (state.copy line).Mirrors (state.copy line.withReturns) := by
  refine ⟨rfl, rfl, rfl, .some ⟨?_, rfl⟩⟩
  simp [Segment.expanded]

theorem mirrors_readPlain (unbroken : state.macros.IsUnbroken) (inUnit : '\n' ∉ origin.unit)
    (ended : line.IsEndedLine) :
    (state.readPlain origin line).Mirrors (state.readPlain origin line.withReturns) := by
  unfold readPlain
  split
  · exact LineEffect.mirrors_of_silent rfl
  · split
    · have same := MacroTable.mirrors_expand unbroken inUnit ended
      refine ⟨rfl, ?_, rfl, .some same.2⟩
      simp only [expandLine, same.1]
    · exact mirrors_copy state line

theorem mirrors_readDirective (state : LineState) (line : Text) (directive : Directive) :
    (state.readDirective line directive).Mirrors
      (state.readDirective line.withReturns directive) := by
  have copied := mirrors_copy state line
  unfold readDirective
  cases directive.kind with
  | inclusion =>
    simp only [readInclude]
    split
    · exact LineEffect.mirrors_of_silent rfl
    · exact ⟨rfl, rfl, rfl, copied.emitted⟩
  | definition =>
    simp only [readDefinition]
    split <;> exact LineEffect.mirrors_of_silent rfl
  | removal =>
    simp only [readRemoval]
    split <;> exact LineEffect.mirrors_of_silent rfl
  | pragma => exact LineEffect.mirrors_of_silent (emitted_of_readPragma state _)
  | unknown => exact ⟨rfl, rfl, rfl, copied.emitted⟩
  | _ => exact LineEffect.mirrors_of_silent rfl

/-- A line with a carriage return has the effect of the line without it, up to the ending of what it
contributes. -/
theorem mirrors_read (unbroken : state.macros.IsUnbroken) (inUnit : '\n' ∉ origin.unit)
    (plain : line.IsPlainLine) :
    (state.read origin line).Mirrors (state.read origin line.withReturns) := by
  unfold read
  rw [Directive.parse?_withReturns plain]
  cases Directive.parse? line with
  | none => exact mirrors_readPlain unbroken inUnit plain.1
  | some directive =>
    simp only
    split
    · split
      · exact LineEffect.mirrors_of_silent (emitted_of_readPragma state _)
      · exact mirrors_copy state line
    · split
      · exact LineEffect.mirrors_of_silent (emitted_of_readConditional state origin directive)
      · split
        · exact mirrors_readDirective state line directive
        · exact LineEffect.mirrors_of_silent rfl

end LineState

/-! ## Emitted lines -/

/-- An emitted line, and what is emitted for the same line with a carriage return. -/
structure Emission.Mirrors (emission other : Emission) : Prop where
  origin : other.origin = emission.origin
  segments : Segment.Mirrors emission.segments other.segments

section Emissions

variable {emissions others : List Emission}

theorem Emission.flatMap_text_of_mirrors
    (mirrors : List.Forall₂ Emission.Mirrors emissions others) :
    others.flatMap Emission.text = Text.withReturns (emissions.flatMap Emission.text) := by
  induction mirrors with
  | nil => rfl
  | cons first _ ih =>
    rw [List.flatMap_cons, List.flatMap_cons, Text.withReturns_append, ih]
    exact congrArg (· ++ _) first.segments.expanded

/-- The line map does not tell the two apart. -/
theorem LineMap.foldl_push_of_mirrors (mirrors : List.Forall₂ Emission.Mirrors emissions others)
    (map : LineMap) :
    others.foldl (fun map emission => map.push emission.origin emission.spans) map =
      emissions.foldl (fun map emission => map.push emission.origin emission.spans) map := by
  induction mirrors generalizing map with
  | nil => rfl
  | @cons emission other _ _ first _ ih =>
    have spans : other.spans = emission.spans := first.segments.spans
    rw [List.foldl_cons, List.foldl_cons, first.origin, spans, ih]

end Emissions

/-! ## Steps -/

namespace Preprocessor

/-- A run, and the run over the same texts with carriage returns, when they have come equally
far. -/
structure Mirrors (preprocessor other : Preprocessor) : Prop where
  options : other.options = preprocessor.options
  macros : other.macros = preprocessor.macros
  searchPath : other.searchPath = preprocessor.searchPath
  frames : other.frames = preprocessor.frames.map Frame.withReturns
  emissions : List.Forall₂ Emission.Mirrors preprocessor.emissions.toList other.emissions.toList
  diagnostics : other.diagnostics = preprocessor.diagnostics
  resolved : other.resolved = preprocessor.resolved.withReturns
  pending : other.pending = preprocessor.pending

/-- A run in which line feeds stand only at the end of lines, and no carriage return stands in a
line. -/
structure IsPlain (preprocessor : Preprocessor) : Prop where
  macros : preprocessor.macros.IsUnbroken
  names : ∀ frame ∈ preprocessor.frames, '\n' ∉ frame.unit.name
  lines : ∀ frame ∈ preprocessor.frames, ∀ line ∈ frame.unread, line.IsPlainLine
  known : ∀ entry ∈ preprocessor.resolved, entry.2.IsPlain

/-- Two steps that lead equally far. -/
inductive StepMirrors : RunStep → RunStep → Prop
  | next {preprocessor other : Preprocessor} (mirrors : preprocessor.Mirrors other) :
      StepMirrors (.next preprocessor) (.next other)
  | pause {preprocessor other : Preprocessor} {request again : IncludeRequest}
      (mirrors : preprocessor.Mirrors other) (same : again = request) :
      StepMirrors (.pause preprocessor request) (.pause other again)
  | finish : StepMirrors .finish .finish

variable {preprocessor other next : Preprocessor}

namespace Mirrors

theorem keys (mirrors : preprocessor.Mirrors other) :
    other.frames.map Frame.key = preprocessor.frames.map Frame.key := by
  rw [mirrors.frames, List.map_map]
  rfl

theorem report (mirrors : preprocessor.Mirrors other) (diagnostic : Diagnostic) :
    Mirrors { preprocessor with diagnostics := preprocessor.diagnostics.push diagnostic }
      { other with diagnostics := other.diagnostics.push diagnostic } :=
  { mirrors with diagnostics := congrArg (Array.push · diagnostic) mirrors.diagnostics }

theorem enterUnit (mirrors : preprocessor.Mirrors other) (key : Text) (unit : SourceUnit) :
    Mirrors { preprocessor with frames := Frame.ofUnit key unit :: preprocessor.frames }
      { other with frames := Frame.ofUnit key unit.withReturns :: other.frames } := by
  refine { mirrors with frames := ?_ }
  rw [mirrors.frames, List.map_cons, Frame.ofUnit_withReturns]

theorem leave (mirrors : preprocessor.Mirrors other) (frame : Frame) (below : List Frame) :
    (preprocessor.leave frame below).Mirrors
      (other.leave frame.withReturns (below.map Frame.withReturns)) := by
  refine { mirrors with frames := rfl, diagnostics := ?_ }
  simp only [Preprocessor.leave, mirrors.diagnostics, Frame.closingDiagnostics_withReturns,
    List.isEmpty_map]

theorem apply (mirrors : preprocessor.Mirrors other) {effect changed : LineEffect}
    (same : effect.Mirrors changed) (origin : Origin) (frames : List Frame) :
    (preprocessor.apply origin effect frames).Mirrors
      (other.apply origin changed (frames.map Frame.withReturns)) := by
  refine { mirrors with
    macros := congrArg LineState.macros same.state
    searchPath := congrArg LineState.searchPath same.state
    frames := rfl
    emissions := ?_
    diagnostics := ?_ }
  · have contributed := same.emitted
    simp only [Preprocessor.apply]
    generalize effect.emitted = mine at contributed ⊢
    generalize changed.emitted = theirs at contributed ⊢
    cases contributed with
    | none => exact mirrors.emissions
    | some segments =>
      simp only [Array.toList_push]
      exact List.rel_append mirrors.emissions (.cons ⟨rfl, segments⟩ .nil)
  · simp only [Preprocessor.apply, mirrors.diagnostics, same.problems]

/-- Both runs do the same about an include. -/
theorem includeUnit (mirrors : preprocessor.Mirrors other) (origin : Origin)
    (location : Option Location) (target : Text) :
    StepMirrors (preprocessor.includeUnit origin location target)
      (other.includeUnit origin location target) := by
  have known : other.resolved.lookup target =
      (preprocessor.resolved.lookup target).map SourceUnit.withReturns := by
    rw [mirrors.resolved, ResolvedUnits.lookup_withReturns]
  have once : other.options.includeMode = .once ↔ preprocessor.options.includeMode = .once := by
    rw [mirrors.options]
  have onStack : (∃ frame ∈ other.frames, frame.key = target) ↔
      ∃ frame ∈ preprocessor.frames, frame.key = target := by
    rw [← List.mem_map, ← List.mem_map, mirrors.keys]
  simp only [Preprocessor.includeUnit, known, Option.isSome_map, once, onStack, mirrors.keys]
  split
  · exact .next mirrors
  · split
    · exact .next (mirrors.report _)
    · cases preprocessor.resolved.lookup target with
      | some unit => exact .next (mirrors.enterUnit target unit)
      | none =>
        have sameRequest : IncludeRequest.mk target other.searchPath origin.unit location
            origin.line = ⟨target, preprocessor.searchPath, origin.unit, location, origin.line⟩ :=
          by rw [mirrors.searchPath]
        exact .pause { mirrors with pending := congrArg some sameRequest } sameRequest

section Reading

variable {frame : Frame} {below : List Frame} {line : Text} {unread : List Text}

/-- The next line is read with the same effect. -/
theorem effect (mirrors : preprocessor.Mirrors other) (plain : preprocessor.IsPlain)
    (stack : preprocessor.frames = frame :: below) (lines : frame.unread = line :: unread) :
    (preprocessor.readingOf frame below line).effect.Mirrors
      (other.readingOf frame.withReturns (below.map Frame.withReturns)
        line.withReturns).effect := by
  have sameState : other.lineState frame.withReturns = preprocessor.lineState frame := by
    simp only [lineState, mirrors.macros, mirrors.searchPath]
    rfl
  have inFrames : frame ∈ preprocessor.frames := by simp [stack]
  have isPlain := plain.lines frame inFrames line (by simp [lines])
  simp only [Reading.effect, readingOf, sameState]
  exact LineState.mirrors_read plain.macros (plain.names frame inFrames) isPlain

theorem behind (mirrors : preprocessor.Mirrors other) (plain : preprocessor.IsPlain)
    (stack : preprocessor.frames = frame :: below) (lines : frame.unread = line :: unread) :
    (preprocessor.behind frame below line unread).Mirrors
      (other.behind frame.withReturns (below.map Frame.withReturns) line.withReturns
        (unread.map Text.withReturns)) := by
  have same := mirrors.effect plain stack lines
  simp only [Preprocessor.behind]
  rw [same.state]
  exact mirrors.apply same _ (advance frame unread _ :: below)

/-- One step of both runs. -/
theorem step (mirrors : preprocessor.Mirrors other) (plain : preprocessor.IsPlain) {taken : RunStep}
    (stepped : preprocessor.step = taken) :
    ∃ again, other.step = again ∧ StepMirrors taken again := by
  refine ⟨other.step, rfl, ?_⟩
  rw [← stepped]
  cases stack : preprocessor.frames with
  | nil =>
    have empty : other.frames = [] := by rw [mirrors.frames, stack, List.map_nil]
    simp only [Preprocessor.step, stack, empty]
    exact .finish
  | cons frame below =>
    have otherStack : other.frames = frame.withReturns :: below.map Frame.withReturns := by
      rw [mirrors.frames, stack, List.map_cons]
    cases lines : frame.unread with
    | nil =>
      have exhausted : frame.withReturns.unread = [] := congrArg (List.map Text.withReturns) lines
      rw [step_of_exhausted stack lines, step_of_exhausted otherStack exhausted]
      exact .next (mirrors.leave frame below)
    | cons line unread =>
      have otherLines : frame.withReturns.unread =
          line.withReturns :: unread.map Text.withReturns :=
        congrArg (List.map Text.withReturns) lines
      have later := mirrors.behind plain stack lines
      rw [step_of_line stack lines, step_of_line otherStack otherLines,
        (mirrors.effect plain stack lines).target]
      cases (preprocessor.readingOf frame below line).effect.target with
      | none => exact .next later
      | some target => exact later.includeUnit _ _ target

end Reading

/-- What the two runs hand out differs in the endings only. -/
theorem output (mirrors : preprocessor.Mirrors other) :
    other.output = preprocessor.output.withReturns := by
  have expanded := Emission.flatMap_text_of_mirrors mirrors.emissions
  have lineMap := LineMap.foldl_push_of_mirrors mirrors.emissions {}
  rw [Array.foldl_toList, Array.foldl_toList] at lineMap
  simp only [Preprocessor.output, RunOutput.withReturns, expanded, lineMap, mirrors.diagnostics,
    mirrors.resolved, ResolvedUnits.withReturns, List.map_map]
  rfl

theorem withoutOutput (mirrors : preprocessor.Mirrors other) :
    preprocessor.withoutOutput.Mirrors other.withoutOutput :=
  { mirrors with emissions := .nil, diagnostics := rfl, resolved := rfl }

end Mirrors

/-! ## Plain runs -/

namespace IsPlain

/-- Every move keeps a run plain. -/
theorem move {reading : Option Reading} (plain : preprocessor.IsPlain)
    (move : Move preprocessor reading next) : next.IsPlain := by
  cases move with
  | @leave frame below stack exhausted =>
    have inFrames : ∀ outer ∈ below, outer ∈ preprocessor.frames := by simp_all
    exact ⟨plain.macros, fun outer member => plain.names outer (inFrames outer member),
      fun outer member => plain.lines outer (inFrames outer member), plain.known⟩
  | @read frame below line unread _ stack lines placement =>
    have inFrames : frame ∈ preprocessor.frames := by simp [stack]
    have outer : ∀ other ∈ below, other ∈ preprocessor.frames := by simp_all
    have ended := (plain.lines frame inFrames line (by simp [lines])).1
    have behind : (preprocessor.behind frame below line unread).IsPlain := by
      refine ⟨LineState.isUnbroken_of_read plain.macros ended.isOneLine, ?_, ?_, plain.known⟩
      · exact List.forall_mem_cons.2 ⟨plain.names frame inFrames,
          fun other member => plain.names other (outer other member)⟩
      · refine List.forall_mem_cons.2 ⟨fun later member => ?_,
          fun other member => plain.lines other (outer other member)⟩
        exact plain.lines frame inFrames later (lines ▸ List.mem_cons_of_mem _ member)
    cases placement with
    | plain | skip | cycle | ask => exact ⟨behind.macros, behind.names, behind.lines, behind.known⟩
    | @reuse target unit _ _ known _ =>
      have isPlain := plain.known _ (mem_of_lookup_eq_some known)
      exact ⟨behind.macros, List.forall_mem_cons.2 ⟨isPlain.name, behind.names⟩,
        List.forall_mem_cons.2 ⟨isPlain.lines, behind.lines⟩, behind.known⟩

theorem withoutOutput (plain : preprocessor.IsPlain) : preprocessor.withoutOutput.IsPlain :=
  ⟨plain.macros, plain.names, plain.lines, List.forall_mem_nil _⟩

/-- An answer keeps a run plain when the unit it brings is plain. -/
theorem answered (plain : preprocessor.IsPlain) (request : IncludeRequest)
    (outcome : IncludeOutcome) (fits : ∀ unit, outcome = .ok unit → unit.IsPlain) :
    (preprocessor.answered request outcome).IsPlain := by
  cases outcome with
  | error failure => exact ⟨plain.macros, plain.names, plain.lines, plain.known⟩
  | ok unit =>
    have isPlain := fits unit rfl
    simp only [Preprocessor.answered, splice, isPlain.withFinalNewline.1]
    refine ⟨plain.macros, List.forall_mem_cons.2 ⟨isPlain.name, plain.names⟩,
      List.forall_mem_cons.2 ⟨isPlain.lines, plain.lines⟩, ?_⟩
    exact List.forall_mem_append.2 ⟨plain.known, List.forall_mem_singleton.2 isPlain⟩

end IsPlain

/-! ## Calls -/

/-- A run over the texts with carriage returns comes to the same result. -/
theorem Mirrors.run (mirrors : preprocessor.Mirrors other) (plain : preprocessor.IsPlain) :
    preprocessor.run.1.Mirrors other.run.1 ∧ preprocessor.run.1.IsPlain ∧
      other.run.2 = preprocessor.run.2.withReturns := by
  fun_induction Preprocessor.run preprocessor generalizing other with
  | case1 preprocessor next stepped ih =>
    rcases mirrors.step plain stepped with ⟨again, ran, both⟩
    cases both with
    | next later =>
      rw [run_of_next ran]
      exact ih later (plain.move (move_of_step (by rw [stepped]; rfl)))
  | case2 preprocessor paused request stepped =>
    rcases mirrors.step plain stepped with ⟨again, ran, both⟩
    cases both with
    | pause later same =>
      rw [run_of_pause ran, same]
      exact ⟨later, plain.move (move_of_step (by rw [stepped]; rfl)), rfl⟩
  | case3 preprocessor stepped =>
    rcases mirrors.step plain stepped with ⟨again, ran, both⟩
    cases both with
    | finish =>
      rw [run_of_finish ran, mirrors.output]
      exact ⟨mirrors.withoutOutput, plain.withoutOutput, rfl⟩

/-- The two runs are given the same answers, the second one with carriage returns in the unit. -/
theorem Mirrors.splice (mirrors : preprocessor.Mirrors other) (request : IncludeRequest)
    {unit : SourceUnit} (isPlain : unit.IsPlain) :
    (preprocessor.splice request unit).Mirrors (other.splice request unit.withReturns) := by
  have sameUnit := isPlain.withFinalNewline
  simp only [Preprocessor.splice, sameUnit.1, sameUnit.2]
  refine { mirrors.enterUnit request.target unit with pending := rfl, resolved := ?_ }
  simp only [mirrors.resolved, ResolvedUnits.withReturns, List.map_append, List.map_cons,
    List.map_nil]

theorem Mirrors.fail (mirrors : preprocessor.Mirrors other) (request : IncludeRequest)
    (failure : IncludeFailure) :
    (preprocessor.fail request failure).Mirrors (other.fail request failure) :=
  { mirrors.report _ with pending := rfl }

theorem Mirrors.resume (mirrors : preprocessor.Mirrors other) (plain : preprocessor.IsPlain)
    {answer : IncludeAnswer} (fits : ∀ unit, answer = .resolved unit → unit.IsPlain) :
    (preprocessor.resume answer).1.Mirrors (other.resume answer.withReturns).1 ∧
      (preprocessor.resume answer).1.IsPlain ∧
      (other.resume answer.withReturns).2 = (preprocessor.resume answer).2.withReturns := by
  unfold Preprocessor.resume
  rw [mirrors.pending]
  cases preprocessor.pending with
  | none => exact mirrors.run plain
  | some request =>
    cases answer with
    | pending => exact ⟨mirrors, plain, rfl⟩
    | resolved unit =>
      have isPlain := fits unit rfl
      exact (mirrors.splice request isPlain).run
        (plain.answered request (.ok unit) fun _ same => Except.ok.inj same ▸ isPlain)
    | failed failure =>
      exact (mirrors.fail request failure).run
        (plain.answered request (.error failure) fun _ same => nomatch same)

/-- A first line that is left out is left out in both runs. -/
theorem mainFrame_withReturns (options : RunOptions) {unit : SourceUnit} (plain : unit.IsPlain) :
    mainFrame options unit.withReturns = (mainFrame options unit).withReturns := by
  have whole : Frame.ofUnit unit.withReturns.name unit.withReturns =
      (Frame.ofUnit unit.name unit).withReturns := Frame.ofUnit_withReturns unit.name unit
  unfold mainFrame
  rw [whole]
  cases lines : unit.lines with
  | nil => simp only [Frame.ofUnit, Frame.withReturns, lines, List.map_nil]
  | cons first rest =>
    have ended := (plain.lines first (by simp [lines])).1
    have begins := Text.startsWith_withReturns "#!".toList ended (by decide)
    simp only [Frame.ofUnit, Frame.withReturns, lines, List.map_cons, begins]
    split <;> rfl

variable {environment : Environment} {main : SourceUnit}

theorem mirrors_enter (options : RunOptions) (environment : Environment) (plain : main.IsPlain) :
    ((ofEnvironment options environment).enter main).Mirrors
      ((ofEnvironment options environment).enter main.withReturns) := by
  refine ⟨rfl, rfl, rfl, ?_, .nil, rfl, rfl, rfl⟩
  exact congrArg (· :: []) (mainFrame_withReturns options plain)

theorem isPlain_enter (options : RunOptions)
    (builtins : ∀ entry ∈ environment.builtins, '\n' ∉ entry.2)
    (predefined : ∀ entry ∈ environment.predefined, '\n' ∉ entry.2) (plain : main.IsPlain) :
    ((ofEnvironment options environment).enter main).IsPlain := by
  have unbroken := isUnbroken_enter options builtins predefined plain.name
  refine ⟨unbroken.macros, unbroken.units, ?_, List.forall_mem_nil _⟩
  have position := isAt_mainFrame options main
  have unread := position.2.2
  unfold Frame.IsAt at unread
  rw [position.1] at unread
  refine List.forall_mem_singleton.2 fun line member => plain.lines line ?_
  exact List.mem_of_mem_drop (unread ▸ member)

section Calls

variable (options : RunOptions) (builtins : ∀ entry ∈ environment.builtins, '\n' ∉ entry.2)
  (predefined : ∀ entry ∈ environment.predefined, '\n' ∉ entry.2) (plain : main.IsPlain)
  {answers : List IncludeAnswer} (units : ∀ unit, .resolved unit ∈ answers → unit.IsPlain)

include builtins predefined plain units

/-- Between any two calls the two preprocessors have come equally far. -/
theorem mirrors_calls :
    (calls options environment main answers).1.Mirrors
        (calls options environment main.withReturns (answers.map IncludeAnswer.withReturns)).1 ∧
      (calls options environment main answers).1.IsPlain ∧
      (calls options environment main.withReturns (answers.map IncludeAnswer.withReturns)).2 =
        (calls options environment main answers).2.map RunResult.withReturns := by
  induction answers using List.reverseRecOn with
  | nil =>
    have started := (mirrors_enter options environment plain).run
      (isPlain_enter options builtins predefined plain)
    exact ⟨started.1, started.2.1, congrArg (· :: []) started.2.2⟩
  | append_singleton answers answer ih =>
    have earlier := ih fun unit member => units unit (List.mem_append_left _ member)
    have fits : ∀ unit, answer = .resolved unit → unit.IsPlain := fun unit same =>
      units unit (List.mem_append_right _ (List.mem_singleton.2 same.symm))
    have resumed := earlier.1.resume earlier.2.1 fits
    unfold calls at earlier resumed ⊢
    simp only [List.map_append, List.foldl_append, List.map_cons, List.map_nil,
      List.foldl_cons, List.foldl_nil]
    refine ⟨resumed.1, resumed.2.1, ?_⟩
    rw [earlier.2.2, resumed.2.2]

/-- Endings of lines are transparent: when the main unit and the units of all answers get a carriage
return in front of every line feed, every call asks for the same or hands out the same line map and
the same diagnostics, and the expanded text has got the carriage returns too. -/
theorem calls_withReturns :
    (calls options environment main.withReturns (answers.map IncludeAnswer.withReturns)).2 =
      (calls options environment main answers).2.map RunResult.withReturns :=
  (mirrors_calls options builtins predefined plain units).2.2

end Calls

/-- A main unit that uses a macro of the unit it includes, in front of a literal that is not closed
and ends in a backslash. -/
theorem calls_withReturns_include :
    let main : SourceUnit := ⟨"m".toList, "#include <a>\nX \"\\\n".toList, none⟩
    let unit : SourceUnit := ⟨"a".toList, "#define X 1\n".toList, none⟩
    (∀ entry ∈ Environment.bare.builtins, '\n' ∉ entry.2) ∧
      (∀ entry ∈ Environment.bare.predefined, '\n' ∉ entry.2) ∧ main.IsPlain ∧ unit.IsPlain ∧
      ∃ request output,
        (calls {} .bare main [.resolved unit]).2 = [.paused request, .finished output] ∧
        output.expanded = "1 \"\\\n".toList ∧
        (calls {} .bare main.withReturns [.resolved unit.withReturns]).2 =
          [.paused request, .finished output.withReturns] ∧
        output.withReturns.expanded = "1 \"\\\r\n".toList := by
  intro main unit
  have plainMain : main.IsPlain := ⟨by decide, by decide, by decide⟩
  have plainUnit : unit.IsPlain := ⟨by decide, by decide, by decide⟩
  have fits : ∀ other, IncludeAnswer.resolved other ∈ [.resolved unit] → other.IsPlain := by
    intro other member
    cases List.mem_singleton.1 member
    exact plainUnit
  have steps : ∃ paused request first second third last,
      ((ofEnvironment {} .bare).enter main).step = .pause paused request ∧
      paused.pending = some request ∧ (paused.splice request unit).step = .next first ∧
      first.step = .next second ∧ second.step = .next third ∧ third.step = .next last ∧
      last.step = .finish ∧
      last.output.expanded = ((MacroTable.bareWith "X".toList "1".toList).expand
        ⟨"m".toList, 2⟩ "X \"\\\n".toList).text ++ [] :=
    ⟨_, _, _, _, _, _, rfl, rfl, rfl, rfl, rfl, rfl, rfl, rfl⟩
  rcases steps with ⟨paused, request, first, second, third, last, pauses, pending, toFirst,
    toSecond, toThird, toLast, ends, text⟩
  have shape : Piece.first 'X' " \"\\\n".toList = (.word "X".toList, " \"\\\n".toList) := rfl
  have replaced : ((MacroTable.bareWith "X".toList "1".toList).expand ⟨"m".toList, 2⟩
      "X \"\\\n".toList).text = "1 \"\\\n".toList := by
    refine (MacroTable.text_expandActive_of_object "X".toList "1".toList shape rfl (by decide)
      (by decide)).trans ?_
    rw [MacroTable.text_expandActive_of_absent (by decide),
      MacroTable.text_expandActive_of_absent (by decide)]
    rfl
  have expanded : last.output.expanded = "1 \"\\\n".toList := by
    rw [text, replaced, List.append_nil]
  have started : (ofEnvironment {} .bare).start main = (paused, .paused request) :=
    run_of_pause pauses
  have resumed : paused.resume (.resolved unit) = (last.withoutOutput, .finished last.output) := by
    unfold resume
    rw [pending]
    exact (run_of_next toFirst).trans ((run_of_next toSecond).trans ((run_of_next toThird).trans
      ((run_of_next toLast).trans (run_of_finish ends))))
  have results : (calls {} .bare main [.resolved unit]).2 =
      [.paused request, .finished last.output] := by
    simp only [calls, started, List.foldl_cons, List.foldl_nil, resumed, List.singleton_append]
  have builtins : ∀ entry ∈ Environment.bare.builtins, '\n' ∉ entry.2 := by decide
  have predefined : ∀ entry ∈ Environment.bare.predefined, '\n' ∉ entry.2 := by decide
  have returned := calls_withReturns {} builtins predefined plainMain fits
  rw [results] at returned
  refine ⟨builtins, predefined, plainMain, plainUnit, request, last.output, results, expanded,
    returned, ?_⟩
  simp only [RunOutput.withReturns, expanded]
  rfl

end Preprocessor

end ScriptPreprocessor
