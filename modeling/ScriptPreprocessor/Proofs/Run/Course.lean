import ScriptPreprocessor.Run.Targets

namespace ScriptPreprocessor

/-!
# The course of a run

A run is a sequence of moves: a line is read, a unit is left, or a request is answered.  `Move`
says once, case by case, what a step can do; everything that a run keeps is proved of moves and
carried to courses by `Course.keeps`.

A course remembers the lines it has read, each with the state it was read in.  What a run emits is
what its readings emit, in order (`Course.emissions`); the output of the run is not consulted for
that.
-/

/-- One line that a run reads: the state in which it is read, and where it stands. -/
structure Reading where
  state : LineState
  unit : SourceUnit
  /-- The number of lines of the unit that come before. -/
  index : Nat
  line : Text
  /-- Whether the unit is being expanded inside of another. -/
  isIncluded : Bool

namespace Reading

def origin (reading : Reading) : Origin :=
  ⟨reading.unit.name, reading.index + 1⟩

def effect (reading : Reading) : LineEffect :=
  reading.state.read reading.origin reading.line

/-- The line of expanded text that a reading contributes, if it contributes one. -/
def emission? (reading : Reading) : Option Emission :=
  reading.effect.emitted.map fun segments => ⟨reading.origin, segments⟩

end Reading

namespace Preprocessor

def readingOf (preprocessor : Preprocessor) (frame : Frame) (below : List Frame) (line : Text) :
    Reading :=
  { state := preprocessor.lineState frame
    unit := frame.unit
    index := frame.linesRead
    line
    isIncluded := !below.isEmpty }

/-- The line that the next step reads, unless it leaves a unit or there is nothing left to do. -/
def reading? (preprocessor : Preprocessor) : Option Reading :=
  match preprocessor.frames with
  | [] => none
  | frame :: below => frame.unread.head?.map (preprocessor.readingOf frame below)

/-- The preprocessor behind a line, before its include is looked at. -/
def behind (preprocessor : Preprocessor) (frame : Frame) (below : List Frame) (line : Text)
    (unread : List Text) : Preprocessor :=
  let reading := preprocessor.readingOf frame below line
  preprocessor.apply reading.origin reading.effect
    (advance frame unread reading.effect.state :: below)

def leave (preprocessor : Preprocessor) (frame : Frame) (below : List Frame) : Preprocessor :=
  { preprocessor with
    frames := below
    diagnostics := preprocessor.diagnostics ++
      (frame.closingDiagnostics !below.isEmpty).toArray }

/-! ## Moves -/

/-- What becomes of the include of a line that was read in `frame`, as `includeUnit` decides it.
`before` is the preprocessor before the line, `behind` the one behind it. -/
inductive Placement (before behind : Preprocessor) (frame : Frame) (effect : LineEffect) :
    Preprocessor → Prop
  /-- The line includes nothing. -/
  | plain (noTarget : effect.target = none) : Placement before behind frame effect behind
  /-- The line includes a known unit, and units are included only once. -/
  | skip {target : Text} (asked : effect.target = some target)
      (known : (before.resolved.lookup target).isSome = true)
      (once : before.options.includeMode = .once) :
      Placement before behind frame effect behind
  /-- The line includes a unit that is being expanded. -/
  | cycle {target : Text} (asked : effect.target = some target)
      (notSkipped : ¬ ((before.resolved.lookup target).isSome = true ∧
        before.options.includeMode = .once))
      (expanding : ∃ other ∈ before.frames, other.key = target) :
      Placement before behind frame effect
        { behind with
          diagnostics := behind.diagnostics.push
            ((Problem.includeCycle target (before.frames.map Frame.key).reverse).diagnosticAt
              ⟨frame.unit.name, frame.linesRead + 1⟩) }
  /-- The line includes a known unit that is spliced again. -/
  | reuse {target : Text} {unit : SourceUnit} (asked : effect.target = some target)
      (always : before.options.includeMode ≠ .once)
      (known : before.resolved.lookup target = some unit)
      (fresh : ∀ other ∈ before.frames, other.key ≠ target) :
      Placement before behind frame effect
        { behind with frames := Frame.ofUnit target unit :: behind.frames }
  /-- The line includes an unknown unit, which is asked for. -/
  | ask {target : Text} (asked : effect.target = some target)
      (unknown : before.resolved.lookup target = none)
      (fresh : ∀ other ∈ before.frames, other.key ≠ target) :
      Placement before behind frame effect
        { behind with
          pending := some
            { target
              searchPath := effect.state.searchPath
              includer := frame.unit.name
              location := frame.unit.location
              line := frame.linesRead + 1 } }

/-- What a step does, with the line it reads. -/
inductive Move (preprocessor : Preprocessor) : Option Reading → Preprocessor → Prop
  /-- The innermost unit has no line left. -/
  | leave {frame : Frame} {below : List Frame} (stack : preprocessor.frames = frame :: below)
      (exhausted : frame.unread = []) :
      Move preprocessor none (preprocessor.leave frame below)
  /-- The next line of the innermost unit is read. -/
  | read {frame : Frame} {below : List Frame} {line : Text} {unread : List Text}
      {next : Preprocessor} (stack : preprocessor.frames = frame :: below)
      (lines : frame.unread = line :: unread)
      (placement : Placement preprocessor (preprocessor.behind frame below line unread) frame
        (preprocessor.readingOf frame below line).effect next) :
      Move preprocessor (some (preprocessor.readingOf frame below line)) next

namespace Placement

variable {before behind next : Preprocessor} {frame : Frame} {effect : LineEffect}

theorem macros (placement : Placement before behind frame effect next) :
    next.macros = behind.macros := by
  cases placement <;> rfl

theorem emissions (placement : Placement before behind frame effect next) :
    next.emissions = behind.emissions := by
  cases placement <;> rfl

theorem resolved (placement : Placement before behind frame effect next) :
    next.resolved = behind.resolved := by
  cases placement <;> rfl

end Placement

/-- The preprocessor behind a step; there is none when nothing was left to do. -/
def after? : RunStep → Option Preprocessor
  | .next preprocessor => some preprocessor
  | .pause preprocessor _ => some preprocessor
  | .finish => none

theorem reading?_of_exhausted {preprocessor : Preprocessor} {frame : Frame} {below : List Frame}
    (stack : preprocessor.frames = frame :: below) (exhausted : frame.unread = []) :
    preprocessor.reading? = none := by
  simp [reading?, stack, exhausted]

theorem reading?_of_line {preprocessor : Preprocessor} {frame : Frame} {below : List Frame}
    {line : Text} {unread : List Text} (stack : preprocessor.frames = frame :: below)
    (lines : frame.unread = line :: unread) :
    preprocessor.reading? = some (preprocessor.readingOf frame below line) := by
  simp [reading?, stack, lines]

theorem step_of_exhausted {preprocessor : Preprocessor} {frame : Frame} {below : List Frame}
    (stack : preprocessor.frames = frame :: below) (exhausted : frame.unread = []) :
    preprocessor.step = .next (preprocessor.leave frame below) := by
  unfold step
  rw [stack]
  simp only [exhausted]
  rfl

theorem step_of_line {preprocessor : Preprocessor} {frame : Frame} {below : List Frame}
    {line : Text} {unread : List Text} (stack : preprocessor.frames = frame :: below)
    (lines : frame.unread = line :: unread) :
    preprocessor.step =
      match (preprocessor.readingOf frame below line).effect.target with
      | none => .next (preprocessor.behind frame below line unread)
      | some target =>
        (preprocessor.behind frame below line unread).includeUnit
          (preprocessor.readingOf frame below line).origin frame.unit.location target := by
  unfold step
  rw [stack]
  simp only [lines]
  rfl

theorem keys_behind {preprocessor : Preprocessor} {frame : Frame} {below : List Frame}
    (line : Text) (unread : List Text) (stack : preprocessor.frames = frame :: below) :
    (preprocessor.behind frame below line unread).frames.map Frame.key =
      preprocessor.frames.map Frame.key := by
  rw [stack]
  rfl

theorem exists_key_behind {preprocessor : Preprocessor} {frame : Frame} {below : List Frame}
    (line : Text) (unread : List Text) (target : Text)
    (stack : preprocessor.frames = frame :: below) :
    (∃ other ∈ (preprocessor.behind frame below line unread).frames, other.key = target) ↔
      ∃ other ∈ preprocessor.frames, other.key = target := by
  rw [← List.mem_map, ← List.mem_map, keys_behind line unread stack]

/-! ## Decisions about an include -/

section

variable {preprocessor : Preprocessor} (origin : Origin) (location : Option Location)
  {target : Text} {keys : List Text} {path : Option Text}

theorem includeUnit_of_skipped (known : (preprocessor.resolved.lookup target).isSome = true)
    (once : preprocessor.options.includeMode = .once) :
    preprocessor.includeUnit origin location target = .next preprocessor := by
  simp [includeUnit, known, once]

theorem includeUnit_of_expanding
    (notSkipped : ¬ ((preprocessor.resolved.lookup target).isSome = true ∧
      preprocessor.options.includeMode = .once))
    (names : preprocessor.frames.map Frame.key = keys) (expanding : target ∈ keys) :
    preprocessor.includeUnit origin location target =
      .next { preprocessor with
        diagnostics := preprocessor.diagnostics.push
          ((Problem.includeCycle target keys.reverse).diagnosticAt origin) } := by
  subst names
  unfold includeUnit
  simp only
  rw [if_neg notSkipped, if_pos (List.mem_map.1 expanding)]

variable (names : preprocessor.frames.map Frame.key = keys) (fresh : target ∉ keys)

include names fresh

theorem includeUnit_of_known {unit : SourceUnit}
    (known : preprocessor.resolved.lookup target = some unit)
    (always : preprocessor.options.includeMode ≠ .once) :
    preprocessor.includeUnit origin location target =
      .next { preprocessor with
        frames := Frame.ofUnit target unit :: preprocessor.frames } := by
  subst names
  unfold includeUnit
  simp only [known]
  rw [if_neg (fun skipped => always skipped.2), if_neg (mt List.mem_map.2 fresh)]

theorem includeUnit_of_unknown (unknown : preprocessor.resolved.lookup target = none)
    (searchPath : preprocessor.searchPath = path) :
    preprocessor.includeUnit origin location target =
      .pause
        { preprocessor with pending := some ⟨target, path, origin.unit, location, origin.line⟩ }
        ⟨target, path, origin.unit, location, origin.line⟩ := by
  subst names searchPath
  unfold includeUnit
  simp only [unknown]
  rw [if_neg (by simp), if_neg (mt List.mem_map.2 fresh)]

end

/-! ## Steps -/

/-- What is decided about the include of a line, seen from the preprocessor before the line. -/
theorem placement_of_decides {preprocessor next : Preprocessor} {frame : Frame}
    {below : List Frame} {line : Text} {unread : List Text} {outcome : RunStep}
    (stack : preprocessor.frames = frame :: below)
    (decides : Decides (preprocessor.behind frame below line unread)
      (preprocessor.readingOf frame below line).origin frame.unit.location
      (preprocessor.readingOf frame below line).effect.target outcome)
    (leads : after? outcome = some next) :
    Placement preprocessor (preprocessor.behind frame below line unread) frame
      (preprocessor.readingOf frame below line).effect next := by
  have fresh {target : Text}
      (notOpen : ∀ other ∈ (preprocessor.behind frame below line unread).frames,
        other.key ≠ target) : ∀ other ∈ preprocessor.frames, other.key ≠ target :=
    fun other member same =>
      let ⟨found, isOpen, sameKey⟩ :=
        (exists_key_behind line unread target stack).2 ⟨other, member, same⟩
      notOpen found isOpen sameKey
  generalize asked : (preprocessor.readingOf frame below line).effect.target = target at decides
  cases decides with
  | plain =>
    cases leads
    exact .plain asked
  | skip known once =>
    cases leads
    exact .skip asked known once
  | cycle notSkipped expanding =>
    cases leads
    rw [keys_behind line unread stack]
    exact .cycle asked notSkipped ((exists_key_behind line unread _ stack).1 expanding)
  | reuse always known notOpen =>
    cases leads
    exact .reuse asked always known (fresh notOpen)
  | ask unknown notOpen request =>
    cases leads
    subst request
    exact .ask asked unknown (fresh notOpen)

/-- Every step is a move, and the line it reads is the next one. -/
theorem move_of_step {preprocessor next : Preprocessor}
    (leads : after? preprocessor.step = some next) :
    Move preprocessor preprocessor.reading? next := by
  generalize stepped : preprocessor.step = outcome at leads
  cases steps_of_eq stepped with
  | finish => cases leads
  | leave stack exhausted =>
    cases leads
    rw [reading?_of_exhausted stack exhausted]
    exact .leave stack exhausted
  | read origin effect stack lines place reads decides =>
    subst place reads
    rw [reading?_of_line stack lines]
    exact .read stack lines (placement_of_decides stack decides leads)

theorem run_of_next {preprocessor next : Preprocessor}
    (stepped : preprocessor.step = .next next) : preprocessor.run = next.run := by
  rw [run]
  split <;> simp_all

theorem run_of_pause {preprocessor paused : Preprocessor} {request : IncludeRequest}
    (stepped : preprocessor.step = .pause paused request) :
    preprocessor.run = (paused, .paused request) := by
  rw [run]
  split <;> simp_all

theorem run_of_finish {preprocessor : Preprocessor} (stepped : preprocessor.step = .finish) :
    preprocessor.run = (preprocessor.withoutOutput, .finished preprocessor.output) := by
  rw [run]
  split <;> simp_all

theorem pending_of_next {preprocessor next : Preprocessor}
    (stepped : preprocessor.step = .next next) : next.pending = preprocessor.pending := by
  cases steps_of_eq stepped with
  | leave => rfl
  | read origin effect stack lines place reads decides =>
    generalize effect.target = asked at decides
    cases decides <;> rfl

theorem emissions_apply (preprocessor : Preprocessor) (origin : Origin) (effect : LineEffect)
    (frames : List Frame) :
    (preprocessor.apply origin effect frames).emissions.toList =
      preprocessor.emissions.toList ++
        (effect.emitted.map fun segments => (⟨origin, segments⟩ : Emission)).toList := by
  unfold apply
  cases effect.emitted <;> simp

/-- A move emits what its line emits. -/
theorem emissions_of_move {preprocessor next : Preprocessor} {reading : Option Reading}
    (move : Move preprocessor reading next) :
    next.emissions.toList =
      preprocessor.emissions.toList ++ reading.toList.filterMap Reading.emission? := by
  cases move with
  | leave => simp [leave]
  | @read frame below line unread _ stack lines placement =>
    rw [placement.emissions]
    refine (emissions_apply _ _ _ _).trans ?_
    cases found : (preprocessor.readingOf frame below line).effect.emitted <;>
      simp [Reading.emission?, found]

/-! ## Courses -/

/-- The courses that a run can take from a state, when requests are answered as `Answers` allows:
the lines that have been read, and the state that has been reached. -/
inductive Course (Answers : IncludeRequest → IncludeOutcome → Prop) (start : Preprocessor) :
    List Reading → Preprocessor → Prop
  | start : Course Answers start [] start
  | move {readings : List Reading} {preprocessor next : Preprocessor}
      (earlier : Course Answers start readings preprocessor) (idle : preprocessor.pending = none)
      (steps : after? preprocessor.step = some next) :
      Course Answers start (readings ++ preprocessor.reading?.toList) next
  | answer {readings : List Reading} {preprocessor : Preprocessor} {request : IncludeRequest}
      {outcome : IncludeOutcome} (earlier : Course Answers start readings preprocessor)
      (waiting : preprocessor.pending = some request) (fits : Answers request outcome) :
      Course Answers start readings (preprocessor.answered request outcome)

namespace Course

variable {Answers : IncludeRequest → IncludeOutcome → Prop} {start : Preprocessor}

/-- What holds at the start and is kept by every move and every answer holds along a course.  What
was proved of courses before may be used of the course up to there. -/
theorem keeps (Holds : List Reading → Preprocessor → Prop) {readings : List Reading}
    {last : Preprocessor} (course : Course Answers start readings last)
    (initially : Holds [] start)
    (move : ∀ readings preprocessor reading next, Course Answers start readings preprocessor →
      Holds readings preprocessor → preprocessor.pending = none →
      Move preprocessor reading next → Holds (readings ++ reading.toList) next)
    (answer : ∀ readings preprocessor request outcome,
      Course Answers start readings preprocessor → Holds readings preprocessor →
      preprocessor.pending = some request → Answers request outcome →
      Holds readings (preprocessor.answered request outcome)) :
    Holds readings last := by
  induction course with
  | start => exact initially
  | move earlier idle steps ih => exact move _ _ _ _ earlier ih idle (move_of_step steps)
  | answer earlier waiting fits ih => exact answer _ _ _ _ earlier ih waiting fits

/-- What has been emitted along a course is what its readings emit. -/
theorem emissions {readings : List Reading} {last : Preprocessor}
    (course : Course Answers start readings last) :
    last.emissions.toList =
      start.emissions.toList ++ readings.filterMap Reading.emission? := by
  refine course.keeps (fun readings last => last.emissions.toList =
    start.emissions.toList ++ readings.filterMap Reading.emission?) (by simp) ?_ ?_
  · intro readings preprocessor reading next _ earlier _ move
    rw [emissions_of_move move, earlier, List.filterMap_append, List.append_assoc]
  · intro readings preprocessor request outcome _ earlier _ _
    cases outcome <;> exact earlier

/-- What a run comes to, seen from the course it continues: it waits for the answer to a request,
or it has nothing left to do and gives its output. -/
def Ends (Answers : IncludeRequest → IncludeOutcome → Prop) (start stopped : Preprocessor) :
    RunResult → Prop
  | .paused request =>
    ∃ readings, Course Answers start readings stopped ∧ stopped.pending = some request
  | .finished output =>
    ∃ readings last, Course Answers start readings last ∧ last.step = .finish ∧
      output = last.output

/-- A run continues the course that led to it. -/
theorem ends_of_run {readings : List Reading} {preprocessor stopped : Preprocessor}
    {result : RunResult} (course : Course Answers start readings preprocessor)
    (idle : preprocessor.pending = none) (ran : preprocessor.run = (stopped, result)) :
    Ends Answers start stopped result := by
  fun_induction run preprocessor generalizing readings with
  | case1 preprocessor next stepped ih =>
    have steps : after? preprocessor.step = some next := by rw [stepped]; rfl
    exact ih (course.move idle steps) ((pending_of_next stepped).trans idle) ran
  | case2 preprocessor paused request stepped =>
    have steps : after? preprocessor.step = some paused := by rw [stepped]; rfl
    have waits := (asks_of_step stepped).pending
    cases ran
    exact ⟨_, course.move idle steps, waits⟩
  | case3 preprocessor stepped =>
    cases ran
    exact ⟨readings, preprocessor, course, stepped, rfl⟩

end Course

end Preprocessor

end ScriptPreprocessor
