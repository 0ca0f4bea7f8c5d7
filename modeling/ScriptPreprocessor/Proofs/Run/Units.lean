import Mathlib.Data.List.Nodup
import ScriptPreprocessor.Proofs.Run.Course
import ScriptPreprocessor.Proofs.Run.Effects

namespace ScriptPreprocessor

/-!
# The units that a run reads

A stack is empty, or it has the main unit at its bottom and known units above.  Known units have
different names, none of them the name of the main unit, and each of them is empty or ends in a
line feed (`Preprocessor.IsOrderly`).  Whatever is read is therefore a line of the main unit or of
a known unit, at the place that the reading says (`Reading.IsFrom`).

No line feed gets into the macros or into a name that is asked for (`Preprocessor.IsUnbroken`), as
long as none is there at the start and answers bring no name with one.
-/

namespace Frame

/-- The unread lines of a frame follow those that were read. -/
def IsAt (frame : Frame) : Prop :=
  frame.unread = frame.unit.lines.drop frame.linesRead

theorem IsAt.line?_eq {frame : Frame} {line : Text} {unread : List Text} (position : frame.IsAt)
    (lines : frame.unread = line :: unread) : frame.unit.line? frame.linesRead = some line := by
  unfold IsAt at position
  rw [lines] at position
  have first := congrArg List.head? position
  rw [List.head?_drop] at first
  exact first.symm

theorem IsAt.unread_eq {frame : Frame} {line : Text} {unread : List Text} (position : frame.IsAt)
    (lines : frame.unread = line :: unread) :
    unread = frame.unit.lines.drop (frame.linesRead + 1) := by
  unfold IsAt at position
  rw [lines] at position
  have rest := congrArg List.tail position
  rwa [List.tail_drop] at rest

theorem isAt_ofUnit (key : Text) (unit : SourceUnit) : (ofUnit key unit).IsAt :=
  rfl

/-- The stacks over a main unit, the innermost frame first. -/
inductive IsStack (main : SourceUnit) (resolved : ResolvedUnits) : List Frame → Prop
  | empty : IsStack main resolved []
  | main {frame : Frame} (unit : frame.unit = main) (key : frame.key = main.name)
      (position : frame.IsAt) : IsStack main resolved [frame]
  | included {frame : Frame} {below : List Frame} (outer : IsStack main resolved below)
      (notEmpty : below ≠ []) (known : (frame.key, frame.unit) ∈ resolved)
      (position : frame.IsAt) : IsStack main resolved (frame :: below)

namespace IsStack

variable {main : SourceUnit} {resolved : ResolvedUnits} {frame : Frame} {below : List Frame}

theorem position (stack : IsStack main resolved (frame :: below)) : frame.IsAt := by
  cases stack with
  | main _ _ position => exact position
  | included _ _ _ position => exact position

theorem tail (stack : IsStack main resolved (frame :: below)) : IsStack main resolved below := by
  cases stack with
  | main => exact IsStack.empty
  | included outer => exact outer

/-- The frame of the main unit is at the bottom, and all others belong to known units. -/
theorem unit_or (stack : IsStack main resolved (frame :: below)) :
    below = [] ∧ frame.unit = main ∨ below ≠ [] ∧ (frame.key, frame.unit) ∈ resolved := by
  cases stack with
  | main unit => exact Or.inl ⟨rfl, unit⟩
  | included _ notEmpty known => exact Or.inr ⟨notEmpty, known⟩

theorem replace_head {next : Frame} (stack : IsStack main resolved (frame :: below))
    (unit : next.unit = frame.unit) (key : next.key = frame.key) (position : next.IsAt) :
    IsStack main resolved (next :: below) := by
  cases stack with
  | main mainUnit mainKey => exact IsStack.main (unit.trans mainUnit) (key.trans mainKey) position
  | included outer notEmpty known =>
    refine IsStack.included outer notEmpty ?_ position
    rw [unit, key]
    exact known

theorem mono {frames : List Frame} {more : ResolvedUnits} (contained : resolved ⊆ more)
    (stack : IsStack main resolved frames) : IsStack main more frames := by
  induction stack with
  | empty => exact IsStack.empty
  | main unit key position => exact IsStack.main unit key position
  | included _ notEmpty known position ih =>
    exact IsStack.included ih notEmpty (contained known) position

/-- While anything is being expanded, the main unit is. -/
theorem exists_main {frames : List Frame} (stack : IsStack main resolved frames)
    (notEmpty : frames ≠ []) : ∃ frame ∈ frames, frame.key = main.name := by
  induction stack with
  | empty => exact absurd rfl notEmpty
  | main _ key => exact ⟨_, List.mem_singleton_self _, key⟩
  | included _ filled _ _ ih =>
    rcases ih filled with ⟨frame, member, key⟩
    exact ⟨frame, List.mem_cons_of_mem _ member, key⟩

end IsStack

end Frame

/-- Where a reading says that its line stands, there it stands: in the main unit or, when it is
read inside of another unit, in a known one. -/
structure Reading.IsFrom (main : SourceUnit) (resolved : ResolvedUnits) (reading : Reading) :
    Prop where
  found : reading.unit.line? reading.index = some reading.line
  outer : reading.isIncluded = false → reading.unit = main
  included : reading.isIncluded = true → ∃ key, (key, reading.unit) ∈ resolved

theorem Reading.IsFrom.mono {main : SourceUnit} {resolved more : ResolvedUnits}
    {reading : Reading} (contained : resolved ⊆ more) (isFrom : reading.IsFrom main resolved) :
    reading.IsFrom main more := by
  refine ⟨isFrom.found, isFrom.outer, fun inside => ?_⟩
  rcases isFrom.included inside with ⟨key, known⟩
  exact ⟨key, contained known⟩

theorem Reading.IsFrom.line_mem {main : SourceUnit} {resolved : ResolvedUnits} {reading : Reading}
    (isFrom : reading.IsFrom main resolved) : reading.line ∈ reading.unit.lines :=
  List.mem_of_getElem? isFrom.found

/-- A line is read without line feeds in the macros and in the name of its unit. -/
structure Reading.IsUnbroken (reading : Reading) : Prop where
  macros : reading.state.macros.IsUnbroken
  unit : '\n' ∉ reading.unit.name

namespace Preprocessor

/-! ## Orderly runs -/

/-- What is known of the units of a run at any time. -/
structure IsOrderly (main : SourceUnit) (preprocessor : Preprocessor) : Prop where
  stack : Frame.IsStack main preprocessor.resolved preprocessor.frames
  distinct : (preprocessor.resolved.map Prod.fst).Nodup
  notMain : main.name ∉ preprocessor.resolved.map Prod.fst
  ended : ∀ entry ∈ preprocessor.resolved,
    entry.2.text = [] ∨ entry.2.text.getLast? = some '\n'
  /-- A run asks only while something is being expanded, and for a unit that it does not know. -/
  asks : ∀ request, preprocessor.pending = some request →
    preprocessor.frames ≠ [] ∧ request.target ≠ main.name ∧
      request.target ∉ preprocessor.resolved.map Prod.fst

variable {main : SourceUnit} {preprocessor next : Preprocessor}

theorem not_mem_keys_of_lookup {resolved : ResolvedUnits} {target : Text}
    (unknown : resolved.lookup target = none) : target ∉ resolved.map Prod.fst := by
  intro member
  rcases List.mem_map.1 member with ⟨entry, known, same⟩
  have differs := List.lookup_eq_none_iff.1 unknown entry known
  simp [same] at differs

theorem isAt_mainFrame (options : RunOptions) (unit : SourceUnit) :
    (mainFrame options unit).unit = unit ∧ (mainFrame options unit).key = unit.name ∧
      (mainFrame options unit).IsAt := by
  have position := Frame.isAt_ofUnit unit.name unit
  exact mainFrame_cases (fun _ => ⟨rfl, rfl, position⟩)
    fun lines _ => ⟨rfl, rfl, position.unread_eq lines⟩

theorem isOrderly_enter (options : RunOptions) (environment : Environment) (main : SourceUnit) :
    ((ofEnvironment options environment).enter main).IsOrderly main := by
  have bottom := isAt_mainFrame options main
  refine ⟨?_, List.nodup_nil, List.not_mem_nil, ?_, ?_⟩
  · exact Frame.IsStack.main bottom.1 bottom.2.1 bottom.2.2
  · intro entry member
    cases member
  · intro request waiting
    cases waiting

theorem IsOrderly.stack_behind {frame : Frame} {below : List Frame} {line : Text}
    {unread : List Text} (orderly : preprocessor.IsOrderly main)
    (stack : preprocessor.frames = frame :: below) (lines : frame.unread = line :: unread) :
    Frame.IsStack main preprocessor.resolved
      (preprocessor.behind frame below line unread).frames := by
  have whole := orderly.stack
  rw [stack] at whole
  exact whole.replace_head rfl rfl (whole.position.unread_eq lines)

/-- Every move keeps a run orderly. -/
theorem IsOrderly.move {reading : Option Reading} (orderly : preprocessor.IsOrderly main)
    (idle : preprocessor.pending = none) (move : Move preprocessor reading next) :
    next.IsOrderly main := by
  cases move with
  | leave stack exhausted =>
    have whole := orderly.stack
    rw [stack] at whole
    refine ⟨whole.tail, orderly.distinct, orderly.notMain, orderly.ended, ?_⟩
    intro request waiting
    exact absurd (idle.symm.trans waiting) (by simp)
  | @read frame below line unread _ stack lines placement =>
    have behind := orderly.stack_behind stack lines
    have quiet : ∀ request, preprocessor.pending = some request → False := by
      intro request waiting
      rw [idle] at waiting
      cases waiting
    cases placement with
    | plain | skip | cycle =>
      exact ⟨behind, orderly.distinct, orderly.notMain, orderly.ended,
        fun request waiting => (quiet request waiting).elim⟩
    | @reuse target unit asked always known fresh =>
      refine ⟨?_, orderly.distinct, orderly.notMain, orderly.ended,
        fun request waiting => (quiet request waiting).elim⟩
      exact Frame.IsStack.included behind (List.cons_ne_nil _ _) (mem_of_lookup_eq_some known)
        (Frame.isAt_ofUnit target unit)
    | @ask target asked unknown fresh =>
      refine ⟨behind, orderly.distinct, orderly.notMain, orderly.ended, ?_⟩
      intro request waiting
      cases waiting
      refine ⟨List.cons_ne_nil _ _, ?_, not_mem_keys_of_lookup unknown⟩
      intro same
      -- The main unit is being expanded, so a request for its name would have been a cycle.
      rcases orderly.stack.exists_main (by simp [stack]) with ⟨other, member, key⟩
      exact fresh other member (key.trans same.symm)

theorem IsOrderly.answered {request : IncludeRequest} (orderly : preprocessor.IsOrderly main)
    (waiting : preprocessor.pending = some request) (outcome : IncludeOutcome) :
    (preprocessor.answered request outcome).IsOrderly main := by
  have asks := orderly.asks request waiting
  cases outcome with
  | error failure =>
    refine ⟨orderly.stack, orderly.distinct, orderly.notMain, orderly.ended, ?_⟩
    intro other impossible
    cases impossible
  | ok unit =>
    have contained : preprocessor.resolved ⊆
        preprocessor.resolved ++ [(request.target, unit.withFinalNewline)] :=
      List.subset_append_left _ _
    refine ⟨?_, ?_, ?_, ?_, ?_⟩
    · exact Frame.IsStack.included (orderly.stack.mono contained) asks.1
        (List.mem_append_right _ (List.mem_singleton_self _))
        (Frame.isAt_ofUnit request.target unit.withFinalNewline)
    · simp only [Preprocessor.answered, splice, List.map_append, List.map_cons, List.map_nil]
      exact List.Nodup.append orderly.distinct (List.nodup_singleton _)
        (List.disjoint_singleton.2 asks.2.2)
    · simp only [Preprocessor.answered, splice, List.map_append, List.map_cons, List.map_nil,
        List.mem_append, List.mem_singleton, not_or]
      exact ⟨orderly.notMain, Ne.symm asks.2.1⟩
    · intro entry member
      rcases List.mem_append.1 member with earlier | added
      · exact orderly.ended entry earlier
      · rw [List.mem_singleton.1 added]
        exact Text.withFinalNewline_ends unit.text
    · intro other impossible
      cases impossible

theorem resolved_of_move {reading : Option Reading} (move : Move preprocessor reading next) :
    next.resolved = preprocessor.resolved := by
  cases move with
  | leave => rfl
  | read _ _ placement => exact placement.resolved

/-- What an orderly run reads stands where the reading says. -/
theorem IsOrderly.isFrom {reading : Reading} (orderly : preprocessor.IsOrderly main)
    (move : Move preprocessor (some reading) next) : reading.IsFrom main preprocessor.resolved := by
  cases move with
  | @read frame below line unread _ stack lines placement =>
    have whole := orderly.stack
    rw [stack] at whole
    refine ⟨whole.position.line?_eq lines, ?_, ?_⟩
    · intro outside
      rcases whole.unit_or with ⟨_, unit⟩ | ⟨notEmpty, _⟩
      · exact unit
      · simp [readingOf, notEmpty] at outside
    · intro inside
      rcases whole.unit_or with ⟨empty, _⟩ | ⟨_, known⟩
      · simp [readingOf, empty] at inside
      · exact ⟨frame.key, known⟩

/-! ## Line feeds -/

/-- No line feed is in the macros of a run, in the names of its units, or in the name it asks
for. -/
structure IsUnbroken (preprocessor : Preprocessor) : Prop where
  macros : preprocessor.macros.IsUnbroken
  units : ∀ frame ∈ preprocessor.frames, '\n' ∉ frame.unit.name
  known : ∀ entry ∈ preprocessor.resolved, '\n' ∉ entry.2.name
  asks : ∀ request, preprocessor.pending = some request → '\n' ∉ request.target

theorem isUnbroken_enter (options : RunOptions) {environment : Environment} {main : SourceUnit}
    (builtins : ∀ entry ∈ environment.builtins, '\n' ∉ entry.2)
    (predefined : ∀ entry ∈ environment.predefined, '\n' ∉ entry.2) (name : '\n' ∉ main.name) :
    ((ofEnvironment options environment).enter main).IsUnbroken := by
  refine ⟨MacroTable.isUnbroken_ofEnvironment options.maxExpansionDepth builtins predefined,
    ?_, ?_, ?_⟩
  · intro frame member
    have sameName := congrArg SourceUnit.name (isAt_mainFrame options main).1
    rw [List.mem_singleton.1 member]
    exact fun inName => name (sameName ▸ inName)
  · intro entry member
    cases member
  · intro request waiting
    cases waiting

theorem IsUnbroken.reading {reading : Reading} (unbroken : preprocessor.IsUnbroken)
    (move : Move preprocessor (some reading) next) : reading.IsUnbroken := by
  cases move with
  | @read frame below line unread _ stack lines placement =>
    exact ⟨unbroken.macros, unbroken.units frame (by simp [stack])⟩

theorem IsUnbroken.move {reading : Option Reading} (unbroken : preprocessor.IsUnbroken)
    (orderly : preprocessor.IsOrderly main) (move : Move preprocessor reading next) :
    next.IsUnbroken := by
  cases move with
  | leave stack exhausted =>
    refine ⟨unbroken.macros, ?_, unbroken.known, unbroken.asks⟩
    intro frame member
    apply unbroken.units frame
    rw [stack]
    exact List.mem_cons_of_mem _ member
  | @read frame below line unread _ stack lines placement =>
    have isFrom := orderly.isFrom (Move.read stack lines placement)
    have one := (Text.isOneLine_of_mem_lines isFrom.line_mem).2
    have units : ∀ other ∈ (preprocessor.behind frame below line unread).frames,
        '\n' ∉ other.unit.name := by
      intro other member
      rcases List.mem_cons.1 member with rfl | outer
      · exact unbroken.units frame (by simp [stack])
      · exact unbroken.units other (by simp [stack, outer])
    have macros : next.macros.IsUnbroken := by
      rw [placement.macros]
      exact LineState.isUnbroken_of_read unbroken.macros one
    cases placement with
    | plain | skip | cycle => exact ⟨macros, units, unbroken.known, unbroken.asks⟩
    | @reuse target unit asked always known fresh =>
      refine ⟨macros, ?_, unbroken.known, unbroken.asks⟩
      intro other member
      rcases List.mem_cons.1 member with rfl | outer
      · exact unbroken.known (target, unit) (mem_of_lookup_eq_some known)
      · exact units other outer
    | @ask target asked unknown fresh =>
      refine ⟨macros, units, unbroken.known, ?_⟩
      intro request waiting
      cases waiting
      exact Directive.unbroken_lineTarget one (LineState.target_eq_of_read asked)

/-- An answer that brings no line feed keeps line feeds away. -/
theorem IsUnbroken.answered {request : IncludeRequest} {outcome : IncludeOutcome}
    (unbroken : preprocessor.IsUnbroken)
    (named : ∀ unit, outcome = .ok unit → '\n' ∉ unit.name) :
    (preprocessor.answered request outcome).IsUnbroken := by
  cases outcome with
  | error failure =>
    refine ⟨unbroken.macros, unbroken.units, unbroken.known, ?_⟩
    intro other impossible
    cases impossible
  | ok unit =>
    have name : '\n' ∉ unit.withFinalNewline.name := named unit rfl
    refine ⟨unbroken.macros, ?_, ?_, ?_⟩
    · intro frame member
      rcases List.mem_cons.1 member with rfl | outer
      · exact name
      · exact unbroken.units frame outer
    · intro entry member
      rcases List.mem_append.1 member with earlier | added
      · exact unbroken.known entry earlier
      · rw [List.mem_singleton.1 added]
        exact name
    · intro other impossible
      cases impossible

/-! ## Along a course -/

namespace Course

variable {Answers : IncludeRequest → IncludeOutcome → Prop} {start last : Preprocessor}
  {readings : List Reading}

theorem orderly (course : Course Answers start readings last) (first : start.IsOrderly main) :
    last.IsOrderly main := by
  refine course.keeps (fun _ last => last.IsOrderly main) first ?_ ?_
  · intro readings preprocessor reading next _ orderly idle move
    exact orderly.move idle move
  · intro readings preprocessor request outcome _ orderly waiting _
    exact orderly.answered waiting outcome

/-- The readings of a course stand where they say. -/
theorem isFrom (course : Course Answers start readings last) (first : start.IsOrderly main) :
    ∀ reading ∈ readings, reading.IsFrom main last.resolved := by
  refine course.keeps (fun readings last =>
    ∀ reading ∈ readings, reading.IsFrom main last.resolved) (by simp) ?_ ?_
  · intro readings preprocessor reading next earlier known idle move other member
    rw [resolved_of_move move]
    rcases List.mem_append.1 member with before | new
    · exact known other before
    · rw [Option.mem_toList] at new
      cases new
      exact (earlier.orderly first).isFrom move
  · intro readings preprocessor request outcome _ known _ _ other member
    cases outcome with
    | error failure => exact known other member
    | ok unit => exact (known other member).mono (List.subset_append_left _ _)

/-- When answers bear the names that were asked for, so do the known units. -/
theorem named (course : Course Answers start readings last) (first : start.resolved = [])
    (fits : ∀ request unit, Answers request (.ok unit) → unit.name = request.target) :
    ∀ entry ∈ last.resolved, entry.2.name = entry.1 := by
  refine course.keeps (fun _ last =>
    ∀ entry ∈ last.resolved, entry.2.name = entry.1) (by simp [first]) ?_ ?_
  · intro readings preprocessor reading next _ earlier _ move
    rw [resolved_of_move move]
    exact earlier
  · intro readings preprocessor request outcome _ earlier _ answer
    cases outcome with
    | error failure => exact earlier
    | ok unit =>
      intro entry member
      rcases List.mem_append.1 member with known | added
      · exact earlier entry known
      · rw [List.mem_singleton.1 added]
        exact fits request unit answer

/-- Without line feeds at the start and in the names of answers, there are none later. -/
theorem unbroken (course : Course Answers start readings last) (first : start.IsOrderly main)
    (clean : start.IsUnbroken)
    (named : ∀ request unit, Answers request (.ok unit) → '\n' ∉ request.target →
      '\n' ∉ unit.name) :
    last.IsUnbroken ∧ ∀ reading ∈ readings, reading.IsUnbroken := by
  refine course.keeps (fun readings last =>
    last.IsUnbroken ∧ ∀ reading ∈ readings, reading.IsUnbroken) ⟨clean, by simp⟩ ?_ ?_
  · intro readings preprocessor reading next earlier known idle move
    refine ⟨known.1.move (earlier.orderly first) move, fun other member => ?_⟩
    rcases List.mem_append.1 member with before | new
    · exact known.2 other before
    · rw [Option.mem_toList] at new
      cases new
      exact known.1.reading move
  · intro readings preprocessor request outcome _ known waiting fits
    refine ⟨known.1.answered fun unit given => ?_, known.2⟩
    subst given
    exact named request unit fits (known.1.asks request waiting)

end Course

end Preprocessor

end ScriptPreprocessor
