import ScriptPreprocessor.Proofs.Run.Surroundings
import ScriptPreprocessor.Proofs.Session.Calls
import ScriptPreprocessor.Proofs.Session.Positions

namespace ScriptPreprocessor

/-!
# Reported positions

Whatever a run reports, it reports of a line that exists: a line of the main unit or of a known
unit, counted from one.  Most reports are about the line that is being read.  Three kinds come later
and rest on what was kept until then: an include that fails is reported at the line of its request,
an open block at the line that opened it, and preprocessing that is left off at the last line of the
unit (`Preprocessor.IsPlaced`).

Only what the compiler says may point elsewhere, as its positions are made from the expanded text.
-/

/-- A line of one of the units. -/
def Origin.IsIn (units : List SourceUnit) (origin : Origin) : Prop :=
  ∃ unit ∈ units, unit.name = origin.unit ∧ 1 ≤ origin.line ∧ origin.line ≤ unit.lineCount

/-- A diagnostic reports a problem of a run, and names a line of one of the units for it. -/
def Diagnostic.IsReport (units : List SourceUnit) (diagnostic : Diagnostic) : Prop :=
  ∃ (problem : Problem) (origin : Origin), origin.IsIn units ∧
    diagnostic = { problem.diagnosticAt origin with
      unit := some origin.unit, line := some origin.line }

section

variable {units more : List SourceUnit} {origin : Origin}

theorem Origin.IsIn.mono (contained : units ⊆ more) (isIn : origin.IsIn units) :
    origin.IsIn more := by
  rcases isIn with ⟨unit, member, line⟩
  exact ⟨unit, contained member, line⟩

theorem Diagnostic.IsReport.mono {diagnostic : Diagnostic} (contained : units ⊆ more)
    (report : diagnostic.IsReport units) : diagnostic.IsReport more := by
  rcases report with ⟨problem, origin, isIn, shape⟩
  exact ⟨problem, origin, isIn.mono contained, shape⟩

theorem Origin.IsIn.diagnosticAt (isIn : origin.IsIn units) (problem : Problem) :
    (problem.diagnosticAt origin).IsReport units :=
  ⟨problem, origin, isIn, rfl⟩

/-- Nothing that a run reports counts as said by the compiler. -/
theorem Diagnostic.IsReport.kind_ne {diagnostic : Diagnostic}
    (report : diagnostic.IsReport units) : diagnostic.kind ≠ .compiler := by
  rcases report with ⟨problem, origin, _, rfl⟩
  change problem.kind ≠ .compiler
  unfold Problem.kind
  split <;> decide

end

/-! ## Blocks of a line -/

namespace LineState

variable {state : LineState} {origin : Origin}

/-- Every block behind a conditional directive was opened by it, or was open before. -/
theorem openedAt_of_readConditional {directive : Directive} {block : Block}
    (member : block ∈ (state.readConditional origin directive).state.blocks) :
    block.openedAt = origin.line ∨ ∃ other ∈ state.blocks, other.openedAt = block.openedAt := by
  have continued : ∀ isElse condition,
      block ∈ (state.continueBlock origin isElse condition).state.blocks →
      ∃ other ∈ state.blocks, other.openedAt = block.openedAt := by
    intro isElse condition member
    cases shape : state.blocks with
    | nil =>
      rw [continueBlock, shape] at member
      simp [report, shape] at member
    | cons innermost outer =>
      rw [state_of_continueBlock shape] at member
      split at member
      · exact ⟨block, shape ▸ member, rfl⟩
      · rcases List.mem_cons.1 member with rfl | inOuter
        · exact ⟨innermost, List.mem_cons_self, rfl⟩
        · exact ⟨block, List.mem_cons_of_mem _ inOuter, rfl⟩
  have opened : block ∈ (state.openBlock origin directive).state.blocks →
      block.openedAt = origin.line ∨ ∃ other ∈ state.blocks, other.openedAt = block.openedAt := by
    intro member
    rw [state_of_openBlock] at member
    rcases List.mem_cons.1 member with rfl | before
    · exact Or.inl rfl
    · exact Or.inr ⟨block, before, rfl⟩
  unfold readConditional at member
  split at member
  · exact Or.inr (continued _ _ member)
  · exact Or.inr (continued _ _ member)
  · rw [state_of_closeBlock] at member
    exact Or.inr ⟨block, List.mem_of_mem_tail member, rfl⟩
  · exact opened member

/-- Every block behind a line was opened on the line, or was open before. -/
theorem openedAt_of_read {line : Text} {block : Block}
    (member : block ∈ (state.read origin line).state.blocks) :
    block.openedAt = origin.line ∨ ∃ other ∈ state.blocks, other.openedAt = block.openedAt := by
  have before : block ∈ state.blocks → block.openedAt = origin.line ∨
      ∃ other ∈ state.blocks, other.openedAt = block.openedAt :=
    fun member => Or.inr ⟨block, member, rfl⟩
  have reads := state.reads_read origin line
  generalize state.read origin line = effect at member reads
  cases reads with
  | conditional => exact openedAt_of_readConditional member
  | @pragma directive =>
    rcases state.exists_readPragma directive.argument with ⟨_, _, _, effect⟩
    rw [effect] at member
    exact before member
  | _ => exact before member

end LineState

/-! ## Frames -/

/-- The lines that a frame keeps for later reports are lines that were read. -/
structure Frame.IsPlaced (frame : Frame) : Prop where
  read : frame.linesRead ≤ frame.unit.lineCount
  opened : ∀ block ∈ frame.blocks, 1 ≤ block.openedAt ∧ block.openedAt ≤ frame.linesRead
  off : frame.enabled = false → 1 ≤ frame.linesRead

namespace Frame

variable {frame : Frame} {units : List SourceUnit}

theorem isPlaced_ofUnit (key : Text) (unit : SourceUnit) : (ofUnit key unit).IsPlaced :=
  ⟨Nat.zero_le _, (fun _ impossible => nomatch impossible), (fun impossible => nomatch impossible)⟩

theorem isPlaced_mainFrame (options : RunOptions) (unit : SourceUnit) :
    (Preprocessor.mainFrame options unit).IsPlaced := by
  refine Preprocessor.mainFrame_cases (fun _ => isPlaced_ofUnit unit.name unit) fun lines _ => ?_
  refine ⟨?_, (fun _ impossible => nomatch impossible), fun _ => Nat.le_refl 1⟩
  have nonempty : unit.lines.length ≠ 0 := by simp [lines]
  exact Nat.one_le_iff_ne_zero.2 nonempty

/-- What is reported of a unit at its end is reported of lines that were read. -/
theorem IsPlaced.closingDiagnostics (placed : frame.IsPlaced) (known : frame.unit ∈ units)
    (wasIncluded : Bool) :
    ∀ diagnostic ∈ frame.closingDiagnostics wasIncluded, diagnostic.IsReport units := by
  intro diagnostic member
  rcases List.mem_append.1 member with unclosed | leftOff
  · rcases List.mem_map.1 unclosed with ⟨⟨problem, line⟩, listed, rfl⟩
    rcases List.mem_map.1 listed with ⟨block, isOpen, shape⟩
    cases shape
    have opened := placed.opened block (List.mem_reverse.1 isOpen)
    exact Origin.IsIn.diagnosticAt ⟨frame.unit, known, rfl, opened.1, opened.2.trans placed.read⟩ _
  · split at leftOff
    · next off =>
      rw [List.mem_singleton.1 leftOff]
      have isOff : frame.enabled = false := by
        rw [Bool.and_eq_true, Bool.not_eq_true'] at off
        exact off.1
      exact Origin.IsIn.diagnosticAt
        ⟨frame.unit, known, rfl, (placed.off isOff).trans placed.read, Nat.le_refl _⟩ _
    · cases leftOff

theorem IsStack.unit_mem {main : SourceUnit} {resolved : ResolvedUnits} {frames : List Frame}
    (stack : IsStack main resolved frames) :
    ∀ frame ∈ frames, frame.unit ∈ main :: resolved.map Prod.snd := by
  induction stack with
  | empty =>
    intro frame impossible
    cases impossible
  | main unit =>
    intro frame member
    rw [List.mem_singleton.1 member, unit]
    exact List.mem_cons_self
  | @included innermost below outer notEmpty known position ih =>
    intro frame member
    rcases List.mem_cons.1 member with rfl | inBelow
    · exact List.mem_cons_of_mem _ (List.mem_map.2 ⟨_, known, rfl⟩)
    · exact ih frame inBelow

end Frame

/-! ## Runs -/

namespace Preprocessor

/-- The units that a run knows, the main unit among them. -/
def unitsOver (preprocessor : Preprocessor) (main : SourceUnit) : List SourceUnit :=
  main :: preprocessor.resolved.map Prod.snd

/-- Everything that a run has reported, and everything that it may report later, is about lines of
the units that it knows. -/
structure IsPlaced (main : SourceUnit) (preprocessor : Preprocessor) : Prop where
  diagnostics : ∀ diagnostic ∈ preprocessor.diagnostics.toList,
    diagnostic.IsReport (preprocessor.unitsOver main)
  frames : ∀ frame ∈ preprocessor.frames, frame.IsPlaced
  asks : ∀ request, preprocessor.pending = some request →
    Origin.IsIn (preprocessor.unitsOver main) ⟨request.includer, request.line⟩

variable {main : SourceUnit} {preprocessor next : Preprocessor}

theorem isPlaced_enter (options : RunOptions) (environment : Environment) (main : SourceUnit) :
    ((ofEnvironment options environment).enter main).IsPlaced main := by
  refine ⟨?_, ?_, ?_⟩
  · intro diagnostic impossible
    simp [enter, ofEnvironment] at impossible
  · intro frame member
    rw [List.mem_singleton.1 member]
    exact Frame.isPlaced_mainFrame options main
  · intro request waiting
    cases waiting

section Reading

variable {frame : Frame} {below : List Frame} {line : Text} {unread : List Text}

theorem IsOrderly.linesRead_lt (orderly : preprocessor.IsOrderly main)
    (stack : preprocessor.frames = frame :: below) (lines : frame.unread = line :: unread) :
    frame.linesRead < frame.unit.lineCount := by
  have whole := orderly.stack
  rw [stack] at whole
  exact (List.getElem?_eq_some_iff.1 (whole.position.line?_eq lines)).1

/-- The line that a run reads is a line of a unit that it knows. -/
theorem IsOrderly.isIn_reading (orderly : preprocessor.IsOrderly main)
    (stack : preprocessor.frames = frame :: below) (lines : frame.unread = line :: unread) :
    Origin.IsIn (preprocessor.unitsOver main) ⟨frame.unit.name, frame.linesRead + 1⟩ := by
  have known := orderly.stack.unit_mem frame (stack ▸ List.mem_cons_self)
  exact ⟨frame.unit, known, rfl, Nat.succ_pos _, orderly.linesRead_lt stack lines⟩

/-- Behind a line that a run reads, its frame still keeps lines that were read. -/
theorem IsOrderly.isPlaced_advance (orderly : preprocessor.IsOrderly main)
    (stack : preprocessor.frames = frame :: below) (lines : frame.unread = line :: unread)
    (placed : frame.IsPlaced) :
    (advance frame unread (preprocessor.readingOf frame below line).effect.state).IsPlaced := by
  have bound := orderly.linesRead_lt stack lines
  refine ⟨bound, ?_, fun _ => Nat.succ_pos _⟩
  intro block member
  rcases LineState.openedAt_of_read member with onLine | ⟨other, wasOpen, same⟩
  · rw [onLine]
    exact ⟨Nat.succ_pos _, Nat.le_refl _⟩
  · rw [← same]
    have opened := placed.opened other wasOpen
    exact ⟨opened.1, opened.2.trans (Nat.le_succ _)⟩

end Reading

theorem isReport_of_push {units : List SourceUnit} {earlier : Array Diagnostic} {added : Diagnostic}
    (known : ∀ diagnostic ∈ earlier.toList, diagnostic.IsReport units)
    (report : added.IsReport units) :
    ∀ diagnostic ∈ (earlier.push added).toList, diagnostic.IsReport units := by
  intro diagnostic member
  rw [Array.toList_push] at member
  rcases List.mem_append.1 member with before | new
  · exact known diagnostic before
  · rw [List.mem_singleton.1 new]
    exact report

theorem isReport_of_append {units : List SourceUnit} {earlier : Array Diagnostic}
    {added : List Diagnostic} (known : ∀ diagnostic ∈ earlier.toList, diagnostic.IsReport units)
    (reports : ∀ diagnostic ∈ added, diagnostic.IsReport units) :
    ∀ diagnostic ∈ (earlier ++ added.toArray).toList, diagnostic.IsReport units := by
  intro diagnostic member
  rw [Array.toList_append, List.toList_toArray] at member
  rcases List.mem_append.1 member with before | new
  · exact known diagnostic before
  · exact reports diagnostic new

/-- Every move keeps reports at lines that exist. -/
theorem IsPlaced.move {reading : Option Reading} (placed : preprocessor.IsPlaced main)
    (orderly : preprocessor.IsOrderly main) (move : Move preprocessor reading next) :
    next.IsPlaced main := by
  cases move with
  | @leave frame below stack exhausted =>
    have known := orderly.stack.unit_mem frame (stack ▸ List.mem_cons_self)
    have placedFrame := placed.frames frame (stack ▸ List.mem_cons_self)
    refine ⟨?_, ?_, placed.asks⟩
    · exact isReport_of_append placed.diagnostics (placedFrame.closingDiagnostics known _)
    · intro other member
      exact placed.frames other (stack ▸ List.mem_cons_of_mem _ member)
  | @read frame below line unread _ stack lines placement =>
    have here := orderly.isIn_reading stack lines
    have advanced := orderly.isPlaced_advance stack lines
      (placed.frames frame (stack ▸ List.mem_cons_self))
    have diagnostics : ∀ diagnostic ∈
        (preprocessor.behind frame below line unread).diagnostics.toList,
        diagnostic.IsReport (preprocessor.unitsOver main) := by
      refine isReport_of_append placed.diagnostics ?_
      intro diagnostic member
      rcases List.mem_map.1 member with ⟨problem, _, rfl⟩
      exact here.diagnosticAt problem
    have frames : ∀ other ∈ (preprocessor.behind frame below line unread).frames,
        other.IsPlaced := by
      intro other member
      rcases List.mem_cons.1 member with rfl | outer
      · exact advanced
      · exact placed.frames other (stack ▸ List.mem_cons_of_mem _ outer)
    cases placement with
    | plain | skip => exact ⟨diagnostics, frames, placed.asks⟩
    | cycle => exact ⟨isReport_of_push diagnostics (here.diagnosticAt _), frames, placed.asks⟩
    | @reuse target unit =>
      refine ⟨diagnostics, ?_, placed.asks⟩
      intro other member
      rcases List.mem_cons.1 member with rfl | outer
      · exact Frame.isPlaced_ofUnit target unit
      · exact frames other outer
    | ask =>
      refine ⟨diagnostics, frames, ?_⟩
      intro request waiting
      cases waiting
      exact here

/-- An answer keeps reports at lines that exist; a failed one is reported at the line of its
request. -/
theorem IsPlaced.answered {request : IncludeRequest} (placed : preprocessor.IsPlaced main)
    (waiting : preprocessor.pending = some request) (outcome : IncludeOutcome) :
    (preprocessor.answered request outcome).IsPlaced main := by
  cases outcome with
  | error failure =>
    refine ⟨?_, placed.frames, ?_⟩
    · exact isReport_of_push placed.diagnostics ((placed.asks request waiting).diagnosticAt _)
    · intro other impossible
      cases impossible
  | ok unit =>
    have contained : preprocessor.unitsOver main ⊆
        (preprocessor.answered request (.ok unit)).unitsOver main := by
      refine List.cons_subset_cons _ ?_
      simp only [Preprocessor.answered, splice, List.map_append]
      exact List.subset_append_left _ _
    refine ⟨?_, ?_, ?_⟩
    · intro diagnostic member
      exact (placed.diagnostics diagnostic member).mono contained
    · intro frame member
      rcases List.mem_cons.1 member with rfl | outer
      · exact Frame.isPlaced_ofUnit _ _
      · exact placed.frames frame outer
    · intro other impossible
      cases impossible

theorem Course.placed {Answers : IncludeRequest → IncludeOutcome → Prop}
    {start last : Preprocessor} {readings : List Reading}
    (course : Course Answers start readings last) (first : start.IsOrderly main)
    (initially : start.IsPlaced main) : last.IsPlaced main := by
  refine course.keeps (fun _ last => last.IsPlaced main) initially ?_ ?_
  · intro readings preprocessor reading next earlier placed _ move
    exact placed.move (earlier.orderly first) move
  · intro readings preprocessor request outcome _ placed waiting _
    exact placed.answered waiting outcome

end Preprocessor

/-! ## Sessions -/

namespace Session

variable {options : RunOptions} {environment : Environment} {main : SourceUnit}
  {session : Session} {output : RunOutput}

/-- A finished session has the output of a course, which may have grown by what the compiler
said. -/
theorem exists_grows_of_reached (reached : Reached options environment main session)
    (done : session.phase = .done output) :
    ∃ readings last, Follows options environment main readings last ∧ last.step = .finish ∧
      last.output.Grows output := by
  refine reached.induction (motive := fun session => ∀ output, session.phase = .done output →
    ∃ readings last, Follows options environment main readings last ∧ last.step = .finish ∧
      last.output.Grows output) ?_ ?_ output done
  · intro session isDriven output done
    rcases isDriven.done output done with ⟨readings, last, follows, finished, rfl⟩
    exact ⟨readings, last, follows, finished, RunOutput.Grows.refl _⟩
  · intro session recorded messages count told grown output done
    rcases exists_done_of_record told with ⟨produced, phase, rfl⟩
    cases done
    rcases grown _ phase with ⟨readings, last, follows, finished, grows⟩
    refine ⟨readings, last, follows, finished, grows.trans ⟨_, ?_, rfl⟩⟩
    exact fun diagnostic member => kind_of_mem_messageDiagnostics member

/-- Every line that was read for an output is a line of the main unit or of an included one. -/
theorem Journal.isIn_origin {readings : List Reading}
    (journal : Journal options environment main output readings) {reading : Reading}
    (member : reading ∈ readings) : reading.origin.IsIn (main :: output.units) := by
  rcases journal.isFrom member with ⟨found, outer, included⟩
  have bound : reading.index < reading.unit.lineCount := (List.getElem?_eq_some_iff.1 found).1
  refine ⟨reading.unit, ?_, rfl, Nat.succ_pos _, bound⟩
  cases inside : reading.isIncluded with
  | false =>
    rw [outer inside]
    exact List.mem_cons_self
  | true => exact List.mem_cons_of_mem _ (included inside)

/-- Every origin in the line map of a finished session is a line of the main unit or of one of the
units that were included, no two of which have the same name; and so is what every diagnostic names
that is not said by the compiler. -/
theorem reports_isIn (reached : Reached options environment main session)
    (done : session.phase = .done output) :
    ((main :: output.units).map SourceUnit.name).Nodup ∧
      (∀ entry ∈ output.lineMap.entries, entry.origin.IsIn (main :: output.units)) ∧
      ∀ diagnostic ∈ output.diagnostics,
        diagnostic.kind ≠ .compiler ↔ diagnostic.IsReport (main :: output.units) := by
  rcases exists_grows_of_reached reached done with ⟨readings, last, follows, finished, grows⟩
  rcases grows with ⟨added, ofCompiler, rfl⟩
  have journal : Journal options environment main
      { last.output with diagnostics := last.output.diagnostics ++ added } readings :=
    ⟨last, follows, finished, rfl⟩
  refine ⟨?_, ?_, ?_⟩
  · rw [List.map_cons, List.nodup_cons]
    exact journal.names_distinct.symm
  · intro entry member
    rw [← Array.mem_toList_iff, journal.entries_eq, List.mem_mapIdx] at member
    rcases member with ⟨index, bound, rfl⟩
    rcases List.mem_filterMap.1 (List.getElem_mem bound) with ⟨reading, read, emitted⟩
    rcases Option.map_eq_some_iff.1 emitted with ⟨segments, _, shape⟩
    rw [← shape]
    exact journal.isIn_origin read
  · intro diagnostic member
    refine ⟨fun otherKind => ?_, fun report => report.kind_ne⟩
    have placed := follows.placed (isOrderly_opening options environment main)
      (Preprocessor.isPlaced_enter options environment main)
    rcases List.mem_append.1 member with ofRun | told
    · exact placed.diagnostics diagnostic ofRun
    · exact absurd (ofCompiler diagnostic told) otherKind

/-- The include leaves preprocessing off, which shows only at its end, and the main unit closes a
block that is not open. -/
theorem reports_isIn_end :
    ∃ main session output, main.text = "#include \"a\"\n#endif\n".toList ∧
      Reached {} .bare main session ∧ session.phase = .done output ∧
      output.units.map SourceUnit.text = ["#pragma preprocessor-off\nx\n".toList] ∧
      output.lineMap.entries.toList.map LineEntry.origin = [⟨"a".toList, 2⟩] ∧
      output.diagnostics.map (fun diagnostic => (diagnostic.unit, diagnostic.line)) =
        [(some "a".toList, some 2), (some "m".toList, some 2)] ∧
      ((main :: output.units).map SourceUnit.name).Nodup ∧
      (∀ entry ∈ output.lineMap.entries, entry.origin.IsIn (main :: output.units)) ∧
      ∀ diagnostic ∈ output.diagnostics,
        diagnostic.kind ≠ .compiler ↔ diagnostic.IsReport (main :: output.units) := by
  let main : SourceUnit := ⟨"m".toList, "#include \"a\"\n#endif\n".toList, none⟩
  let sources : IncludeSources :=
    { files := .ofEntries [("./a".toList, .contents
        [35, 112, 114, 97, 103, 109, 97, 32, 112, 114, 101, 112, 114, 111, 99, 101, 115, 115, 111,
          114, 45, 111, 102, 102, 10, 120, 10])] }
  have isSome : (advances 6 (sources, opening {} .bare main)).isSome = true := by decide +kernel
  rcases Option.isSome_iff_exists.1 isSome with ⟨⟨after, last⟩, reached⟩
  have shown :
      (advances 6 (sources, opening {} .bare main)).map (fun reached => reached.2.frames.length) =
        some 0 ∧
      (advances 6 (sources, opening {} .bare main)).map
          (fun reached => reached.2.output.units.map SourceUnit.text) =
        some ["#pragma preprocessor-off\nx\n".toList] ∧
      (advances 6 (sources, opening {} .bare main)).map (fun reached =>
          reached.2.output.lineMap.entries.toList.map LineEntry.origin) =
        some [⟨"a".toList, 2⟩] ∧
      (advances 6 (sources, opening {} .bare main)).map (fun reached =>
          reached.2.output.diagnostics.map fun diagnostic => (diagnostic.unit, diagnostic.line)) =
        some [(some "a".toList, some 2), (some "m".toList, some 2)] := by
    decide +kernel
  simp only [reached, Option.map_some, Option.some.injEq] at shown
  rcases shown with ⟨frames, units, origins, positions⟩
  have finished : last.step = .finish := by
    unfold Preprocessor.step
    rw [List.length_eq_zero_iff.1 frames]
  have done := phase_completed reached finished
  have reachable := reached_completed sources {} .bare main
  exact ⟨main, _, last.output, rfl, reachable, done, units, origins, positions,
    reports_isIn reachable done⟩

end Session

end ScriptPreprocessor
