import ScriptPreprocessor.Proofs.Condition.Tests
import ScriptPreprocessor.Proofs.Macro.Origins
import ScriptPreprocessor.Proofs.Run.BlockReading
import ScriptPreprocessor.Proofs.Run.Inlining

namespace ScriptPreprocessor

/-!
# Lines in other surroundings

A line of a unit can be read with more blocks around it, and under another name and number.  It
does the same there, up to the line numbers that the blocks remember, when the blocks around it are
active, when it continues and closes only blocks that were opened inside of them, and when it does
not ask where it stands (`LineState.Alike.read`).

Lines that stand in a skipped branch do nothing at all, and when they close the blocks they open,
nothing is left of them (`LineState.readLines_of_skipped`).
-/

open Text (Spelled)

variable {parts : List Text}

namespace Directive

/-- The argument of a directive is cut out of its line at seams. -/
theorem spelled_argument {line : Text} {directive : Directive} (spelled : Spelled parts line)
    (parsed : parse? line = some directive) : Spelled parts directive.argument := by
  have blank (character : Char) (isSpace : isSpaceOrTab character = true) :
      isWordCharacter character = false :=
    isWordCharacter_of_isBlank (isBlank_of_isSpaceOrTab isSpace)
  have behindBlanks := spelled.withoutEnding.dropWhile blank
  unfold parse? at parsed
  split at parsed
  · next rest shape =>
    cases parsed
    rw [shape] at behindBlanks
    have behindMark := (behindBlanks.of_mark (by decide)).dropWhile blank
    refine (behindMark.takeWhile_dropWhile ?_).2.trim
    intro character isBlank
    exact isWordCharacter_of_isBlank (by simpa using isBlank)
  · cases parsed

theorem lineKind?_of_bracket {line : PlacedLine} {directive : Directive}
    (bracket : line.bracket? = some directive) :
    lineKind? line.text = some directive.kind := by
  rw [lineKind?, (Option.filter_eq_some_iff.1 bracket).1]
  rfl

theorem isPragma_iff {line : PlacedLine} :
    line.IsPragma ↔ lineKind? line.text = some .pragma := by
  simp [PlacedLine.IsPragma, lineKind?]

/-- A line that is no bracket opens and closes nothing. -/
theorem depthAfter_of_plain {line : PlacedLine} (plain : line.bracket? = none) (depth : Nat) :
    depthAfter depth (lineKind? line.text) = some depth := by
  unfold lineKind?
  cases parsed : parse? line.text with
  | none => rfl
  | some directive =>
    have notConditional := PlacedLine.not_conditional_of_plain plain parsed
    revert notConditional
    cases kind : directive.kind <;> simp [kind, depthAfter, DirectiveKind.isConditional]

end Directive

namespace LineState

variable {state : LineState} {origin other : Origin}

/-! ## Other places -/

section Places

variable (puts : state.macros.IsSpelled parts) (hides : HidesOrigin parts)

include puts hides

theorem conditionHolds_of_spelled {condition : Text} (spelled : Spelled parts condition) :
    state.conditionHolds other condition = state.conditionHolds origin condition := by
  have same : state.macros.expand other (replaceDefined state.macros.isDefined condition) =
      state.macros.expand origin (replaceDefined state.macros.isDefined condition) :=
    MacroTable.expand_of_spelled puts hides (spelled_replaceDefined _ spelled)
  simp only [conditionHolds, same]

theorem opensTaken_of_spelled {directive : Directive}
    (spelled : Spelled parts directive.argument) :
    state.opensTaken other directive = state.opensTaken origin directive := by
  unfold opensTaken
  rw [conditionHolds_of_spelled puts hides spelled]

/-- A spelled line that is no bracket does the same wherever it stands. -/
theorem read_of_spelled {line : PlacedLine} (plain : line.bracket? = none)
    (spelled : Spelled parts line.text) :
    state.read other line.text = state.read origin line.text := by
  unfold read
  cases parsed : Directive.parse? line.text with
  | none =>
    have same : state.macros.expand other line.text = state.macros.expand origin line.text :=
      MacroTable.expand_of_spelled puts hides spelled
    simp only [readPlain, expandLine, same]
  | some directive =>
    simp only [PlacedLine.not_conditional_of_plain plain parsed, Bool.false_eq_true, if_false]

end Places

/-- What a line may put into lines is spelled from the words that it is spelled from. -/
theorem spelled_of_read (puts : state.macros.IsSpelled parts) {line : Text}
    (spelled : Spelled parts line) : (state.read origin line).state.macros.IsSpelled parts := by
  refine macros_of_read origin line puts ?defined fun _ removed => puts.remove removed
  case defined =>
    intro directive name macros parsed defined
    have inArgument := Directive.spelled_argument spelled parsed
    exact puts.define (fun _ written => MacroTable.spelled_of_isWritten inArgument written) defined

end LineState

/-! ## Brackets -/

namespace LineState

variable {state : LineState} {origin : Origin}

theorem state_of_openBlock (directive : Directive) :
    (state.openBlock origin directive).state =
      state.within (Block.opening
        (if state.isActive then Block.firstBranch (state.opensTaken origin directive).1
          else .finished) origin.line state.blocks) := by
  unfold openBlock
  split <;> rfl

theorem state_of_continueBlock {isElse : Bool} {condition : Text} {block : Block}
    {outer : List Block} (shape : state.blocks = block :: outer) :
    (state.continueBlock origin isElse condition).state =
      if block.elseSeen then state
      else state.within (⟨Block.nextBranch block.branch
        (isElse || (block.branch = .searching && (state.conditionHolds origin condition).1)),
        block.openedAt, isElse⟩ :: outer) := by
  simp only [continueBlock, shape]
  split
  · rfl
  · cases isElse with
    | true => rfl
    | false => by_cases searching : block.branch = .searching <;> simp [searching, within]

theorem state_of_closeBlock : state.closeBlock.state = state.within state.blocks.tail := by
  unfold closeBlock
  cases shape : state.blocks with
  | nil => exact (within_eq_self shape).symm
  | cons block outer => rfl

/-! ## Depths -/

theorem length_of_openBlock (directive : Directive) :
    (state.openBlock origin directive).state.blocks.length = state.blocks.length + 1 := by
  rw [state_of_openBlock]
  rfl

theorem length_of_continueBlock (isElse : Bool) (condition : Text) :
    (state.continueBlock origin isElse condition).state.blocks.length = state.blocks.length := by
  cases shape : state.blocks with
  | nil => simp [continueBlock, shape, report]
  | cons block outer =>
    rw [state_of_continueBlock shape]
    split <;> simp [shape]

theorem length_of_closeBlock :
    state.closeBlock.state.blocks.length = state.blocks.length - 1 := by
  rw [state_of_closeBlock]
  exact List.length_tail

/-- As many blocks are open behind a line as its kind says. -/
theorem depth_of_read (on : state.enabled = true) {text : Text} {depth : Nat}
    (reached : depthAfter state.blocks.length (Directive.lineKind? text) = some depth) :
    (state.read origin text).state.blocks.length = depth := by
  obtain ⟨line, rfl⟩ : ∃ line : PlacedLine, line.text = text := ⟨⟨0, text⟩, rfl⟩
  cases bracket : line.bracket? with
  | none =>
    rw [Directive.depthAfter_of_plain bracket, Option.some.injEq] at reached
    rw [← reached]
    cases active : state.isActive with
    | true => rw [blocks_of_read bracket active]
    | false =>
      rw [read_of_skipped bracket on active]
      rfl
  | some directive =>
    have conditional := (Option.filter_eq_some_iff.1 bracket).2
    rw [read_of_bracket bracket on]
    rw [Directive.lineKind?_of_bracket bracket] at reached
    unfold readConditional
    cases kind : directive.kind with
    | ifDefined | ifNotDefined | ifTrue =>
      rw [kind] at reached
      cases reached
      exact length_of_openBlock directive
    | elseIf | otherwise =>
      rw [kind] at reached
      simp only [depthAfter, Option.ite_none_left_eq_some, Option.some.injEq] at reached
      exact (length_of_continueBlock _ _).trans reached.2
    | endIf =>
      rw [kind] at reached
      simp only [depthAfter, Option.ite_none_left_eq_some, Option.some.injEq] at reached
      exact length_of_closeBlock.trans reached.2
    | _ =>
      rw [kind] at conditional
      cases conditional

/-! ## Skipped lines -/

/-- Blocks of which nothing is read any more. -/
def AllFinished (blocks : List Block) : Prop :=
  ∀ block ∈ blocks, block.branch = .finished

theorem isActive_of_finished {opened base : List Block} (finished : AllFinished opened)
    (inactive : Block.isActive base = false) : Block.isActive (opened ++ base) = false := by
  cases opened with
  | nil => exact inactive
  | cons block more => simp [Block.isActive, finished block List.mem_cons_self]

/-- A line in a skipped branch changes only the blocks that were opened there. -/
theorem exists_read_of_skipped {base opened : List Block} (on : state.enabled = true)
    (shape : state.blocks = opened ++ base) (finished : AllFinished opened)
    (inactive : Block.isActive base = false) {text : Text}
    (noPragma : Directive.lineKind? text ≠ some .pragma)
    {depth : Nat} (reached : depthAfter opened.length (Directive.lineKind? text) = some depth) :
    ∃ behind : List Block, behind.length = depth ∧ AllFinished behind ∧
      (state.read origin text).emitted = none ∧
      (state.read origin text).state = state.within (behind ++ base) := by
  obtain ⟨line, rfl⟩ : ∃ line : PlacedLine, line.text = text := ⟨⟨0, text⟩, rfl⟩
  have skipped : state.isActive = false := by
    rw [isActive, shape]
    exact isActive_of_finished finished inactive
  cases bracket : line.bracket? with
  | none =>
    rw [Directive.depthAfter_of_plain bracket, Option.some.injEq] at reached
    rw [read_of_skipped bracket on skipped]
    exact ⟨opened, reached, finished, rfl, (within_eq_self shape).symm⟩
  | some directive =>
    have conditional := (Option.filter_eq_some_iff.1 bracket).2
    rw [read_of_bracket bracket on, emitted_of_readConditional]
    rw [Directive.lineKind?_of_bracket bracket] at reached
    unfold readConditional
    cases kind : directive.kind with
    | ifDefined | ifNotDefined | ifTrue =>
      rw [kind] at reached
      cases reached
      refine ⟨⟨.finished, origin.line, false⟩ :: opened, rfl,
        List.forall_mem_cons.2 ⟨rfl, finished⟩, rfl, ?_⟩
      simp [state_of_openBlock, skipped, Block.opening, shape]
    | elseIf | otherwise =>
      rw [kind] at reached
      simp only [depthAfter, Option.ite_none_left_eq_some, Option.some.injEq] at reached
      rcases List.exists_cons_of_length_pos (Nat.pos_of_ne_zero reached.1) with ⟨block, more, rfl⟩
      rcases List.forall_mem_cons.1 finished with ⟨isFinished, allFinished⟩
      simp only [state_of_continueBlock (shape.trans (List.cons_append ..)), isFinished]
      split
      · exact ⟨block :: more, reached.2, finished, trivial, (within_eq_self shape).symm⟩
      · exact ⟨⟨.finished, block.openedAt, _⟩ :: more, reached.2,
          List.forall_mem_cons.2 ⟨rfl, allFinished⟩, trivial, rfl⟩
    | endIf =>
      rw [kind] at reached
      simp only [depthAfter, Option.ite_none_left_eq_some, Option.some.injEq] at reached
      rcases List.exists_cons_of_length_pos (Nat.pos_of_ne_zero reached.1) with ⟨block, more, rfl⟩
      refine ⟨more, reached.2, (List.forall_mem_cons.1 finished).2, rfl, ?_⟩
      simp [state_of_closeBlock, shape]
    | _ =>
      rw [kind] at conditional
      cases conditional

/-- Lines in a skipped branch change only the blocks that were opened there. -/
theorem readLines_of_skipped (unit : Text) {lines : List PlacedLine} {base opened : List Block}
    (on : state.enabled = true)
    (shape : state.blocks = opened ++ base) (finished : AllFinished opened)
    (inactive : Block.isActive base = false)
    (noPragma : ∀ line ∈ lines, Directive.lineKind? line.text ≠ some .pragma)
    {depth : Nat}
    (reached : depthBehind opened.length (lines.map PlacedLine.text) = some depth) :
    ∃ behind : List Block, behind.length = depth ∧ AllFinished behind ∧
      (state.readLines unit lines).emissions = [] ∧
      (state.readLines unit lines).state = state.within (behind ++ base) := by
  induction lines generalizing state opened with
  | nil =>
    cases reached
    exact ⟨opened, rfl, finished, rfl, (within_eq_self shape).symm⟩
  | cons line rest ih =>
    rcases Option.bind_eq_some_iff.1 reached with ⟨between, first, later⟩
    rw [List.forall_mem_cons] at noPragma
    rcases exists_read_of_skipped on shape finished inactive noPragma.1 first with
      ⟨behind, rfl, stillFinished, emitted, same⟩
    have stillOn : (state.within (behind ++ base)).enabled = true := on
    rcases ih stillOn rfl stillFinished noPragma.2 later with
      ⟨last, length, lastFinished, noEmissions, sameState⟩
    refine ⟨last, length, lastFinished, ?_, ?_⟩
    · rw [readLines_cons, same]
      simp [Passage.andThen, Passage.ofEffect, emitted, noEmissions]
    · rw [readLines_cons, same]
      exact sameState

end LineState

/-! ## More blocks -/

/-- What of a block decides how lines are read: everything but the line that opened it. -/
def Block.progress (block : Block) : BranchState × Bool :=
  (block.branch, block.elseSeen)

theorem Block.isActive_congr {first second : List Block}
    (same : first.map progress = second.map progress) : isActive first = isActive second := by
  cases first with
  | nil =>
    rw [List.map_nil, eq_comm, List.map_eq_nil_iff] at same
    rw [same]
  | cons block outer =>
    rcases List.map_eq_cons_iff.1 same.symm with ⟨other, more, rfl, progress, _⟩
    have branch : other.branch = block.branch := congrArg Prod.fst progress
    simp only [isActive, branch]

namespace LineState

/-- A state, and the same state with active blocks around its own. -/
structure Alike (parts : List Text) (outer : List Block) (inner whole : LineState) : Prop where
  same : whole = inner.within whole.blocks
  on : inner.enabled = true
  puts : inner.macros.IsSpelled parts
  blocks : whole.blocks.map Block.progress = (inner.blocks ++ outer).map Block.progress
  surrounded : Block.isActive outer = true

namespace Alike

variable {outer : List Block} {inner whole : LineState} {first second : Origin}

theorem isActive (alike : Alike parts outer inner whole) : whole.isActive = inner.isActive := by
  have same : whole.isActive = Block.isActive (inner.blocks ++ outer) :=
    Block.isActive_congr alike.blocks
  rw [same, LineState.isActive]
  cases inner.blocks with
  | nil => exact alike.surrounded
  | cons block more => rfl

/-- A line that is no bracket is read alike. -/
theorem read_plain (alike : Alike parts outer inner whole) (hides : HidesOrigin parts)
    {line : PlacedLine} (plain : line.bracket? = none) (noPragma : ¬ line.IsPragma)
    (spelled : Spelled parts line.text) :
    (whole.read second line.text).emitted = (inner.read first line.text).emitted ∧
      Alike parts outer (inner.read first line.text).state
        (whole.read second line.text).state := by
  have puts := alike.puts
  cases active : inner.isActive with
  | true =>
    have stillActive : Block.isActive whole.blocks = true := alike.isActive.trans active
    have same := LineState.read_within plain active stillActive second
    rw [← alike.same, LineState.read_of_spelled puts hides plain spelled] at same
    have blocks := LineState.blocks_of_read plain active first
    rw [same]
    refine ⟨rfl, rfl, (LineState.enabled_of_read noPragma first).trans alike.on,
      LineState.spelled_of_read puts spelled, ?_, alike.surrounded⟩
    rw [blocks]
    exact alike.blocks
  | false =>
    have on : whole.enabled = true := by
      rw [alike.same]
      exact alike.on
    rw [LineState.read_of_skipped plain alike.on active,
      LineState.read_of_skipped plain on (alike.isActive.trans active)]
    exact ⟨rfl, alike⟩

theorem within (alike : Alike parts outer inner whole) {innerBlocks wholeBlocks : List Block}
    (blocks : wholeBlocks.map Block.progress = (innerBlocks ++ outer).map Block.progress) :
    Alike parts outer (inner.within innerBlocks) (whole.within wholeBlocks) := by
  have same : whole.within wholeBlocks = inner.within wholeBlocks := by
    rw [alike.same]
    rfl
  exact ⟨same, alike.on, alike.puts, blocks, alike.surrounded⟩

theorem conditionHolds (alike : Alike parts outer inner whole) (hides : HidesOrigin parts)
    {condition : Text} (spelled : Spelled parts condition) :
    whole.conditionHolds second condition = inner.conditionHolds first condition := by
  rw [alike.same]
  exact LineState.conditionHolds_of_spelled alike.puts hides spelled

theorem openBlock (alike : Alike parts outer inner whole) (hides : HidesOrigin parts)
    {directive : Directive} (spelled : Spelled parts directive.argument) :
    Alike parts outer (inner.openBlock first directive).state
      (whole.openBlock second directive).state := by
  have taken : whole.opensTaken second directive = inner.opensTaken first directive := by
    rw [alike.same]
    exact LineState.opensTaken_of_spelled alike.puts hides spelled
  rw [state_of_openBlock, state_of_openBlock, alike.isActive, taken]
  apply alike.within
  simp [Block.opening, Block.progress, alike.blocks]

/-- Where no block of its own is open, the whole has none either. -/
theorem blocks_eq_nil (alike : Alike parts outer inner whole) (none : inner.blocks = [])
    (noOuter : outer = []) : whole.blocks = [] := by
  have blocks := alike.blocks
  rwa [none, noOuter, List.append_nil, List.map_nil, List.map_eq_nil_iff] at blocks

theorem continueBlock (alike : Alike parts outer inner whole) (hides : HidesOrigin parts)
    (own : outer = [] ∨ inner.blocks ≠ []) {isElse : Bool} {condition : Text}
    (spelled : Spelled parts condition) :
    Alike parts outer (inner.continueBlock first isElse condition).state
      (whole.continueBlock second isElse condition).state := by
  cases shape : inner.blocks with
  | nil =>
    have none := alike.blocks_eq_nil shape (own.resolve_right (not_not.2 shape))
    simp only [LineState.continueBlock, shape, none]
    exact alike
  | cons block more =>
    have blocks := alike.blocks
    rw [shape, List.cons_append, List.map_cons] at blocks
    rcases List.map_eq_cons_iff.1 blocks with ⟨other, rest, wholeShape, progress, later⟩
    have branch : other.branch = block.branch := congrArg Prod.fst progress
    have seen : other.elseSeen = block.elseSeen := congrArg Prod.snd progress
    have holds : whole.conditionHolds second condition = inner.conditionHolds first condition :=
      alike.conditionHolds hides spelled
    rw [state_of_continueBlock shape, state_of_continueBlock wholeShape, branch, seen, holds]
    split
    · exact alike
    · apply alike.within
      simp [Block.progress, later]

theorem closeBlock (alike : Alike parts outer inner whole)
    (own : outer = [] ∨ inner.blocks ≠ []) :
    Alike parts outer inner.closeBlock.state whole.closeBlock.state := by
  rw [state_of_closeBlock, state_of_closeBlock]
  apply alike.within
  cases shape : inner.blocks with
  | nil =>
    have noOuter := own.resolve_right (not_not.2 shape)
    simp [alike.blocks_eq_nil shape noOuter, noOuter]
  | cons block more => simp [List.map_tail, alike.blocks, shape]

/-- A bracket is read alike when it continues and closes only blocks of its own unit. -/
theorem read_bracket (alike : Alike parts outer inner whole) (hides : HidesOrigin parts)
    {line : PlacedLine} {directive : Directive} (bracket : line.bracket? = some directive)
    (spelled : Spelled parts line.text)
    (own : outer = [] ∨ (depthAfter inner.blocks.length (some directive.kind)).isSome) :
    (whole.read second line.text).emitted = (inner.read first line.text).emitted ∧
      Alike parts outer (inner.read first line.text).state
        (whole.read second line.text).state := by
  have on : whole.enabled = true := by
    rw [alike.same]
    exact alike.on
  rcases Option.filter_eq_some_iff.1 bracket with ⟨parsed, conditional⟩
  have inArgument := Directive.spelled_argument spelled parsed
  rw [read_of_bracket bracket alike.on, read_of_bracket bracket on, emitted_of_readConditional,
    emitted_of_readConditional]
  refine ⟨rfl, ?_⟩
  have ownBlock (closes : depthAfter 0 (some directive.kind) = none) :
      outer = [] ∨ inner.blocks ≠ [] := by
    refine own.imp_right fun reached none => ?_
    rw [none, List.length_nil, closes] at reached
    cases reached
  unfold readConditional
  cases kind : directive.kind with
  | ifDefined | ifNotDefined | ifTrue => exact alike.openBlock hides inArgument
  | elseIf | otherwise =>
    exact alike.continueBlock hides (ownBlock (by rw [kind]; rfl)) inArgument
  | endIf => exact alike.closeBlock (ownBlock (by rw [kind]; rfl))
  | _ =>
    rw [kind] at conditional
    cases conditional

/-- A line without a pragma is read alike when it continues and closes only blocks of its own
unit. -/
theorem read (alike : Alike parts outer inner whole) (hides : HidesOrigin parts) {text : Text}
    (noPragma : Directive.lineKind? text ≠ some .pragma) (spelled : Spelled parts text)
    (own : outer = [] ∨ (depthAfter inner.blocks.length (Directive.lineKind? text)).isSome)
    (first second : Origin) :
    (whole.read second text).emitted = (inner.read first text).emitted ∧
      Alike parts outer (inner.read first text).state (whole.read second text).state := by
  obtain ⟨line, rfl⟩ : ∃ line : PlacedLine, line.text = text := ⟨⟨0, text⟩, rfl⟩
  cases bracket : line.bracket? with
  | none =>
    have isNone : ¬ line.IsPragma := fun pragma => noPragma (Directive.isPragma_iff.1 pragma)
    exact alike.read_plain hides bracket isNone spelled
  | some directive =>
    rw [Directive.lineKind?_of_bracket bracket] at own
    exact alike.read_bracket hides bracket spelled own

end Alike

end LineState

end ScriptPreprocessor
