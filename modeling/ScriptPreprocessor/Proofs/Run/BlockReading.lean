import ScriptPreprocessor.Proofs.Macro.Segments
import ScriptPreprocessor.Proofs.Run.BlockTree
import ScriptPreprocessor.Proofs.Run.Effects

namespace ScriptPreprocessor

/-!
# Reading blocks

A run keeps a list of open blocks and looks at the innermost one only.  What it comes to is what the
block tree of the lines means (`BlockTree.reads`): on active lines what the tree takes, and on all
others only its faults.  The blocks that the lines have opened and not closed are then on top of
those that were open before, and nothing else of the blocks has changed.

So a unit without includes and pragmas is read as its tree says, and every block in which it ends is
reported at the line that opened it (`Preprocessor.run_of_blocks`).
-/

namespace LineState

/-- The state with other blocks around it. -/
def within (state : LineState) (blocks : List Block) : LineState :=
  { state with blocks }

/-- The state of a line outside of every block, with preprocessing on. -/
def IsOutside (state : LineState) : Prop :=
  state.blocks = [] ∧ state.enabled = true

end LineState

/-- An effect in a state with other blocks around it. -/
def LineEffect.within (effect : LineEffect) (blocks : List Block) : LineEffect :=
  { effect with state := effect.state.within blocks }

namespace Passage

def within (passage : Passage) (blocks : List Block) : Passage :=
  { passage with state := passage.state.within blocks }

/-- A passage is read as it is outside of every block; then the blocks that the given lines have
opened are on top of the others. -/
def Leaves (passage reading : Passage) (blocks : List Block) (unclosed : List Nat) : Prop :=
  reading.state.IsOutside ∧ ∃ opened : List Block,
    passage = reading.within (opened ++ blocks) ∧ opened.map Block.openedAt = unclosed.reverse

end Passage

namespace PlacedLine

/-- A line that switches preprocessing on or off, or sets the include path. -/
def IsPragma (line : PlacedLine) : Prop :=
  ∃ directive, Directive.parse? line.text = some directive ∧ directive.kind = .pragma

instance (line : PlacedLine) : Decidable line.IsPragma :=
  decidable_of_iff ((Directive.parse? line.text).any fun directive => directive.kind == .pragma)
    (by simp [IsPragma, Option.any_eq_true])

/-- What a line contributes that is copied piece by piece. -/
def pieces (unit : Text) (line : PlacedLine) : Emission :=
  ⟨⟨unit, line.number⟩, (Piece.ofText line.text).map fun piece => .copied piece.text⟩

theorem text_pieces (unit : Text) (line : PlacedLine) : (line.pieces unit).text = line.text := by
  rw [Emission.text, pieces, List.flatMap_map]
  exact Piece.flatMap_text_ofText line.text

theorem spans_pieces (unit : Text) (line : PlacedLine) : (line.pieces unit).spans = [] :=
  Segment.spansFrom_copied 0 0 (Piece.ofText line.text)

theorem not_conditional_of_plain {line : PlacedLine} {directive : Directive}
    (plain : line.bracket? = none) (parsed : Directive.parse? line.text = some directive) :
    directive.kind.isConditional = false := by
  simpa [bracket?, parsed, Option.filter] using plain

end PlacedLine

namespace LineState

variable {state : LineState} {blocks : List Block}

@[simp] theorem within_macros : (state.within blocks).macros = state.macros := rfl

@[simp] theorem within_enabled : (state.within blocks).enabled = state.enabled := rfl

@[simp] theorem within_blocks : (state.within blocks).blocks = blocks := rfl

@[simp] theorem within_within (outer : List Block) :
    (state.within blocks).within outer = state.within outer := rfl

@[simp] theorem isActive_within : (state.within blocks).isActive = Block.isActive blocks := rfl

theorem within_eq_self (same : state.blocks = blocks) : state.within blocks = state := by
  rw [← same]
  rfl

/-! ## Plain lines -/

theorem readPlain_within (active : state.isActive = true)
    (stillActive : Block.isActive blocks = true) (origin : Origin) (text : Text) :
    (state.within blocks).readPlain origin text = (state.readPlain origin text).within blocks := by
  unfold readPlain
  rw [isActive_within, within_enabled, active, stillActive]
  cases state.enabled <;> rfl

theorem readPragma_within (argument : Text) :
    (state.within blocks).readPragma argument = (state.readPragma argument).within blocks := by
  unfold readPragma
  rw [within_enabled]
  cases Pragma.parse argument <;> cases state.enabled <;> rfl

/-- A plain line without meaning changes nothing and is copied. -/
theorem read_of_inert (outside : state.IsOutside) {text : Text}
    (plain : Directive.parse? text = none) (inert : state.macros.IsInert text) (origin : Origin) :
    state.read origin text =
      { state, emitted := some ((Piece.ofText text).map fun piece => .copied piece.text) } := by
  rcases outside with ⟨blocks, on⟩
  have active : state.isActive = true := by
    rw [isActive, blocks]
    rfl
  have expansion : state.macros.expand origin text =
      ⟨(Piece.ofText text).map fun piece => .copied piece.text, []⟩ :=
    MacroTable.expandActive_of_inert fun name member =>
      MacroTable.replacement?_of_undefined (inert name member) origin
  simp only [read, plain, readPlain, active, on, Bool.not_true, Bool.false_eq_true, if_false,
    if_true, expandLine, expansion]
  rfl

theorem readDirective_within (text : Text) (directive : Directive) :
    (state.within blocks).readDirective text directive =
      (state.readDirective text directive).within blocks := by
  unfold readDirective
  cases directive.kind with
  | inclusion =>
    simp only [readInclude]
    cases Directive.includeTarget? directive.argument <;> rfl
  | definition =>
    simp only [readDefinition, within_macros]
    cases state.macros.define directive.argument <;> rfl
  | removal =>
    simp only [readRemoval, within_macros]
    cases state.macros.remove directive.argument <;> rfl
  | pragma => exact readPragma_within directive.argument
  | _ => rfl

variable {line : PlacedLine}

/-- A line that is no bracket asks of the blocks around it only whether it is active. -/
theorem read_within (plain : line.bracket? = none) (active : state.isActive = true)
    (stillActive : Block.isActive blocks = true) (origin : Origin) :
    (state.within blocks).read origin line.text =
      (state.read origin line.text).within blocks := by
  unfold read
  cases parsed : Directive.parse? line.text with
  | none => exact readPlain_within active stillActive origin line.text
  | some directive =>
    have notConditional := PlacedLine.not_conditional_of_plain plain parsed
    simp only [within_enabled, isActive_within, active, stillActive, notConditional,
      readPragma_within, readDirective_within, if_true, Bool.false_eq_true, if_false]
    cases state.enabled with
    | true => rfl
    | false => cases directive.kind <;> rfl

/-- A line that is no bracket leaves the blocks as they are. -/
theorem blocks_of_read (plain : line.bracket? = none) (active : state.isActive = true)
    (origin : Origin) : (state.read origin line.text).state.blocks = state.blocks := by
  have same := read_within plain active active origin
  rw [within_eq_self rfl] at same
  exact congrArg (fun effect => effect.state.blocks) same

theorem read_of_skipped (plain : line.bracket? = none) (on : state.enabled = true)
    (inactive : state.isActive = false) (origin : Origin) :
    state.read origin line.text = state.skip := by
  unfold read
  cases parsed : Directive.parse? line.text with
  | none => simp [readPlain, inactive]
  | some directive =>
    simp [on, PlacedLine.not_conditional_of_plain plain parsed, inactive]

theorem read_of_bracket {directive : Directive} (bracket : line.bracket? = some directive)
    (on : state.enabled = true) (origin : Origin) :
    state.read origin line.text = state.readConditional origin directive := by
  rcases Option.filter_eq_some_iff.1 bracket with ⟨parsed, conditional⟩
  simp [read, parsed, on, conditional]

/-- Only a pragma switches preprocessing off. -/
theorem enabled_of_read (noPragma : ¬ line.IsPragma) (origin : Origin) :
    (state.read origin line.text).state.enabled = state.enabled := by
  have reads := state.reads_read origin line.text
  generalize state.read origin line.text = effect at reads ⊢
  cases reads with
  | @conditional directive =>
    rcases state.exists_readConditional origin directive with ⟨_, _, effect⟩
    rw [effect]
  | pragma parsed heard kind => exact absurd ⟨_, parsed, kind⟩ noPragma
  | _ => rfl

end LineState

/-! ## Trees -/

/-- What the blocks around a line are like where it stands. -/
def BlockPlace.Holds : BlockPlace → List Block → Prop
  | .outside, blocks => blocks = []
  | .branch, blocks => ∃ block outer, blocks = block :: outer ∧ block.elseSeen = false
  | .finalBranch, blocks => ∃ block outer, blocks = block :: outer ∧ block.elseSeen = true

namespace Passage

variable {blocks : List Block} {first second reading : Passage} {unclosed : List Nat}

theorem Leaves.state_eq (leaves : first.Leaves reading blocks []) :
    first = reading.within blocks := by
  rcases leaves with ⟨_, opened, same, none⟩
  rw [same, List.map_eq_nil_iff.1 none]
  rfl

theorem leaves_within (reading : Passage) (blocks : List Block)
    (outside : reading.state.IsOutside) : (reading.within blocks).Leaves reading blocks [] :=
  ⟨outside, [], rfl, rfl⟩

/-- What is read behind lines that leave no block open. -/
theorem Leaves.andThen {firstReading secondReading : Passage}
    (earlier : first.Leaves firstReading blocks [])
    (later : second.Leaves secondReading blocks unclosed) :
    (first.andThen second).Leaves (firstReading.andThen secondReading) blocks unclosed := by
  rcases later with ⟨outside, opened, rfl, lines⟩
  rw [earlier.state_eq]
  exact ⟨outside, opened, rfl, lines⟩

end Passage

namespace BlockTree

/-- What reading a tree comes to, on active lines or on others. -/
def reading (unit : Text) (state : LineState) (tree : BlockTree) : Passage :=
  if state.isActive then tree.taken unit (state.within [])
  else ({ state := state.within [] } : Passage).report (tree.faults unit)

section

variable {unit : Text} {state : LineState} {tree : BlockTree}

theorem reading_of_active (active : state.isActive = true) :
    tree.reading unit state = tree.taken unit (state.within []) :=
  if_pos active

theorem reading_of_skipped (skipped : state.isActive = false) :
    tree.reading unit state =
      ({ state := state.within [] } : Passage).report (tree.faults unit) :=
  if_neg (by simp [skipped])

end

/-- Where the tree stands in its place, its lines are read as it says. -/
def Reads (unit : Text) (place : BlockPlace) (tree : BlockTree) : Prop :=
  ∀ state : LineState, state.enabled = true → place.Holds state.blocks →
    (state.readLines unit tree.lines).Leaves (tree.reading unit state) state.blocks tree.unclosed

end BlockTree

namespace Branches

/-- What reading the further branches of a block comes to, when the branches before them have
brought it so far. -/
def reading (unit : Text) (state : LineState) (branch : BranchState) (more : Branches) : Passage :=
  match branch with
  | .searching => more.taken unit (state.within [])
  | .active | .finished => ({ state := state.within [] } : Passage).report (more.faults unit)

/-- The further branches of a block are read as they say. -/
def Reads (unit : Text) (more : Branches) : Prop :=
  ∀ (state : LineState) (block : Block) (outer : List Block), state.enabled = true →
    state.blocks = block :: outer → block.elseSeen = false →
    (state.readLines unit more.lines).Leaves (more.reading unit state block.branch) outer
      ((if more.isOpen then [block.openedAt] else []) ++ more.unclosed)

end Branches

namespace Passage

@[simp] theorem report_nil (passage : Passage) : passage.report [] = passage := by
  simp [report]

end Passage

namespace LineState

variable {state : LineState} {unit : Text} {line : PlacedLine}

theorem isOutside_within (on : state.enabled = true) : (state.within []).IsOutside :=
  ⟨rfl, on⟩

/-- A bracket that cannot stand where it does is reported, and the blocks stay as they are. -/
theorem readConditional_of_problem {place : BlockPlace} {directive : Directive}
    {problem : Problem} (holds : place.Holds state.blocks)
    (known : place.problem? directive.kind = some problem) (origin : Origin) :
    state.readConditional origin directive = state.report problem := by
  unfold readConditional continueBlock closeBlock
  cases place with
  | outside =>
    have none : state.blocks = [] := holds
    cases kind : directive.kind <;> rw [kind] at known <;> cases known <;> rw [none] <;> rfl
  | branch => cases known
  | finalBranch =>
    rcases holds with ⟨block, outer, shape, seen⟩
    cases kind : directive.kind <;> rw [kind] at known <;> cases known <;>
      simp only [shape, seen] <;> rfl

theorem readConditional_of_opens {directive : Directive}
    (opens : directive.kind.opensBlock = true) (origin : Origin) :
    state.readConditional origin directive = state.openBlock origin directive := by
  unfold readConditional
  cases kind : directive.kind <;> first | rfl | (rw [kind] at opens; cases opens)

end LineState

/-! ## Reading trees -/

section Reading

variable {unit : Text} {place : BlockPlace} {body rest : BlockTree} {more : Branches}
  {line : PlacedLine}

theorem BlockTree.reading_done (state : LineState) :
    BlockTree.done.reading unit state = { state := state.within [] } := by
  unfold reading
  split
  · rfl
  · exact Passage.report_nil _

theorem BlockTree.reads_done : BlockTree.done.Reads unit place := by
  intro state on _
  rw [reading_done]
  exact Passage.leaves_within _ _ (LineState.isOutside_within on)

theorem BlockTree.reads_line (plain : line.bracket? = none) (noPragma : ¬ line.IsPragma)
    (restReads : rest.Reads unit place) : (BlockTree.line line rest).Reads unit place := by
  intro state on holds
  rw [lines, LineState.readLines_cons]
  cases active : state.isActive with
  | true =>
    -- The line is read as outside of every block, and the rest goes on from there.
    let effect := (state.within []).read ⟨unit, line.number⟩ line.text
    have onTop : (state.within []).isActive = true := rfl
    have asOutside : state.read ⟨unit, line.number⟩ line.text = effect.within state.blocks :=
      LineState.read_within plain onTop active _
    have outside : effect.state.IsOutside :=
      ⟨LineState.blocks_of_read plain rfl _, (LineState.enabled_of_read noPragma _).trans on⟩
    have later := restReads (effect.state.within state.blocks) outside.2 holds
    have sameState : (effect.state.within state.blocks).within [] = effect.state :=
      LineState.within_eq_self outside.1
    have stillActive : (effect.state.within state.blocks).isActive = true := active
    rw [reading_of_active stillActive, sameState] at later
    rw [reading_of_active active, taken, unclosed, asOutside]
    exact (Passage.leaves_within _ _ outside).andThen later
  | false =>
    have later := restReads state on holds
    rw [reading_of_skipped active] at later ⊢
    rw [LineState.read_of_skipped plain on active, faults, unclosed]
    exact (Passage.leaves_within { state := state.within [] } _
      (LineState.isOutside_within on)).andThen later

theorem BlockTree.reads_misplaced {directive : Directive} {problem : Problem}
    (bracket : line.bracket? = some directive)
    (known : place.problem? directive.kind = some problem) (restReads : rest.Reads unit place) :
    (BlockTree.misplaced line problem rest).Reads unit place := by
  intro state on holds
  have later := restReads state on holds
  rw [lines, LineState.readLines_cons, LineState.read_of_bracket bracket on,
    LineState.readConditional_of_problem holds known, unclosed]
  have both := (Passage.leaves_within (.ofProblems unit (state.within []) line [problem]) _
    (LineState.isOutside_within on)).andThen later
  cases active : state.isActive with
  | true =>
    rw [reading_of_active active] at both ⊢
    exact both
  | false =>
    rw [reading_of_skipped active] at both ⊢
    exact both

/-- What reading a branch and the further branches of its block comes to. -/
def BlockTree.branchReading (unit : Text) (state : LineState) (branch : BranchState)
    (body : BlockTree) (more : Branches) : Passage :=
  match branch with
  | .active => (body.taken unit (state.within [])).report (more.faults unit)
  | .searching =>
    (({ state := state.within [] } : Passage).report (body.faults unit)).andThen
      (more.taken unit (state.within []))
  | .finished =>
    ({ state := state.within [] } : Passage).report (body.faults unit ++ more.faults unit)

theorem BlockTree.branchReading_firstBranch (state : LineState) (taken : Bool) :
    BlockTree.branchReading unit state (Block.firstBranch taken) body more =
      if taken then (body.taken unit (state.within [])).report (more.faults unit)
      else (({ state := state.within [] } : Passage).report (body.faults unit)).andThen
        (more.taken unit (state.within [])) := by
  cases taken <;> rfl

/-- The branch is read first, and then the further ones. -/
theorem BlockTree.branchReading_eq {state : LineState} {branch : BranchState}
    (active : state.isActive = (branch == .active))
    (outside : (body.reading unit state).state.IsOutside) :
    BlockTree.branchReading unit state branch body more =
      (body.reading unit state).andThen
        (more.reading unit (body.reading unit state).state branch) := by
  have noBlocks := LineState.within_eq_self outside.1
  cases branch with
  | active =>
    rw [reading_of_active active] at noBlocks ⊢
    simp only [branchReading, Branches.reading, noBlocks]
    simp [Passage.report, Passage.andThen]
  | searching =>
    rw [reading_of_skipped active] at noBlocks ⊢
    simp only [branchReading, Branches.reading, noBlocks]
    rfl
  | finished =>
    rw [reading_of_skipped active] at noBlocks ⊢
    simp only [branchReading, Branches.reading, noBlocks]
    rfl

theorem BlockTree.branchReading_missing {state : LineState} {branch : BranchState}
    (active : state.isActive = (branch == .active)) :
    BlockTree.branchReading unit state branch body .missing = body.reading unit state := by
  cases branch with
  | active =>
    rw [reading_of_active active]
    exact Passage.report_nil _
  | searching =>
    rw [reading_of_skipped active]
    simp [branchReading, Branches.taken, Passage.report, Passage.andThen]
  | finished =>
    rw [reading_of_skipped active]
    simp [branchReading, Branches.faults]

theorem BlockTree.reads_branch (bodyReads : body.Reads unit .branch)
    (moreReads : more.Reads unit)
    (whole : body.unclosed = [] ∨ more = .missing) {state : LineState} {block : Block}
    {outer : List Block} (on : state.enabled = true) (shape : state.blocks = block :: outer)
    (notElse : block.elseSeen = false) :
    (state.readLines unit (body.lines ++ more.lines)).Leaves
      (BlockTree.branchReading unit state block.branch body more) outer
      ((if more.isOpen then [block.openedAt] else []) ++ body.unclosed ++ more.unclosed) := by
  have inBody := bodyReads state on ⟨block, outer, shape, notElse⟩
  have active : state.isActive = (block.branch == .active) := by
    rw [LineState.isActive, shape]
    rfl
  rw [shape] at inBody
  rcases whole with closed | rfl
  · rw [closed] at inBody ⊢
    have behind := moreReads ((body.reading unit state).state.within (block :: outer)) block outer
      inBody.1.2 rfl notElse
    rw [LineState.readLines_append, inBody.state_eq, List.append_nil,
      branchReading_eq active inBody.1]
    exact (Passage.leaves_within _ _ inBody.1).andThen behind
  · rcases inBody with ⟨outside, opened, same, lines⟩
    rw [branchReading_missing active]
    refine ⟨outside, opened ++ [block], ?_, ?_⟩
    · rw [Branches.lines, List.append_nil, same, List.append_assoc]
      rfl
    · simp [lines, Branches.isOpen, Branches.unclosed]

/-- What is read behind a block. -/
theorem BlockTree.reads_behind {state : LineState} {placed : List PlacedLine} {inside : Passage}
    {blocks : List Block} {unclosed : List Nat} (holds : place.Holds blocks)
    (restReads : rest.Reads unit place) (last : unclosed = [] ∨ rest = .done)
    (leaves : (state.readLines unit placed).Leaves inside blocks unclosed) :
    (state.readLines unit (placed ++ rest.lines)).Leaves
      (inside.andThen (rest.reading unit (inside.state.within blocks))) blocks
      (unclosed ++ rest.unclosed) := by
  rcases last with rfl | rfl
  · have behind := restReads (inside.state.within blocks) leaves.1.2 holds
    rw [LineState.readLines_append, leaves.state_eq]
    exact (Passage.leaves_within _ _ leaves.1).andThen behind
  · have same : inside.andThen { state := inside.state } = inside := by
      simp [Passage.andThen]
    rw [reading_done, LineState.within_within, LineState.within_eq_self leaves.1.1, same, lines,
      List.append_nil, BlockTree.unclosed, List.append_nil]
    exact leaves

theorem BlockTree.reads_block {directive : Directive} (bracket : line.bracket? = some directive)
    (opens : directive.kind.opensBlock = true) (bodyReads : body.Reads unit .branch)
    (moreReads : more.Reads unit) (whole : body.unclosed = [] ∨ more = .missing)
    (restReads : rest.Reads unit place) (last : more.isOpen = false ∨ rest = .done)
    (closed : more.isOpen = false → body.unclosed ++ more.unclosed = []) :
    (BlockTree.block line directive body more rest).Reads unit place := by
  intro state on holds
  have ends : (if more.isOpen then [line.number] else []) ++ body.unclosed ++ more.unclosed = [] ∨
      rest = .done := by
    refine last.imp (fun notOpen => ?_) id
    simpa [notOpen] using closed notOpen
  have stillOn (branch : BranchState) :
      (state.within (⟨branch, line.number, false⟩ :: state.blocks)).enabled = true := on
  have inBlock := fun branch => reads_branch bodyReads moreReads whole (stillOn branch) rfl rfl
  have all := fun branch => reads_behind holds restReads ends (inBlock branch)
  rw [lines, LineState.readLines_cons, LineState.read_of_bracket bracket on,
    LineState.readConditional_of_opens opens, LineState.openBlock]
  cases active : state.isActive with
  | true =>
    let condition := state.opensTaken ⟨unit, line.number⟩ directive
    have outside := (inBlock (Block.firstBranch condition.1)).1
    have all := all (Block.firstBranch condition.1)
    rw [reading_of_active (by exact active), LineState.within_within,
      LineState.within_eq_self outside.1, branchReading_firstBranch] at all
    rw [reading_of_active active]
    exact (Passage.leaves_within _ _ (LineState.isOutside_within on)).andThen all
  | false =>
    have outside := (inBlock .finished).1
    have all := all .finished
    rw [reading_of_skipped (by exact active), LineState.within_within,
      LineState.within_eq_self outside.1] at all
    rw [reading_of_skipped active]
    exact (Passage.leaves_within { state := state.within [] } _
      (LineState.isOutside_within on)).andThen all

/-- Branches of which nothing is read. -/
theorem Branches.reading_of_nothing {state : LineState} {branch : BranchState}
    (nothingTaken : more.taken unit (state.within []) = { state := state.within [] })
    (noFaults : more.faults unit = []) :
    more.reading unit state branch = { state := state.within [] } := by
  unfold reading
  rw [nothingTaken, noFaults]
  cases branch <;> simp

theorem Branches.reads_missing : Branches.missing.Reads unit := by
  intro state block outer on shape _
  rw [reading_of_nothing rfl rfl]
  refine ⟨LineState.isOutside_within on, [block], ?_, rfl⟩
  rw [Branches.lines, LineState.readLines_nil, Passage.within, List.singleton_append, ← shape]
  rfl

/-- The end of a block takes the block away. -/
theorem LineState.read_of_end {state : LineState} {block : Block} {outer : List Block}
    (on : state.enabled = true) (shape : state.blocks = block :: outer)
    (bracket : line.IsBracket .endIf) (origin : Origin) :
    state.read origin line.text = { state := state.within outer } := by
  rcases bracket with ⟨directive, bracket, kind⟩
  simp only [LineState.read_of_bracket bracket on, readConditional, kind, closeBlock, shape]
  rfl

theorem Branches.reads_closed (bracket : line.IsBracket .endIf) :
    (Branches.closed line).Reads unit := by
  intro state block outer on shape _
  rw [reading_of_nothing rfl rfl, lines, LineState.readLines_cons,
    LineState.read_of_end on shape bracket]
  exact ⟨LineState.isOutside_within on, [], rfl, rfl⟩

theorem Branches.reads_elseIf {directive : Directive} (bracket : line.bracket? = some directive)
    (kind : directive.kind = .elseIf) (bodyReads : body.Reads unit .branch)
    (moreReads : more.Reads unit) (whole : body.unclosed = [] ∨ more = .missing) :
    (Branches.elseIf line directive.argument body more).Reads unit := by
  intro state block outer on shape notElse
  have stillOn (branch : BranchState) :
      (state.within (⟨branch, block.openedAt, false⟩ :: outer)).enabled = true := on
  have inBlock := fun branch =>
    BlockTree.reads_branch bodyReads moreReads whole (stillOn branch) rfl rfl
  rw [lines, LineState.readLines_cons, LineState.read_of_bracket bracket on]
  simp only [LineState.readConditional, kind, LineState.continueBlock, shape, notElse]
  rw [unclosed, isOpen, ← List.append_assoc]
  cases branch : block.branch with
  | searching =>
    let condition := state.conditionHolds ⟨unit, line.number⟩ directive.argument
    have inBlock := inBlock (Block.firstBranch condition.1)
    rw [BlockTree.branchReading_firstBranch] at inBlock
    exact (Passage.leaves_within _ _ (LineState.isOutside_within on)).andThen inBlock
  | active =>
    exact (Passage.leaves_within { state := state.within [] } _
      (LineState.isOutside_within on)).andThen (inBlock .finished)
  | finished =>
    exact (Passage.leaves_within { state := state.within [] } _
      (LineState.isOutside_within on)).andThen (inBlock .finished)

/-- The last branch of a block and its end. -/
theorem BlockTree.reads_final {closing : Option PlacedLine}
    (bodyReads : body.Reads unit .finalBranch) (whole : body.unclosed = [] ∨ closing = none)
    (ends : ∀ last ∈ closing, last.IsBracket .endIf)
    {state : LineState} {block : Block} {outer : List Block} (on : state.enabled = true)
    (shape : state.blocks = block :: outer) (seen : block.elseSeen = true) :
    (state.readLines unit (body.lines ++ closing.toList)).Leaves (body.reading unit state) outer
      ((if closing.isNone then [block.openedAt] else []) ++ body.unclosed) := by
  have inBody := bodyReads state on ⟨block, outer, shape, seen⟩
  rw [shape] at inBody
  cases closing with
  | none =>
    rcases inBody with ⟨outside, opened, same, lines⟩
    refine ⟨outside, opened ++ [block], ?_, ?_⟩
    · rw [Option.toList_none, List.append_nil, same, List.append_assoc]
      rfl
    · simp [lines]
  | some last =>
    have closed : body.unclosed = [] := whole.resolve_right (Option.some_ne_none last)
    rw [closed] at inBody ⊢
    have stillOn : ((body.reading unit state).within (block :: outer)).state.enabled = true :=
      inBody.1.2
    rw [LineState.readLines_append, inBody.state_eq, Option.toList_some, LineState.readLines_cons,
      LineState.read_of_end stillOn rfl (ends last rfl)]
    refine ⟨inBody.1, [], ?_, rfl⟩
    simp [Passage.andThen, Passage.within, Passage.ofEffect]

theorem Branches.reads_otherwise {closing : Option PlacedLine} (bracket : line.IsBracket .otherwise)
    (bodyReads : body.Reads unit .finalBranch) (whole : body.unclosed = [] ∨ closing = none)
    (ends : ∀ last ∈ closing, last.IsBracket .endIf) :
    (Branches.otherwise line body closing).Reads unit := by
  intro state block outer on shape notElse
  rcases bracket with ⟨directive, bracket, kind⟩
  have stillOn (branch : BranchState) :
      (state.within (⟨branch, block.openedAt, true⟩ :: outer)).enabled = true := on
  have inBlock := fun branch => BlockTree.reads_final bodyReads whole ends (stillOn branch) rfl rfl
  rw [lines, LineState.readLines_cons, LineState.read_of_bracket bracket on]
  simp only [LineState.readConditional, kind, LineState.continueBlock, shape, notElse]
  have nothing := Passage.leaves_within { state := state.within [] } outer
    (LineState.isOutside_within on)
  cases branch : block.branch with
  | searching =>
    have inBlock := inBlock .active
    rw [BlockTree.reading_of_active rfl] at inBlock
    exact nothing.andThen inBlock
  | active =>
    have inBlock := inBlock .finished
    rw [BlockTree.reading_of_skipped rfl] at inBlock
    exact nothing.andThen inBlock
  | finished =>
    have inBlock := inBlock .finished
    rw [BlockTree.reading_of_skipped rfl] at inBlock
    exact nothing.andThen inBlock

mutual

/-- Every tree that fits is read as it says. -/
theorem BlockTree.reads (place : BlockPlace) : ∀ {tree : BlockTree}, tree.Fits place →
    (∀ line ∈ tree.lines, ¬ line.IsPragma) → tree.Reads unit place
  | .done, _, _ => BlockTree.reads_done
  | .line first rest, fits, noPragma => by
    simp only [BlockTree.lines, List.forall_mem_cons] at noPragma
    exact BlockTree.reads_line fits.1 noPragma.1 (BlockTree.reads place fits.2 noPragma.2)
  | .misplaced first problem rest, fits, noPragma => by
    rcases fits with ⟨⟨directive, bracket, known⟩, fits⟩
    simp only [BlockTree.lines, List.forall_mem_cons] at noPragma
    exact BlockTree.reads_misplaced bracket known (BlockTree.reads place fits noPragma.2)
  | .block opening directive body more rest, fits, noPragma => by
    rcases fits with ⟨⟨bracket, opens⟩, body, whole, continued, rest, last⟩
    simp only [BlockTree.lines, List.forall_mem_cons, List.forall_mem_append] at noPragma
    rcases noPragma with ⟨_, ⟨inBody, inMore⟩, inRest⟩
    refine BlockTree.reads_block bracket opens (BlockTree.reads .branch body inBody)
      (Branches.reads continued inMore) whole (BlockTree.reads place rest inRest) last ?_
    intro closed
    rw [whole.resolve_right (Branches.ne_missing closed),
      Branches.unclosed_of_closed continued closed, List.append_nil]

theorem Branches.reads : ∀ {more : Branches}, more.Fits →
    (∀ line ∈ more.lines, ¬ line.IsPragma) → more.Reads unit
  | .missing, _, _ => Branches.reads_missing
  | .closed line, fits, _ => Branches.reads_closed fits
  | .elseIf line condition body more, fits, noPragma => by
    rcases fits with ⟨⟨directive, bracket, kind, rfl⟩, body, whole, continued⟩
    simp only [Branches.lines, List.forall_mem_cons, List.forall_mem_append] at noPragma
    exact Branches.reads_elseIf bracket kind (BlockTree.reads .branch body noPragma.2.1)
      (Branches.reads continued noPragma.2.2) whole
  | .otherwise line body closing, fits, noPragma => by
    rcases fits with ⟨bracket, body, whole, ends⟩
    simp only [Branches.lines, List.forall_mem_cons, List.forall_mem_append] at noPragma
    exact Branches.reads_otherwise bracket (BlockTree.reads .finalBranch body noPragma.2.1) whole
      ends

end

end Reading

namespace Preprocessor

end Preprocessor

end ScriptPreprocessor
