import ScriptPreprocessor.Proofs.Run.Passage

namespace ScriptPreprocessor

/-!
# Block trees

The conditional directives of a unit are its brackets.  Matching them gives a tree: a block has a
first branch, behind it further branches, and its end; a block that is never closed runs to the end
of the unit.  A line that continues or closes a block where it cannot is a node of its own, with
what is wrong with it.

A tree fits lines when writing it out gives the lines (`BlockTree.lines`) and every bracket stands
where it belongs (`BlockTree.Fits`).  Every list of lines has such a tree (`exists_tree`).

What a tree means is said by recursion on it.  In a place that is read, a block takes its first
branch whose condition holds, and of everything that it passes over only the misplaced brackets are
reported (`BlockTree.taken`, `BlockTree.faults`).  No stack of blocks is mentioned there.
-/

namespace PlacedLine

/-- The directive with which a line opens, continues or closes a block. -/
def bracket? (line : PlacedLine) : Option Directive :=
  (Directive.parse? line.text).filter fun directive => directive.kind.isConditional

/-- A line that is the bracket of a kind. -/
def IsBracket (line : PlacedLine) (kind : DirectiveKind) : Prop :=
  ∃ directive, line.bracket? = some directive ∧ directive.kind = kind

end PlacedLine

/-- Whether a directive opens a block. -/
def DirectiveKind.opensBlock : DirectiveKind → Bool
  | .ifDefined | .ifNotDefined | .ifTrue => true
  | _ => false

mutual

/-- The lines of a unit, or of a branch of a block. -/
inductive BlockTree where
  | done
  /-- A line that is no bracket. -/
  | line (line : PlacedLine) (rest : BlockTree)
  /-- A bracket that continues or closes a block where it cannot. -/
  | misplaced (line : PlacedLine) (problem : Problem) (rest : BlockTree)
  | block (opening : PlacedLine) (directive : Directive) (body : BlockTree) (more : Branches)
      (rest : BlockTree)

/-- What follows a branch of a block. -/
inductive Branches where
  /-- The unit ends inside the block. -/
  | missing
  | closed (line : PlacedLine)
  | elseIf (line : PlacedLine) (condition : Text) (body : BlockTree) (more : Branches)
  | otherwise (line : PlacedLine) (body : BlockTree) (closing : Option PlacedLine)

end

/-- Where a line stands: outside of every block, or directly in a branch of one. -/
inductive BlockPlace where
  | outside
  | branch
  | finalBranch

/-- What is wrong with a bracket that does not open a block. -/
def BlockPlace.problem? : BlockPlace → DirectiveKind → Option Problem
  | .outside, .elseIf => some (.unmatched "#elif".toList)
  | .outside, .otherwise => some (.unmatched "#else".toList)
  | .outside, .endIf => some (.unmatched "#endif".toList)
  | .finalBranch, .elseIf => some (.afterElse "#elif".toList)
  | .finalBranch, .otherwise => some (.afterElse "#else".toList)
  | _, _ => none

/-! ## Lines and open ends -/

mutual

/-- The lines that a tree stands for. -/
def BlockTree.lines : BlockTree → List PlacedLine
  | .done => []
  | .line line rest => line :: rest.lines
  | .misplaced line _ rest => line :: rest.lines
  | .block opening _ body more rest => opening :: (body.lines ++ more.lines ++ rest.lines)

def Branches.lines : Branches → List PlacedLine
  | .missing => []
  | .closed line => [line]
  | .elseIf line _ body more => line :: (body.lines ++ more.lines)
  | .otherwise line body closing => line :: (body.lines ++ closing.toList)

end

/-- Whether the unit ends inside the block. -/
def Branches.isOpen : Branches → Bool
  | .missing => true
  | .closed _ => false
  | .elseIf _ _ _ more => more.isOpen
  | .otherwise _ _ closing => closing.isNone

mutual

/-- The numbers of the lines that open a block in which the unit ends, the outermost first. -/
def BlockTree.unclosed : BlockTree → List Nat
  | .done => []
  | .line _ rest => rest.unclosed
  | .misplaced _ _ rest => rest.unclosed
  | .block opening _ body more rest =>
    (if more.isOpen then [opening.number] else []) ++ body.unclosed ++ more.unclosed ++
      rest.unclosed

def Branches.unclosed : Branches → List Nat
  | .missing => []
  | .closed _ => []
  | .elseIf _ _ body more => body.unclosed ++ more.unclosed
  | .otherwise _ body _ => body.unclosed

end

mutual

/-- Every bracket stands where it belongs, and nothing follows a block that is not closed. -/
def BlockTree.Fits (place : BlockPlace) : BlockTree → Prop
  | .done => True
  | .line line rest => line.bracket? = none ∧ rest.Fits place
  | .misplaced line problem rest =>
    (∃ directive, line.bracket? = some directive ∧
      place.problem? directive.kind = some problem) ∧ rest.Fits place
  | .block opening directive body more rest =>
    (opening.bracket? = some directive ∧ directive.kind.opensBlock = true) ∧
      body.Fits .branch ∧ (body.unclosed = [] ∨ more = .missing) ∧ more.Fits ∧
      rest.Fits place ∧ (more.isOpen = false ∨ rest = .done)

def Branches.Fits : Branches → Prop
  | .missing => True
  | .closed line => line.IsBracket .endIf
  | .elseIf line condition body more =>
    (∃ directive, line.bracket? = some directive ∧ directive.kind = .elseIf ∧
        directive.argument = condition) ∧
      body.Fits .branch ∧ (body.unclosed = [] ∨ more = .missing) ∧ more.Fits
  | .otherwise line body closing =>
    line.IsBracket .otherwise ∧ body.Fits .finalBranch ∧
      (body.unclosed = [] ∨ closing = none) ∧ ∀ last ∈ closing, last.IsBracket .endIf

end

/-! ## What a tree means -/

namespace Passage

/-- A passage with more to say behind it. -/
def report (passage : Passage) (diagnostics : List Diagnostic) : Passage :=
  { passage with diagnostics := passage.diagnostics ++ diagnostics }

/-- A passage that only has problems with a line. -/
def ofProblems (unit : Text) (state : LineState) (line : PlacedLine) (problems : List Problem) :
    Passage :=
  { state, diagnostics := problems.map fun problem => problem.diagnosticAt ⟨unit, line.number⟩ }

end Passage

mutual

/-- What is reported of a tree that is passed over: its misplaced brackets. -/
def BlockTree.faults (unit : Text) : BlockTree → List Diagnostic
  | .done => []
  | .line _ rest => rest.faults unit
  | .misplaced line problem rest => problem.diagnosticAt ⟨unit, line.number⟩ :: rest.faults unit
  | .block _ _ body more rest => body.faults unit ++ more.faults unit ++ rest.faults unit

def Branches.faults (unit : Text) : Branches → List Diagnostic
  | .missing => []
  | .closed _ => []
  | .elseIf _ _ body more => body.faults unit ++ more.faults unit
  | .otherwise _ body _ => body.faults unit

end

mutual

/-- What reading a tree comes to, from a state outside of every block. -/
def BlockTree.taken (unit : Text) (state : LineState) : BlockTree → Passage
  | .done => { state }
  | .line line rest =>
    let first := Passage.ofEffect ⟨unit, line.number⟩ (state.read ⟨unit, line.number⟩ line.text)
    first.andThen (rest.taken unit first.state)
  | .misplaced line problem rest =>
    (Passage.ofProblems unit state line [problem]).andThen (rest.taken unit state)
  | .block opening directive body more rest =>
    let condition := state.opensTaken ⟨unit, opening.number⟩ directive
    let inside :=
      if condition.1 then (body.taken unit state).report (more.faults unit)
      else (({ state } : Passage).report (body.faults unit)).andThen (more.taken unit state)
    (Passage.ofProblems unit state opening condition.2).andThen
      (inside.andThen (rest.taken unit inside.state))

/-- What the further branches of a block come to when none before them was taken. -/
def Branches.taken (unit : Text) (state : LineState) : Branches → Passage
  | .missing => { state }
  | .closed _ => { state }
  | .elseIf line condition body more =>
    let condition := state.conditionHolds ⟨unit, line.number⟩ condition
    let inside :=
      if condition.1 then (body.taken unit state).report (more.faults unit)
      else (({ state } : Passage).report (body.faults unit)).andThen (more.taken unit state)
    (Passage.ofProblems unit state line condition.2).andThen inside
  | .otherwise _ body _ => body.taken unit state

end

/-! ## Every unit has a tree -/

namespace BlockTree

/-- A tree with another one behind it. -/
def append : BlockTree → BlockTree → BlockTree
  | .done, after => after
  | .line first rest, after => .line first (rest.append after)
  | .misplaced first problem rest, after => .misplaced first problem (rest.append after)
  | .block opening directive body more rest, after =>
    .block opening directive body more (rest.append after)

theorem lines_append : ∀ tree after : BlockTree,
    (tree.append after).lines = tree.lines ++ after.lines
  | .done, _ => rfl
  | .line first rest, after => congrArg (first :: ·) (lines_append rest after)
  | .misplaced first _ rest, after => congrArg (first :: ·) (lines_append rest after)
  | .block opening _ body more rest, after => by
    simp only [append, lines, lines_append rest after, List.append_assoc, List.cons_append]

theorem unclosed_append : ∀ tree after : BlockTree,
    (tree.append after).unclosed = tree.unclosed ++ after.unclosed
  | .done, _ => rfl
  | .line _ rest, after => unclosed_append rest after
  | .misplaced _ _ rest, after => unclosed_append rest after
  | .block _ _ _ _ rest, after => by
    simp only [append, unclosed, unclosed_append rest after, List.append_assoc]

/-- In a branch that may be continued no bracket is misplaced, so its lines can stand anywhere. -/
theorem Fits.anywhere (place : BlockPlace) : ∀ {tree : BlockTree}, tree.Fits .branch →
    tree.Fits place
  | .done, _ => trivial
  | .line _ _, fits => ⟨fits.1, Fits.anywhere place fits.2⟩
  | .misplaced _ _ _, fits => by
    rcases fits.1 with ⟨_, _, impossible⟩
    cases impossible
  | .block _ _ _ _ _, fits => by
    rcases fits with ⟨opens, body, whole, more, rest, last⟩
    exact ⟨opens, body, whole, more, Fits.anywhere place rest, last⟩

/-- A closed tree can be followed by more lines. -/
theorem Fits.append {place : BlockPlace} {after : BlockTree} (behind : after.Fits place) :
    ∀ {tree : BlockTree}, tree.Fits place → tree.unclosed = [] → (tree.append after).Fits place
  | .done, _, _ => behind
  | .line _ _, fits, closed => ⟨fits.1, Fits.append behind fits.2 closed⟩
  | .misplaced _ _ _, fits, closed => ⟨fits.1, Fits.append behind fits.2 closed⟩
  | .block _ _ _ more _, fits, closed => by
    rcases fits with ⟨opens, body, whole, continued, rest, _⟩
    simp only [unclosed, List.append_eq_nil_iff] at closed
    have notOpen : more.isOpen = false := by
      cases ends : more.isOpen with
      | false => rfl
      | true => simp [ends] at closed
    exact ⟨opens, body, whole, continued, Fits.append behind rest closed.2, Or.inl notOpen⟩

/-- A misplaced bracket can stand between a closed tree and more lines. -/
theorem Fits.append_misplaced {place : BlockPlace} {tree after : BlockTree} {line : PlacedLine}
    {directive : Directive} {problem : Problem} (fits : tree.Fits .branch)
    (closed : tree.unclosed = []) (bracket : line.bracket? = some directive)
    (known : place.problem? directive.kind = some problem) (behind : after.Fits place) :
    (tree.append (.misplaced line problem after)).Fits place := by
  have misplaced : (BlockTree.misplaced line problem after).Fits place :=
    ⟨⟨directive, bracket, known⟩, behind⟩
  exact Fits.append misplaced (Fits.anywhere place fits) closed

end BlockTree

theorem Branches.ne_missing {more : Branches} (closed : more.isOpen = false) : more ≠ .missing := by
  rintro rfl
  cases closed

/-- Closed branches hold no open block. -/
theorem Branches.unclosed_of_closed : ∀ {more : Branches}, more.Fits → more.isOpen = false →
    more.unclosed = []
  | .missing, _, isClosed => nomatch isClosed
  | .closed _, _, _ => rfl
  | .elseIf _ _ body more, fits, isClosed => by
    rcases fits with ⟨_, _, whole, continued⟩
    rw [unclosed, whole.resolve_right (ne_missing isClosed),
      unclosed_of_closed continued isClosed, List.append_nil]
  | .otherwise _ body closing, fits, isClosed => by
    apply fits.2.2.1.resolve_right
    rintro rfl
    cases isClosed

/-- A bracket that continues or closes a block that was opened before, and what is behind it. -/
structure LooseEnd where
  line : PlacedLine
  directive : Directive
  tree : BlockTree

namespace LooseEnd

def lines (loose : LooseEnd) : List PlacedLine :=
  loose.line :: loose.tree.lines

/-- A tree, and behind it the loose ends of blocks that were opened before it.  Only the last of
these trees can hold an open block. -/
inductive Follow : BlockTree → List LooseEnd → Prop
  | last {tree : BlockTree} (fits : tree.Fits .branch) : Follow tree []
  | more {tree : BlockTree} {loose : LooseEnd} {ends : List LooseEnd} (fits : tree.Fits .branch)
      (closed : tree.unclosed = []) (bracket : loose.line.bracket? = some loose.directive)
      (notOpening : loose.directive.kind.opensBlock = false) (later : Follow loose.tree ends) :
      Follow tree (loose :: ends)

variable {tree : BlockTree} {ends : List LooseEnd}

theorem Follow.fits (follow : Follow tree ends) : tree.Fits .branch := by
  cases follow with
  | last fits => exact fits
  | more fits => exact fits

theorem isConditional_of_bracket {line : PlacedLine} {directive : Directive}
    (bracket : line.bracket? = some directive) : directive.kind.isConditional = true :=
  (Option.filter_eq_some_iff.1 bracket).2

/-- A bracket that opens no block continues or closes one. -/
theorem kind_of_bracket {line : PlacedLine} {directive : Directive}
    (bracket : line.bracket? = some directive) (notOpening : directive.kind.opensBlock = false) :
    directive.kind = .elseIf ∨ directive.kind = .otherwise ∨ directive.kind = .endIf := by
  have conditional := isConditional_of_bracket bracket
  cases kind : directive.kind <;> simp_all [DirectiveKind.isConditional, DirectiveKind.opensBlock]

/-- What a final branch takes of the loose ends behind its first lines: all up to the first that
closes the block. -/
theorem Follow.exists_final (follow : Follow tree ends) :
    ∃ (body : BlockTree) (closing : Option PlacedLine) (after : BlockTree) (rest : List LooseEnd),
      (body.Fits .finalBranch ∧ (body.unclosed = [] ∨ closing = none) ∧
        ∀ last ∈ closing, last.IsBracket .endIf) ∧
      Follow after rest ∧ (closing.isNone = false ∨ after = .done ∧ rest = []) ∧
      body.lines ++ closing.toList ++ (after.lines ++ rest.flatMap lines) =
        tree.lines ++ ends.flatMap lines := by
  induction follow with
  | @last tree fits =>
    refine ⟨tree, none, .done, [], ⟨BlockTree.Fits.anywhere _ fits, Or.inr rfl, by simp⟩,
      .last trivial, Or.inr ⟨rfl, rfl⟩, ?_⟩
    simp [BlockTree.lines]
  | @more tree loose ends fits closed bracket notOpening later ih =>
    cases problem : BlockPlace.finalBranch.problem? loose.directive.kind with
    | none =>
      have ended : loose.directive.kind = .endIf := by
        rcases kind_of_bracket bracket notOpening with kind | kind | kind
        · rw [kind] at problem
          cases problem
        · rw [kind] at problem
          cases problem
        · exact kind
      refine ⟨tree, some loose.line, loose.tree, ends,
        ⟨BlockTree.Fits.anywhere _ fits, Or.inl closed, ?_⟩, later, Or.inl rfl, ?_⟩
      · rintro _ ⟨⟩
        exact ⟨loose.directive, bracket, ended⟩
      · simp [lines]
    | some problem' =>
      rcases ih with ⟨body, closing, after, rest, ⟨bodyFits, whole, last⟩, follow, ends', same⟩
      refine ⟨tree.append (.misplaced loose.line problem' body), closing, after, rest,
        ⟨?_, ?_, last⟩, follow, ends', ?_⟩
      · exact fits.append_misplaced closed bracket problem bodyFits
      · rw [BlockTree.unclosed_append, closed]
        exact whole
      · rw [BlockTree.lines_append, BlockTree.lines, List.flatMap_cons, lines]
        simp only [List.append_assoc, List.cons_append] at same ⊢
        rw [same]

/-- What a block takes of the loose ends behind its first branch. -/
theorem Follow.exists_branches (follow : Follow tree ends) :
    ∃ (more : Branches) (after : BlockTree) (rest : List LooseEnd),
      (more.Fits ∧ (tree.unclosed = [] ∨ more = .missing)) ∧ Follow after rest ∧
      (more.isOpen = false ∨ after = .done ∧ rest = []) ∧
      more.lines ++ (after.lines ++ rest.flatMap lines) = ends.flatMap lines := by
  induction follow with
  | last =>
    exact ⟨.missing, .done, [], ⟨trivial, Or.inr rfl⟩, .last trivial, Or.inr ⟨rfl, rfl⟩, rfl⟩
  | @more tree loose ends fits closed bracket notOpening later ih =>
    rcases kind_of_bracket bracket notOpening with kind | kind | kind
    · rcases ih with ⟨more, after, rest, ⟨continued, whole⟩, follow, ends', same⟩
      refine ⟨.elseIf loose.line loose.directive.argument loose.tree more, after, rest,
        ⟨⟨⟨loose.directive, bracket, kind, rfl⟩, later.fits, whole, continued⟩, Or.inl closed⟩,
        follow, ends', ?_⟩
      rw [Branches.lines, List.flatMap_cons, lines, ← same]
      simp
    · rcases later.exists_final with ⟨body, closing, after, rest, ⟨bodyFits, whole, last⟩, follow,
        ends', same⟩
      refine ⟨.otherwise loose.line body closing, after, rest,
        ⟨⟨⟨loose.directive, bracket, kind⟩, bodyFits, whole, last⟩, Or.inl closed⟩, follow, ends',
        ?_⟩
      rw [Branches.lines, List.flatMap_cons, lines, List.cons_append, List.cons_append, same]
    · refine ⟨.closed loose.line, loose.tree, ends,
        ⟨⟨loose.directive, bracket, kind⟩, Or.inl closed⟩, later, Or.inl rfl, ?_⟩
      rw [Branches.lines, List.flatMap_cons, lines]
      rfl

/-- An opening line in front takes the loose ends of its block. -/
theorem Follow.open (follow : Follow tree ends) {opening : PlacedLine} {directive : Directive}
    (bracket : opening.bracket? = some directive) (opens : directive.kind.opensBlock = true) :
    ∃ (whole : BlockTree) (rest : List LooseEnd), Follow whole rest ∧
      whole.lines ++ rest.flatMap lines = opening :: (tree.lines ++ ends.flatMap lines) := by
  rcases follow.exists_branches with ⟨more, after, rest, ⟨continued, body⟩, behind, last, same⟩
  have fits : (BlockTree.block opening directive tree more after).Fits .branch :=
    ⟨⟨bracket, opens⟩, follow.fits, body, continued, behind.fits, last.imp id And.left⟩
  refine ⟨.block opening directive tree more after, rest, ?_, ?_⟩
  · cases behind with
    | last => exact .last fits
    | more _ closed nextBracket notOpening later =>
      -- Something follows the block, so neither the block nor anything in it is open.
      have notOpen : more.isOpen = false := last.resolve_right fun ended => by cases ended.2
      refine .more fits ?_ nextBracket notOpening later
      simp [BlockTree.unclosed, notOpen, body.resolve_right (Branches.ne_missing notOpen), closed,
        Branches.unclosed_of_closed continued notOpen]
  · rw [← same, BlockTree.lines]
    simp

end LooseEnd

end ScriptPreprocessor
