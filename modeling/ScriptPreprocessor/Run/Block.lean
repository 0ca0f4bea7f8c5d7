import ScriptPreprocessor.Directive.Line
import ScriptPreprocessor.Run.Problem

namespace ScriptPreprocessor

/-!
# Conditional blocks

The blocks that are open in a unit form a list, the innermost first.  Only the innermost one
decides whether a line is active: a block that is opened on an inactive line counts as finished at
once, so none of its branches ever becomes active.
-/

/-- How far a block is.  Having taken a branch before and lying in a skipped branch come to the
same: no later branch is taken, and no condition is looked at. -/
inductive BranchState where
  /-- No branch has been taken yet. -/
  | searching
  /-- The current branch is taken. -/
  | active
  /-- A branch was taken before, or the block lies in a skipped branch. -/
  | finished
  deriving DecidableEq, Repr

/-- An open block: its state, the line that opened it, and whether its `#else` was seen.  The line
is kept for the message about a block that is never closed. -/
structure Block where
  branch : BranchState
  openedAt : Nat
  elseSeen : Bool
  deriving DecidableEq, Repr

namespace Block

/-- Whether a line inside the given blocks is active.  Only the innermost block is asked: it was
opened as finished if the line that opened it was not active. -/
def isActive : List Block → Bool
  | [] => true
  | block :: _ => block.branch == .active

def firstBranch (taken : Bool) : BranchState :=
  if taken then .active else .searching

def opening (branch : BranchState) (line : Nat) (blocks : List Block) : List Block :=
  ⟨branch, line, false⟩ :: blocks

/-- The state of a block behind a line that continues it, where `taken` tells whether the new
branch may be taken. -/
def nextBranch (branch : BranchState) (taken : Bool) : BranchState :=
  match branch with
  | .searching => firstBranch taken
  | .active | .finished => .finished

/-- The problem of a unit that ends inside a block, for every open block from the outermost, with
the line that opened it. -/
def unclosed (blocks : List Block) : List (Problem × Nat) :=
  blocks.reverse.map fun block => (.missingEnd, block.openedAt)

end Block

end ScriptPreprocessor
