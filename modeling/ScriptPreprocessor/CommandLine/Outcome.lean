import ScriptPreprocessor.CommandLine.Script

namespace ScriptPreprocessor

/-!
# Outcomes of commands

A command reads a snapshot of the files around it.  Its outcome is what it shows, whether it failed,
and the files as they are afterwards.  Whatever was shown before a failure stays shown.
-/

/-- What a command leads to.  The tree is the whole snapshot of the files behind the command, so
that what was written can be told by comparing it with the one before. -/
structure Outcome where
  tree : FileTree
  /-- The text on standard output. -/
  output : Text := []
  /-- The text on standard error. -/
  remarks : Text := []
  failure : Option CommandFailure := none

namespace Outcome

def failed (tree : FileTree) (failure : CommandFailure) : Outcome :=
  { tree, failure := some failure }

def deliver (tree : FileTree) (text : Text) : Option Text → Outcome
  | none => { tree, output := text }
  | some path =>
    match tree.write path (Utf8.encode text) with
    | .ok tree => { tree }
    | .error problem => failed tree (.unwritable path problem.message)

/-- More of a command, done unless it has failed.  A failure keeps what was shown before it, and
adds nothing. -/
def andThen (outcome : Outcome) (output remarks : Text) (failure : Option CommandFailure) :
    Outcome :=
  if outcome.failure.isSome then outcome
  else
    { outcome with
      output := outcome.output ++ output
      remarks := outcome.remarks ++ remarks
      failure }

def ofAttempt (tree : FileTree) : Except CommandFailure Outcome → Outcome
  | .ok outcome => outcome
  | .error failure => failed tree failure

end Outcome

end ScriptPreprocessor
