import ScriptPreprocessor.Text.Basic

namespace ScriptPreprocessor

/-!
# Failures

Problems inside a script are diagnostics and never stop preprocessing.  A failure is a problem
around it: a configuration that cannot be used, a file that cannot be read, a question put to a
session that is not finished, a stored document that is damaged.
-/

/-- Why an operation around the preprocessor did not succeed.  What it is about is kept in its
parts, so that a caller need not take a message apart. -/
inductive Failure where
  | configuration (message : Text)
  | file (path cause : Text)
  | includeNotFound (target : Text)
  | includeFetchFailed (target reason : Text)
  | stillWaiting (unit : Text)
  | corruptDocument (reason : Text)
  | compilerMessage (text : Text)
  | internal (message : Text)
  deriving DecidableEq, Repr

inductive FailureArea where
  | configuration
  | file
  | inclusion
  | session
  | document
  | compiler
  | internal
  deriving DecidableEq, Repr

namespace Failure

/-- The area of a failure.  Scripts of callers can rely on it, while the wording of a failure may
change. -/
def area : Failure → FailureArea
  | .configuration _ => .configuration
  | .file _ _ => .file
  | .includeNotFound _ | .includeFetchFailed _ _ => .inclusion
  | .stillWaiting _ => .session
  | .corruptDocument _ => .document
  | .compilerMessage _ => .compiler
  | .internal _ => .internal

/-- Whether preprocessing can go on without the piece that failed.  It can without an include, which
leaves its line as it was, and without what a stored document or a compiler message would have
told. -/
def isRecoverable (failure : Failure) : Bool :=
  match failure.area with
  | .inclusion | .document | .compiler => true
  | _ => false

def message : Failure → Text
  | .configuration message => "Configuration error: ".toList ++ message
  | .file path cause => "IO error for path '".toList ++ path ++ "': ".toList ++ cause
  | .includeNotFound target => "Include not found: ".toList ++ target
  | .includeFetchFailed target reason =>
    "Failed to fetch include '".toList ++ target ++ "': ".toList ++ reason
  | .stillWaiting unit =>
    "Preprocessing session for '".toList ++ unit ++ "' is still waiting for an include".toList
  | .corruptDocument reason => "Corrupt saved document: ".toList ++ reason
  | .compilerMessage text => "Cannot parse compiler message: ".toList ++ text
  | .internal message => "Internal error: ".toList ++ message

end Failure

end ScriptPreprocessor
