import ScriptPreprocessor.Text.Basic

namespace ScriptPreprocessor

/-!
# Diagnostics

A diagnostic is one message about a script.  Diagnostics are kept in the order in which they
arise, and equal ones are kept as often as they arise.
-/

/-- How much a diagnostic matters.  None of them stops a run: even behind an error the rest of the
script is expanded, so that all errors are seen at once. -/
inductive Severity where
  | info
  | warning
  | error
  deriving DecidableEq, Repr

def Severity.word : Severity → Text
  | .info => "info".toList
  | .warning => "warning".toList
  | .error => "error".toList

/-- Every severity, from the least to the greatest. -/
def Severity.all : List Severity := [.info, .warning, .error]

/-- What a diagnostic is about.  Its severity does not follow from it, as one kind may have warnings
and errors. -/
inductive DiagnosticKind where
  /-- A malformed or unknown directive, which is passed through. -/
  | directive
  /-- A rejected `#define` or `#undef`, or a call with a wrong number of arguments. -/
  | define
  /-- An unbalanced conditional block, or a condition that cannot be evaluated. -/
  | conditional
  /-- An include that no search location holds. -/
  | includeNotFound
  /-- An include that exists but cannot be retrieved. -/
  | includeFetchFailed
  /-- An include of a unit that is being expanded already. -/
  | includeCycle
  /-- A macro that reaches itself, or that nests too deeply. -/
  | recursiveMacro
  /-- A `#warning` line. -/
  | userWarning
  /-- An `#error` line. -/
  | userError
  /-- An unknown or unfinished `#pragma`. -/
  | pragma
  /-- A message of the compiler. -/
  | compiler
  deriving DecidableEq, Repr

/-- The stable identifier of a kind in rendered output.  Tools filter by it, so it never changes
with the wording of a message. -/
def DiagnosticKind.code : DiagnosticKind → Text
  | .directive => "directive".toList
  | .define => "define".toList
  | .conditional => "conditional".toList
  | .includeNotFound => "include-not-found".toList
  | .includeFetchFailed => "include-fetch-failed".toList
  | .includeCycle => "include-cycle".toList
  | .recursiveMacro => "recursive-macro".toList
  | .userWarning => "user-warning".toList
  | .userError => "user-error".toList
  | .pragma => "pragma".toList
  | .compiler => "compiler".toList

/-- Every kind of diagnostic. -/
def DiagnosticKind.all : List DiagnosticKind :=
  [.directive, .define, .conditional, .includeNotFound, .includeFetchFailed, .includeCycle,
    .recursiveMacro, .userWarning, .userError, .pragma, .compiler]

/-- One message, with the position it points to as far as it is known.  Lines and columns count from
one; `expandedPosition` is a line and a column of the expanded text, which only a message of the
compiler has. -/
structure Diagnostic where
  severity : Severity
  kind : DiagnosticKind
  message : Text
  unit : Option Text := none
  line : Option Nat := none
  column : Option Nat := none
  expandedPosition : Option (Nat × Nat) := none
  deriving DecidableEq, Repr

namespace Diagnostic

def isError (diagnostic : Diagnostic) : Bool :=
  diagnostic.severity == .error

end Diagnostic

end ScriptPreprocessor
