import ScriptPreprocessor.Condition.Token
import ScriptPreprocessor.Diagnostic.Basic
import ScriptPreprocessor.Include.Request
import ScriptPreprocessor.Macro.Expansion

namespace ScriptPreprocessor

/-!
# Problems of a run

Everything that a run may have to say about a script, by its cause.  The severity, the kind and
the wording of the diagnostic follow from the cause; the position is the line that was being read.
-/

/-- What a run has to say about a line.  A problem is kept as what happened, not as a sentence, so
that its weight, its kind and its wording are decided in one place. -/
inductive Problem where
  | invalidInclude (argument : Text)
  | unknownDirective (name : Text)
  | rejectedDefinition (fault : DefinitionFault)
  | rejectedRemoval (name : Text)
  | warningLine (text : Text)
  | errorLine (text : Text)
  | unknownPragma (argument : Text)
  /-- An included unit ended while preprocessing was off. -/
  | leftOff
  /-- A directive that continues or closes a block stands outside of every block. -/
  | unmatched (name : Text)
  /-- A directive that continues a block stands behind its `#else`. -/
  | afterElse (name : Text)
  | missingEnd
  | unknownName (name condition : Text)
  | badCondition (condition : Text) (fault : ConditionFault)
  | expansion (issue : ExpansionIssue) (maxDepth : Nat)
  | includeFailure (failure : IncludeFailure)
  /-- A unit includes one that is being expanded; the chain leads from the outermost unit. -/
  | includeCycle (target : Text) (chain : List Text)
  deriving Repr

namespace Problem

def severity : Problem → Severity
  | .unknownPragma _ => .info
  | .invalidInclude _ | .unknownDirective _ | .warningLine _ | .leftOff | .unknownName _ _
  | .badCondition _ _ | .expansion (.argumentCount _ _ _) _ => .warning
  | .rejectedDefinition _ | .rejectedRemoval _ | .errorLine _ | .unmatched _ | .afterElse _
  | .missingEnd | .expansion _ _ | .includeFailure _ | .includeCycle _ _ => .error

/-- What a problem is about.  Of the problems of an expansion, a wrong number of arguments belongs
to definitions; the others are about recursion. -/
def kind : Problem → DiagnosticKind
  | .invalidInclude _ | .unknownDirective _ => .directive
  | .rejectedDefinition _ | .rejectedRemoval _ | .expansion (.argumentCount _ _ _) _ => .define
  | .warningLine _ => .userWarning
  | .errorLine _ => .userError
  | .unknownPragma _ | .leftOff => .pragma
  | .unmatched _ | .afterElse _ | .missingEnd | .unknownName _ _ | .badCondition _ _ =>
    .conditional
  | .expansion _ _ => .recursiveMacro
  | .includeFailure (.notFound _) => .includeNotFound
  | .includeFailure (.fetchFailed _ _) => .includeFetchFailed
  | .includeCycle _ _ => .includeCycle

def message : Problem → Text
  | .invalidInclude argument => "Invalid #include name provided: ".toList ++ argument
  | .unknownDirective name => "Unknown directive: #".toList ++ name
  | .rejectedDefinition fault => fault.message
  | .rejectedRemoval name => "Cannot undefine '".toList ++ name ++ "': invalid token.".toList
  | .warningLine text => "#warning: ".toList ++ text
  | .errorLine text => "#error: ".toList ++ text
  | .unknownPragma argument => "Ignoring unknown #pragma ".toList ++ argument
  | .leftOff => "Missing directive '#pragma preprocessor-on' at end of file".toList
  | .unmatched name => name ++ " without matching #if".toList
  | .afterElse name => name ++ " after #else".toList
  | .missingEnd => "Missing #endif".toList
  | .unknownName name condition =>
    "'".toList ++ name ++ "' in '".toList ++ condition ++
      "' is not a macro and evaluates to 0".toList
  | .badCondition condition fault =>
    "Cannot evaluate expression '".toList ++ condition ++ "': ".toList ++ fault.message
  | .expansion (.recursive name) _ =>
    "Recursive macro expansion of '".toList ++ name ++ "'".toList
  | .expansion (.tooDeep name) maxDepth =>
    "Expansion of '".toList ++ name ++ "' exceeds the maximum depth of ".toList ++
      Text.ofNat maxDepth
  | .expansion (.argumentCount name expected found) _ =>
    "Macro '".toList ++ name ++ "' expects ".toList ++ Text.ofNat expected ++
      " argument(s), got ".toList ++ Text.ofNat found
  | .includeFailure failure => failure.message
  | .includeCycle target chain =>
    "Recursive #include of '".toList ++ target ++ "' (".toList ++
      Text.join " -> ".toList (chain ++ [target]) ++ ")".toList

/-- The diagnostic for a problem on a line.  It has no column: a problem is about the line as a
whole. -/
def diagnosticAt (problem : Problem) (origin : Origin) : Diagnostic :=
  { severity := problem.severity
    kind := problem.kind
    message := problem.message
    unit := some origin.unit
    line := some origin.line }

end Problem

end ScriptPreprocessor
