import ScriptPreprocessor.SourceUnit

namespace ScriptPreprocessor

/-!
# Requests for includes

When a run meets an `#include` of a unit that it does not have, it stops with a request.  The
answer is a unit, or a failure.
-/

/-- What an `#include` asks for, and where it stands.  All that a look-up may depend on is in it, so
that the run itself need not be asked. -/
structure IncludeRequest where
  /-- The name between the quotation marks or angle brackets. -/
  target : Text
  /-- The path that an include pragma has set. -/
  searchPath : Option Text
  /-- The unit that holds the directive. -/
  includer : Text
  /-- Where that unit was found. -/
  location : Option Location
  /-- The line of the directive, counted from one. -/
  line : Nat
  deriving DecidableEq, Repr

/-- Why an include cannot be spliced.  The two differ for a user: a name that is nowhere is likely
misspelt, an item that cannot be fetched may be there next time. -/
inductive IncludeFailure where
  | notFound (target : Text)
  | fetchFailed (target reason : Text)
  deriving DecidableEq, Repr

def IncludeFailure.target : IncludeFailure → Text
  | .notFound target => target
  | .fetchFailed target _ => target

def IncludeFailure.message : IncludeFailure → Text
  | .notFound target => "Failure to #include: ".toList ++ target
  | .fetchFailed target reason =>
    "Failure to #include: ".toList ++ target ++ " (".toList ++ reason ++ ")".toList

/-- What a look-up comes to in the end: a unit, or why there is none. -/
abbrev IncludeOutcome := Except IncludeFailure SourceUnit

/-- The answer to a request.  It may still be pending, when a caller has nothing to say yet, and
then the run stays where it is. -/
inductive IncludeAnswer where
  /-- The unit is still being fetched. -/
  | pending
  | resolved (unit : SourceUnit)
  | failed (failure : IncludeFailure)
  deriving DecidableEq, Repr

end ScriptPreprocessor
