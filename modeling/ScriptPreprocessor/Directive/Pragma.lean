import ScriptPreprocessor.Text.Blank

namespace ScriptPreprocessor

/-!
# Pragmas

Three pragmas steer the preprocessor: two switch it off and on inside a unit, and one sets the
folder in which later includes are looked up first.
-/

/-- What the argument of a `#pragma` line asks for.  Every other argument is kept as it is, for the
compiler or for a message. -/
inductive Pragma where
  | preprocessorOff
  | preprocessorOn
  | includeFrom (path : Text)
  | other (argument : Text)
  deriving DecidableEq, Repr

/-- Reads the argument of a `#pragma` line.  Text behind the two switches is not looked at; an
include path must not be blank. -/
def Pragma.parse (argument : Text) : Pragma :=
  if argument.startsWith "preprocessor-on".toList then .preprocessorOn
  else if argument.startsWith "preprocessor-off".toList then .preprocessorOff
  else
    match argument.afterStart? "include-from:".toList with
    | none => .other argument
    | some path => if path.trim.isEmpty then .other argument else .includeFrom path.trim

end ScriptPreprocessor
