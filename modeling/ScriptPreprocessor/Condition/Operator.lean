import ScriptPreprocessor.Text.Basic

namespace ScriptPreprocessor

/-!
# Operators of conditions

The operators of a condition have the precedence of the C language.  Two of them, `!` and `~`,
only stand in front of an operand; `+` and `-` may stand in front of an operand or between two.
-/

inductive Operator where
  | logicalOr
  | logicalAnd
  | equal
  | notEqual
  | lessEqual
  | greaterEqual
  | shiftLeft
  | shiftRight
  | bitOr
  | bitXor
  | bitAnd
  | less
  | greater
  | plus
  | minus
  | times
  | divide
  | remainder
  | logicalNot
  | bitNot
  deriving DecidableEq, Repr

namespace Operator

def symbol : Operator → Text
  | .logicalOr => "||".toList
  | .logicalAnd => "&&".toList
  | .equal => "==".toList
  | .notEqual => "!=".toList
  | .lessEqual => "<=".toList
  | .greaterEqual => ">=".toList
  | .shiftLeft => "<<".toList
  | .shiftRight => ">>".toList
  | .bitOr => "|".toList
  | .bitXor => "^".toList
  | .bitAnd => "&".toList
  | .less => "<".toList
  | .greater => ">".toList
  | .plus => "+".toList
  | .minus => "-".toList
  | .times => "*".toList
  | .divide => "/".toList
  | .remainder => "%".toList
  | .logicalNot => "!".toList
  | .bitNot => "~".toList

/-- Every operator.  Those of two characters come first, since the first one that fits is taken and
`<` would fit in front of `<=`. -/
def all : List Operator :=
  [.logicalOr, .logicalAnd, .equal, .notEqual, .lessEqual, .greaterEqual, .shiftLeft,
    .shiftRight, .bitOr, .bitXor, .bitAnd, .less, .greater, .plus, .minus, .times, .divide,
    .remainder, .logicalNot, .bitNot]

/-- How tightly an operator binds the operands on both sides, if it can stand between two.  The
levels are those of C: the operators on bits bind less tightly than comparisons, unlike in most
later languages. -/
def precedence? : Operator → Option Nat
  | .logicalOr => some 1
  | .logicalAnd => some 2
  | .bitOr => some 3
  | .bitXor => some 4
  | .bitAnd => some 5
  | .equal | .notEqual => some 6
  | .less | .lessEqual | .greater | .greaterEqual => some 7
  | .shiftLeft | .shiftRight => some 8
  | .plus | .minus => some 9
  | .times | .divide | .remainder => some 10
  | .logicalNot | .bitNot => none

/-- Whether an operator can stand in front of an operand. -/
def isUnary : Operator → Bool
  | .logicalNot | .bitNot | .minus | .plus => true
  | _ => false

end Operator

end ScriptPreprocessor
