import ScriptPreprocessor.Condition.Operator
import ScriptPreprocessor.Number.Binary64

namespace ScriptPreprocessor

/-!
# Values of conditions

A condition computes with integers of 64 bits, which wrap around, and with binary fractions of 64
bits.  An operation with one fraction among its operands is done on fractions.  Comparisons and
logical operators give the integers one and zero.
-/

/-- A number in a condition.  It stays an integer until a fraction meets it, so that wrapping and
shifting keep their meaning. -/
inductive Value where
  | integer (number : Int64)
  | fraction (number : Float)
  deriving Repr

/-- Why an operation on values has no result.  A sum, a difference or a product never overflows,
since it wraps around; only the division of the least integer by minus one does. -/
inductive ArithmeticFault where
  | divisionByZero
  | overflow (operator : Operator)
  | notInteger (operator : Operator)
  deriving DecidableEq, Repr

namespace Value

def ofBool (condition : Bool) : Value :=
  .integer (if condition then 1 else 0)

/-- Whether a value counts as true: every value other than zero does, also a fraction that is no
number. -/
def isTrue : Value → Bool
  | .integer number => number != 0
  | .fraction number => number != 0

/-- The value as a fraction, rounded to the nearest one.  Integers beyond 53 bits may change by
this. -/
def toFraction : Value → Float
  | .integer number => number.toFloat
  | .fraction number => number

/-- An operation between two integers.  A shift takes its distance modulo 64, and a division by zero
is a fault before the overflow of a division is. -/
def applyIntegers (operator : Operator) (left right : Int64) : Except ArithmeticFault Value :=
  match operator with
  | .logicalOr => .ok (ofBool (left != 0 || right != 0))
  | .logicalAnd => .ok (ofBool (left != 0 && right != 0))
  | .bitOr => .ok (.integer (left ||| right))
  | .bitXor => .ok (.integer (left ^^^ right))
  | .bitAnd => .ok (.integer (left &&& right))
  | .equal => .ok (ofBool (left == right))
  | .notEqual => .ok (ofBool (left != right))
  | .less => .ok (ofBool (left < right))
  | .lessEqual => .ok (ofBool (left ≤ right))
  | .greater => .ok (ofBool (right < left))
  | .greaterEqual => .ok (ofBool (right ≤ left))
  | .shiftLeft => .ok (.integer (left <<< right))
  | .shiftRight => .ok (.integer (left >>> right))
  | .plus => .ok (.integer (left + right))
  | .minus => .ok (.integer (left - right))
  | .times => .ok (.integer (left * right))
  | .divide =>
    if right == 0 then .error .divisionByZero
    else if left == Int64.minValue && right == -1 then .error (.overflow .divide)
    else .ok (.integer (left / right))
  | .remainder =>
    if right == 0 then .error .divisionByZero
    else if left == Int64.minValue && right == -1 then .error (.overflow .remainder)
    else .ok (.integer (left % right))
  | .logicalNot | .bitNot => .error (.notInteger operator)

/-- An operation between two fractions.  The operators on bits have no meaning there and are faults
rather than roundings. -/
def applyFractions (operator : Operator) (left right : Float) : Except ArithmeticFault Value :=
  match operator with
  | .logicalOr => .ok (ofBool (left != 0 || right != 0))
  | .logicalAnd => .ok (ofBool (left != 0 && right != 0))
  | .equal => .ok (ofBool (left == right))
  | .notEqual => .ok (ofBool (left != right))
  | .less => .ok (ofBool (left < right))
  | .lessEqual => .ok (ofBool (left ≤ right))
  | .greater => .ok (ofBool (right < left))
  | .greaterEqual => .ok (ofBool (right ≤ left))
  | .plus => .ok (.fraction (left + right))
  | .minus => .ok (.fraction (left - right))
  | .times => .ok (.fraction (left * right))
  | .divide => if right == 0 then .error .divisionByZero else .ok (.fraction (left / right))
  | .remainder =>
    if right == 0 then .error .divisionByZero
    else .ok (.fraction (Binary64.remainder left right))
  | .bitOr | .bitXor | .bitAnd | .shiftLeft | .shiftRight | .logicalNot | .bitNot =>
    .error (.notInteger operator)

/-- The result of an operator between two values.  One fraction among them makes both fractions; the
logical operators give the same on either side of this choice, since only a zero becomes zero. -/
def applyBinary (operator : Operator) (left right : Value) : Except ArithmeticFault Value :=
  match left, right with
  | .integer left, .integer right => applyIntegers operator left right
  | left, right => applyFractions operator left.toFraction right.toFraction

/-- The result of an operator in front of a value.  Negating the least integer gives it back, as
every operation on integers wraps around. -/
def applyUnary (operator : Operator) (value : Value) : Except ArithmeticFault Value :=
  match operator, value with
  | .logicalNot, value => .ok (ofBool (!value.isTrue))
  | .bitNot, .integer number => .ok (.integer (~~~number))
  | .minus, .integer number => .ok (.integer (-number))
  | .minus, .fraction number => .ok (.fraction (-number))
  | .plus, value => .ok value
  | operator, _ => .error (.notInteger operator)

end Value

end ScriptPreprocessor
