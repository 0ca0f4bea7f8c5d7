import ScriptPreprocessor.Proofs.Condition.Arithmetic
import ScriptPreprocessor.Proofs.Condition.Literals
import ScriptPreprocessor.Proofs.Condition.Spacing

namespace ScriptPreprocessor

/-!
# Expressions

A condition on integers is an expression: a tree of integers, truth words and names under operators.
Its value is computed from the leaves up, as `Operator.value` says, and names count as zero.

A tree is printed with parentheses where an operand would bind too loosely for its place, and with
any number of parentheses beyond that (`Expression.Prints`).  How tightly the operators bind is that
of the C language, whose levels are listed here on their own (`Operator.ofLevel`); that the
evaluation has the same levels is proved of them (`Operator.mem_ofLevel_iff`).

The printed lexemes are written with any blanks in between (`Expression.IsPrinting`).  Whatever the
blanks, the text is cut into the printed lexemes again (`Expression.Prints.lexemes_eq`).
-/

/-! ## The operators of the C language -/

namespace Operator

/-- The operators that the C language allows in front of an operand.  They bind more tightly than
every operator between two. -/
def ofFront : List Operator :=
  [.logicalNot, .bitNot, .minus, .plus]

/-- The operators that the C language allows between two operands, from the level that binds most
loosely to the one that binds most tightly.  The operators of one level group to the left. -/
def ofLevel : Nat → List Operator
  | 1 => [.logicalOr]
  | 2 => [.logicalAnd]
  | 3 => [.bitOr]
  | 4 => [.bitXor]
  | 5 => [.bitAnd]
  | 6 => [.equal, .notEqual]
  | 7 => [.less, .greater, .lessEqual, .greaterEqual]
  | 8 => [.shiftLeft, .shiftRight]
  | 9 => [.plus, .minus]
  | 10 => [.times, .divide, .remainder]
  | _ => []

def IsBinary (sign : Operator) : Prop :=
  ∃ level, sign ∈ ofLevel level

variable {sign : Operator} {level : Nat}

theorem mem_ofFront_iff : sign ∈ ofFront ↔ sign.isUnary = true := by
  cases sign <;> decide

/-- The evaluation gives every operator the level that it has in the C language. -/
theorem mem_ofLevel_iff : sign ∈ ofLevel level ↔ sign.precedence? = some level := by
  constructor
  · intro listed
    unfold ofLevel at listed
    split at listed <;> simp only [List.mem_cons, List.not_mem_nil, or_false] at listed <;>
      rcases listed with rfl | rfl | rfl | rfl <;> rfl
  · intro binds
    cases sign <;> cases binds <;> decide

theorem isBinary_iff : sign.IsBinary ↔ sign.precedence?.isSome = true := by
  simp only [IsBinary, mem_ofLevel_iff, Option.isSome_iff_exists]

end Operator

/-- How a truth value is written. -/
def truthWords (value : Bool) : List Text :=
  if value then ["true".toList, "TRUE".toList] else ["false".toList, "FALSE".toList]

/-- The tree of a condition on integers. -/
inductive Expression where
  | integer (number : Nat) (fits : number < ConditionToken.integerLimit)
  | truth (value : Bool)
  | name (name : Text) (identifier : name.isIdentifier = true)
      (free : ∀ value, name ∉ truthWords value)
  | unary (sign : Operator) (isUnary : sign ∈ Operator.ofFront) (operand : Expression)
  | binary (sign : Operator) (isBinary : sign.IsBinary) (left right : Expression)

namespace Expression

/-- The value of a tree, with unknown names as zero. -/
def value : Expression → Int
  | .integer number _ => number
  | .truth value => Operator.truthNumber value
  | .name _ _ _ => 0
  | .unary sign _ operand => sign.valueInFront operand.value
  | .binary sign _ left right => sign.value left.value right.value

/-- The first operator of a tree that has no result, in the order in which operands are computed. -/
def fault? : Expression → Option ArithmeticFault
  | .integer _ _ | .truth _ | .name _ _ _ => none
  | .unary _ _ operand => operand.fault?
  | .binary sign _ left right =>
    (left.fault?.or right.fault?).or (sign.fault? left.value right.value)

/-- The names of a tree from left to right. -/
def names : Expression → List Text
  | .integer _ _ | .truth _ => []
  | .name text _ _ => [text]
  | .unary _ _ operand => operand.names
  | .binary _ _ left right => left.names ++ right.names

/-- The level above all operators between two operands. -/
def tightest : Nat := 11

/-- Lexemes print a tree at a level: operators between two operands stand without parentheses only
when they bind at least as tightly as the level asks, and to the right of an operator they must bind
more tightly than it. -/
inductive Prints : Nat → Expression → List Lexeme → Prop
  | integer {level number : Nat} {fits : number < ConditionToken.integerLimit} {text : Text}
      (literal : IsLiteral text number) : Prints level (.integer number fits) [.number text]
  | truth {level : Nat} {value : Bool} {text : Text} (word : text ∈ truthWords value) :
      Prints level (.truth value) [.word text]
  | name {level : Nat} {name : Text} {identifier : name.isIdentifier = true}
      {free : ∀ value, name ∉ truthWords value} :
      Prints level (.name name identifier free) [.word name]
  | unary {level : Nat} {sign : Operator} {isUnary : sign ∈ Operator.ofFront} {operand : Expression}
      {lexemes : List Lexeme} (inner : Prints tightest operand lexemes) :
      Prints level (.unary sign isUnary operand) (.operator sign :: lexemes)
  | binary {level own : Nat} {sign : Operator} {isBinary : sign.IsBinary}
      {left right : Expression} {leftLexemes rightLexemes : List Lexeme}
      (binds : sign ∈ Operator.ofLevel own) (allowed : level ≤ own)
      (onLeft : Prints own left leftLexemes) (onRight : Prints (own + 1) right rightLexemes) :
      Prints level (.binary sign isBinary left right)
        (leftLexemes ++ .operator sign :: rightLexemes)
  | group {level : Nat} {expression : Expression} {lexemes : List Lexeme}
      (inner : Prints 0 expression lexemes) :
      Prints level expression (.opening :: lexemes ++ [.closing])

/-- A text prints a tree. -/
def IsPrinting (expression : Expression) (text : Text) : Prop :=
  ∃ lexemes, expression.Prints 0 lexemes ∧ Lexeme.Spaced lexemes text

variable {expression : Expression} {lexemes : List Lexeme} {text : Text}

/-! ## Levels -/

theorem level_lt_tightest (sign : Operator) : sign.precedence?.getD 0 < tightest := by
  cases sign <;> decide

theorem own_lt_tightest {sign : Operator} {own : Nat} (binds : sign ∈ Operator.ofLevel own) :
    own < tightest := by
  simpa [Operator.mem_ofLevel_iff.1 binds] using level_lt_tightest sign

/-- What is printed for a level also stands where a looser one is asked for. -/
theorem Prints.mono {low high : Nat} (prints : expression.Prints high lexemes)
    (looser : low ≤ high) : expression.Prints low lexemes := by
  cases prints with
  | integer literal => exact .integer literal
  | truth word => exact .truth word
  | name => exact .name
  | unary inner => exact .unary inner
  | binary binds allowed onLeft onRight =>
    exact .binary binds (looser.trans allowed) onLeft onRight
  | group inner => exact .group inner

/-! ## Lexemes -/

theorem isIdentifier_of_mem_truthWords {value : Bool} (word : text ∈ truthWords value) :
    text.isIdentifier = true := by
  have identifiers : ∀ word ∈ truthWords value, Text.isIdentifier word = true := by
    cases value <;> decide
  exact identifiers text word

theorem isWhole_of_literal {number : Nat} (literal : IsLiteral text number) :
    (Lexeme.number text).IsWhole := by
  rcases literal.shape with ⟨⟨character, more, rfl, digit⟩, letters⟩
  refine ⟨character, more, rfl, ?_, fun other member => ?_⟩
  · simp [ConditionToken.startsNumber, digit]
  · simp [ConditionToken.continuesNumber, letters other (List.mem_cons_of_mem _ member)]

/-- Printed lexemes make up an operand, whatever tree they print. -/
theorem Prints.isOperand {level : Nat} (prints : expression.Prints level lexemes) :
    Lexeme.IsOperand lexemes := by
  induction prints with
  | integer literal => exact .single (isWhole_of_literal literal) rfl rfl
  | truth word => exact .single (isIdentifier_of_mem_truthWords word) rfl rfl
  | @name _ _ identifier => exact .single identifier rfl rfl
  | @unary _ _ isUnary _ _ _ ih => exact ih.behindSign (Operator.mem_ofFront_iff.1 isUnary)
  | binary _ _ _ _ onLeft onRight => exact onLeft.around onRight
  | group _ ih => exact ih.grouped

/-- A text that prints a tree is cut into the printed lexemes, whatever blanks it has. -/
theorem Prints.lexemes_eq {level : Nat} (prints : expression.Prints level lexemes)
    (spaced : Lexeme.Spaced lexemes text) : text.lexemes = lexemes :=
  Lexeme.lexemes_of_spaced spaced prints.isOperand.whole prints.isOperand.sound
    prints.isOperand.apart

/-- A single digit prints its integer. -/
theorem isPrinting_digit {digit : Char} (isDigit : digit.isDigit = true)
    (fits : Text.digitsValue [digit] < ConditionToken.integerLimit) :
    (integer _ fits).IsPrinting [digit] :=
  ⟨_, .integer (isLiteral_digit isDigit), .single (.number [digit])⟩

end Expression

end ScriptPreprocessor
