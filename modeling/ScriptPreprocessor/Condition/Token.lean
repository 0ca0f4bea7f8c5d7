import ScriptPreprocessor.Condition.Value
import ScriptPreprocessor.Number.Decimal
import ScriptPreprocessor.Text.Blank

namespace ScriptPreprocessor

/-!
# Tokens of conditions

A condition is read as numbers, names, operators and parentheses, with blanks in between.  The
words `true` and `false`, also in capitals, are numbers.
-/

inductive ConditionToken where
  | number (value : Value)
  | name (text : Text)
  | operator (operator : Operator)
  | opening
  | closing
  deriving Repr

/-- Why a condition has no value.  The first three are found while it is cut into tokens or before
it is read, the others while it is read and evaluated. -/
inductive ConditionFault where
  | empty
  | unexpectedCharacter (character : Char)
  | invalidNumber (text : Text)
  | unexpectedToken (token : ConditionToken)
  | unexpectedEnd
  | arithmetic (fault : ArithmeticFault)
  deriving Repr

/-- The wording of a token in a message.  A number is shown by its value and not as it was written,
since `0x10` and `16` are the same token. -/
def ConditionToken.description : ConditionToken → Text
  | .number (.integer value) => "number ".toList ++ Text.ofInt value.toInt
  | .number (.fraction value) => "number ".toList ++ Decimal.render value
  | .name text => "identifier '".toList ++ text ++ "'".toList
  | .operator sign => "operator '".toList ++ sign.symbol ++ "'".toList
  | .opening => "'('".toList
  | .closing => "')'".toList

def ConditionFault.message : ConditionFault → Text
  | .empty => "empty expression".toList
  | .unexpectedCharacter character => "unexpected character '".toList ++ [character, '\'']
  | .invalidNumber text => "invalid number '".toList ++ text ++ "'".toList
  | .unexpectedToken token => "unexpected ".toList ++ token.description
  | .unexpectedEnd => "unexpected end of expression".toList
  | .arithmetic .divisionByZero => "division by zero".toList
  | .arithmetic (.overflow operator) =>
    "integer overflow in '".toList ++ operator.symbol ++ "'".toList
  | .arithmetic (.notInteger operator) =>
    "operator '".toList ++ operator.symbol ++ "' needs integer operands".toList

namespace ConditionToken

/-! ## Numbers -/

/-- Integers are below this limit.  The sign is an operator of its own, so the least integer of 64
bits cannot be written as a number. -/
def integerLimit : Nat := 0x8000000000000000

/-- The integer that digits of a base stand for, if there are any and it fits into 64 bits. -/
def integer? (base : Nat) (digits : Text) : Option Value :=
  let value := Text.digitsValue digits base
  if !digits.isEmpty && (digits.all fun digit => Text.digitValue digit < base) &&
      value < integerLimit then
    some (.integer (Int64.ofNat value))
  else none

/-- Whether a character may end an integer to name its type.  Any number of these letters may stand
there, in any order; they are not checked further. -/
def isIntegerSuffix (character : Char) : Bool :=
  character == 'u' || character == 'U' || character == 'l' || character == 'L'

def isFractionSuffix (character : Char) : Bool :=
  character == 'f' || character == 'F'

/-- The value of a number: a fraction when it has a point, hexadecimal behind `0x`, octal behind
`0`, and decimal otherwise.  The letters that name a type are taken off first and do not matter. -/
def number? (text : Text) : Option Value :=
  if text.any (· == '.') then
    (Decimal.parse? (text.dropEndWhile isFractionSuffix)).map Value.fraction
  else
    match text.dropEndWhile isIntegerSuffix with
    | '0' :: 'x' :: digits => integer? 16 digits
    | '0' :: 'X' :: digits => integer? 16 digits
    | '0' :: digit :: digits => integer? 8 (digit :: digits)
    | digits => integer? 10 digits

/-! ## Reading -/

/-- Whether a number begins with a character in front of a text. -/
def startsNumber (character : Char) (rest : Text) : Bool :=
  character.isDigit || (character == '.' && rest.head?.any Char.isDigit)

/-- Whether a character goes on with a number.  Letters do, so that `12ab` is one invalid number and
not a number with a name behind it. -/
def continuesNumber (character : Char) : Bool :=
  character.isAlphanum || character == '.'

/-- The token of a word.  Only the two spellings of each truth value count; `True` is a name. -/
def ofWord (word : Text) : ConditionToken :=
  if word == "true".toList || word == "TRUE".toList then .number (.integer 1)
  else if word == "false".toList || word == "FALSE".toList then .number (.integer 0)
  else .name word

def operator? (text : Text) : Option Operator :=
  Operator.all.find? fun operator => text.startsWith operator.symbol

/-- The token that begins with a character in front of a text, and how many characters of the text
belong to it.  A blank is no token.  A point begins a number only when a digit follows. -/
def first (character : Char) (rest : Text) :
    Except ConditionFault (Option ConditionToken × Nat) :=
  if isBlank character then .ok (none, 0)
  else if character == '(' then .ok (some .opening, 0)
  else if character == ')' then .ok (some .closing, 0)
  else if startsNumber character rest then
    let more := rest.takeWhile continuesNumber
    match number? (character :: more) with
    | some value => .ok (some (.number value), more.length)
    | none => .error (.invalidNumber (character :: more))
  else if isIdentifierStart character then
    let more := rest.takeWhile isWordCharacter
    .ok (some (ofWord (character :: more)), more.length)
  else
    match operator? (character :: rest) with
    | some sign => .ok (some (.operator sign), sign.symbol.length - 1)
    | none => .error (.unexpectedCharacter character)

/-- The tokens of a text, where `skip` characters still belong to the token read last.  Going
character by character and skipping keeps the recursion structural, while `first` looks ahead as far
as it likes. -/
def tokenizeFrom : Nat → Text → Except ConditionFault (List ConditionToken)
  | _, [] => .ok []
  | skip + 1, _ :: rest => tokenizeFrom skip rest
  | 0, character :: rest =>
    match first character rest with
    | .error fault => .error fault
    | .ok (token, length) =>
      match tokenizeFrom length rest with
      | .error fault => .error fault
      | .ok tokens => .ok (token.toList ++ tokens)

def tokenize (text : Text) : Except ConditionFault (List ConditionToken) :=
  tokenizeFrom 0 text

end ConditionToken

end ScriptPreprocessor
