import ScriptPreprocessor.Condition.Token

namespace ScriptPreprocessor

/-!
# Evaluation of conditions

A condition is evaluated while its tokens are read, from left to right.  The reader keeps what is
still to be done: operators in front of an operand, left operands with their operators, and open
parentheses.  When a token ends an operand, everything that binds it at least as tightly is done
at once.  Both sides of every operator are evaluated, so a fault in either one is a fault of the
whole, and the first fault on the way counts.

A name that is left after macros were expanded counts as zero and is noted.
-/

/-- Something to be done with the operand that is being read.  The first of a list is the innermost
one and is done first. -/
inductive PendingOperation where
  /-- Apply an operator that stands in front of the operand. -/
  | unary (operator : Operator)
  /-- Combine the operand with a left operand. -/
  | binary (left : Value) (operator : Operator)
  /-- Wait for the closing parenthesis. -/
  | group
  deriving Repr

/-- What a reader of a condition has found: it wants an operand, or it holds one.  The same sign is
an operator in front of an operand in the first state and between two in the second. -/
inductive ReaderState where
  | wanting (pending : List PendingOperation)
  | holding (value : Value) (pending : List PendingOperation)
  deriving Repr

/-- A reader of a condition: its state, and the unknown names in the order of their first
occurrence. -/
structure ConditionReader where
  state : ReaderState := .wanting []
  unknown : List Text := []
  deriving Repr

/-- The value of a condition, and the names in it that were unknown.  They are kept beside the value
since each of them is worth a warning although the condition has a value. -/
structure Evaluation where
  value : Value
  unknown : List Text
  deriving Repr

namespace ConditionReader

/-- Does what binds a value at least as tightly as a level, up to an open parenthesis.  Operators in
front of an operand bind tighter than every level.  An operator of the same level as the next one is
done too, which makes all of them group to the left. -/
def settle (level : Nat) (value : Value) :
    List PendingOperation → Except ArithmeticFault (Value × List PendingOperation)
  | .unary operator :: pending =>
    match value.applyUnary operator with
    | .ok value => settle level value pending
    | .error fault => .error fault
  | .binary left operator :: pending =>
    if level ≤ operator.precedence?.getD 0 then
      match Value.applyBinary operator left value with
      | .ok value => settle level value pending
      | .error fault => .error fault
    else .ok (value, .binary left operator :: pending)
  | pending => .ok (value, pending)

def note (name : Text) (unknown : List Text) : List Text :=
  if unknown.contains name then unknown else unknown ++ [name]

/-- A reader that wants an operand, behind one more token.  An unknown name is zero, and is noted
even if its value will not matter to the condition. -/
def readOperand (pending : List PendingOperation) (unknown : List Text) (token : ConditionToken) :
    Except ConditionFault ConditionReader :=
  match token with
  | .number value => .ok ⟨.holding value pending, unknown⟩
  | .name name => .ok ⟨.holding (.integer 0) pending, note name unknown⟩
  | .opening => .ok ⟨.wanting (.group :: pending), unknown⟩
  | .operator operator =>
    if operator.isUnary then .ok ⟨.wanting (.unary operator :: pending), unknown⟩
    else .error (.unexpectedToken token)
  | .closing => .error (.unexpectedToken token)

/-- The level down to which a token ends an operand: the precedence of an operator between two
operands, and the lowest one otherwise. -/
def levelOf : ConditionToken → Nat
  | .operator operator => operator.precedence?.getD 0
  | _ => 0

/-- A reader that holds a value, behind one more token.  What the token ends is settled before the
token is looked at, so that a fault in what stands in front of it is found before the token itself
is out of place. -/
def readOperator (value : Value) (pending : List PendingOperation) (unknown : List Text)
    (token : ConditionToken) : Except ConditionFault ConditionReader :=
  match settle (levelOf token) value pending with
  | .error fault => .error (.arithmetic fault)
  | .ok (value, pending) =>
    match token, pending with
    | .operator operator, pending =>
      if operator.precedence?.isSome then
        .ok ⟨.wanting (.binary value operator :: pending), unknown⟩
      else .error (.unexpectedToken token)
    | .closing, .group :: pending => .ok ⟨.holding value pending, unknown⟩
    | _, _ => .error (.unexpectedToken token)

/-- A reader behind one more token. -/
def read (reader : ConditionReader) (token : ConditionToken) :
    Except ConditionFault ConditionReader :=
  match reader.state with
  | .wanting pending => readOperand pending reader.unknown token
  | .holding value pending => readOperator value pending reader.unknown token

def readAll (reader : ConditionReader) : List ConditionToken →
    Except ConditionFault ConditionReader
  | [] => .ok reader
  | token :: tokens =>
    match reader.read token with
    | .ok reader => reader.readAll tokens
    | .error fault => .error fault

/-- The evaluation of everything that was read.  A parenthesis left open is an unexpected end, as is
an operand that never came. -/
def finish (reader : ConditionReader) : Except ConditionFault Evaluation :=
  match reader.state with
  | .wanting _ => .error .unexpectedEnd
  | .holding value pending =>
    match settle 0 value pending with
    | .error fault => .error (.arithmetic fault)
    | .ok (value, []) => .ok ⟨value, reader.unknown⟩
    | .ok (_, _ :: _) => .error .unexpectedEnd

end ConditionReader

/-- The evaluation of a list of tokens.  A condition without tokens has a fault of its own, apart
from one that ends too early. -/
def evaluateTokens (tokens : List ConditionToken) : Except ConditionFault Evaluation :=
  if tokens.isEmpty then .error .empty
  else
    match ConditionReader.readAll {} tokens with
    | .ok reader => reader.finish
    | .error fault => .error fault

/-- The evaluation of a condition.  All of it is cut into tokens first, so a character that begins
no token is reported even behind a fault of another kind. -/
def evaluate (text : Text) : Except ConditionFault Evaluation :=
  match ConditionToken.tokenize text with
  | .ok tokens => evaluateTokens tokens
  | .error fault => .error fault

end ScriptPreprocessor
