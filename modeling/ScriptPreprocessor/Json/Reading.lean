import ScriptPreprocessor.Json.Token

namespace ScriptPreprocessor

/-!
# Reading JSON

The tokens of a JSON text are read one by one.  The containers that are open are kept on a stack,
and an expectation says what may come next.  A text is one value, with nothing behind it.
-/

/-- A container that is being read, with what was read of it.  Items and members are kept in their
order, so that closing a container needs no work. -/
inductive OpenJson where
  | array (items : List Json)
  | object (members : List (Text × Json))
  /-- An object in which the value of a member comes next. -/
  | member (members : List (Text × Json)) (name : Text)

/-- What may come next.  The first item and the first name have cases of their own, because only
there a container may end without a comma being left over. -/
inductive JsonExpectation where
  | value
  /-- The first item of an array, or its end. -/
  | firstItem
  | name
  /-- The name of the first member of an object, or its end. -/
  | firstName
  | colon
  /-- What follows a value: a comma or the end of its container, or the end of the text. -/
  | behind (value : Json)

/-- The point that reading has come to: the open containers, the innermost first, and what may
come next. -/
structure JsonPoint where
  containers : List OpenJson
  expectation : JsonExpectation

namespace JsonPoint

/-- The point behind a token that begins a value. -/
def beginValue? (containers : List OpenJson) : JsonToken → Option JsonPoint
  | .scalar value => some ⟨containers, .behind value⟩
  | .openArray => some ⟨.array [] :: containers, .firstItem⟩
  | .openObject => some ⟨.object [] :: containers, .firstName⟩
  | _ => none

/-- The point behind the name of a member. -/
def beginMember? (containers : List OpenJson) (token : JsonToken) : Option JsonPoint :=
  match containers, token with
  | .object members :: outer, .scalar (.string name) =>
    some ⟨.member members name :: outer, .colon⟩
  | _, _ => none

/-- The point behind a value and the token that follows it.  Without an open container there is
none: a text is one value. -/
def follow? (containers : List OpenJson) (value : Json) (token : JsonToken) : Option JsonPoint :=
  match containers, token with
  | .array items :: outer, .comma => some ⟨.array (items ++ [value]) :: outer, .value⟩
  | .array items :: outer, .closeArray => some ⟨outer, .behind (.array (items ++ [value]))⟩
  | .member members name :: outer, .comma =>
    some ⟨.object (members ++ [(name, value)]) :: outer, .name⟩
  | .member members name :: outer, .closeObject =>
    some ⟨outer, .behind (.object (members ++ [(name, value)]))⟩
  | _, _ => none

def next? (point : JsonPoint) (token : JsonToken) : Option JsonPoint :=
  match point.expectation, token, point.containers with
  | .firstItem, .closeArray, _ :: outer => some ⟨outer, .behind (.array [])⟩
  | .firstName, .closeObject, _ :: outer => some ⟨outer, .behind (.object [])⟩
  | .value, token, containers | .firstItem, token, containers => beginValue? containers token
  | .name, token, containers | .firstName, token, containers => beginMember? containers token
  | .colon, .colon, containers => some ⟨containers, .value⟩
  | .colon, _, _ => none
  | .behind value, token, containers => follow? containers value token

def finished? (point : JsonPoint) : Option Json :=
  match point.containers, point.expectation with
  | [], .behind value => some value
  | _, _ => none

end JsonPoint

/-- Reads a text as one JSON value. -/
def Json.parse? (text : Text) : Option Json := do
  let tokens ← JsonToken.scan text
  (← tokens.foldlM JsonPoint.next? ⟨[], .value⟩).finished?

end ScriptPreprocessor
