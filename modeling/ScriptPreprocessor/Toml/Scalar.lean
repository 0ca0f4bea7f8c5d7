import ScriptPreprocessor.Calendar.Instant
import ScriptPreprocessor.Toml.Basic

namespace ScriptPreprocessor

/-!
# TOML numbers, dates and times

A value without quotation marks or brackets is a truth value, an integer, a number with a fraction
or an exponent, or a date or time.  Only integers and truth values are given a meaning; the others
are checked and kept as they are written.
-/

namespace Toml

/-! ## Integers -/

/-- The number that digits of a base make.  Single underscores may stand between digits. -/
def digits? (base : Nat) (text : Text) : Option Nat :=
  let groups := text.splitOn (· == '_')
  let isDigit := fun character : Char =>
    Text.isHexDigit character && decide (Text.digitValue character < base)
  if groups.all fun group => !group.isEmpty && group.all isDigit then
    some (Text.digitsValue groups.flatten base)
  else none

def bases : List (Char × Nat) :=
  [('x', 16), ('o', 8), ('b', 2)]

def decimal? (text : Text) : Option Nat :=
  if text.head? == some '0' && text.length != 1 then none else digits? 10 text

/-- A sign, if there is one, and the text behind it. -/
def signed (text : Text) : Bool × Text :=
  match text with
  | '-' :: rest => (true, rest)
  | '+' :: rest => (false, rest)
  | _ => (false, text)

/-- An integer.  A sign may stand only in front of a decimal one. -/
def integer? (text : Text) : Option Int :=
  match text with
  | '0' :: letter :: rest =>
    (bases.lookup letter).bind fun base => (digits? base rest).map Int.ofNat
  | _ =>
    let (isNegative, magnitude) := signed text
    (decimal? magnitude).map fun value => if isNegative then -(value : Int) else value

/-! ## Fractions -/

def isExponent (text : Text) : Bool :=
  (digits? 10 (signed text).2).isSome

/-- Whether a text is a whole part and a fraction, or only a whole part. -/
def isMantissa (text : Text) : Bool :=
  match text.splitOn (· == '.') with
  | [whole] => (decimal? whole).isSome
  | [whole, fraction] => (decimal? whole).isSome && (digits? 10 fraction).isSome
  | _ => false

/-- Whether a text is a number with a fraction or an exponent, or one of the special numbers. -/
def isFraction (text : Text) : Bool :=
  let (_, magnitude) := signed text
  if magnitude == "inf".toList || magnitude == "nan".toList then true
  else
    match magnitude.splitOn fun character => character == 'e' || character == 'E' with
    | [mantissa] => '.' ∈ mantissa && isMantissa mantissa
    | [mantissa, exponent] => isMantissa mantissa && isExponent exponent
    | _ => false

/-! ## Dates and times -/

def field? (width : Nat) (text : Text) : Option Nat :=
  if text.length == width && text.all Char.isDigit then some (Text.digitsValue text) else none

def isWithin (least greatest : Nat) (value : Option Nat) : Bool :=
  value.any fun value => decide (least ≤ value) && decide (value ≤ greatest)

/-- Whether a text is a date.  The days of the month are those of the year, so that a leap day is
one only in a leap year. -/
def isDate (text : Text) : Bool :=
  match text.splitOn (· == '-') with
  | [year, month, day] =>
    match field? 4 year, field? 2 month with
    | some year, some month =>
      isWithin 1 12 (some month) && isWithin 1 (Calendar.daysInMonth year month) (field? 2 day)
    | _, _ => false
  | _ => false

/-- Whether a text is a second, perhaps with a fraction. -/
def isSecond (text : Text) : Bool :=
  match text.splitOn (· == '.') with
  | [second] => isWithin 0 60 (field? 2 second)
  | [second, fraction] =>
    isWithin 0 60 (field? 2 second) && !fraction.isEmpty && fraction.all Char.isDigit
  | _ => false

def isTime (text : Text) : Bool :=
  match text.splitOn (· == ':') with
  | [hour, minute] => isWithin 0 23 (field? 2 hour) && isWithin 0 59 (field? 2 minute)
  | [hour, minute, second] =>
    isWithin 0 23 (field? 2 hour) && isWithin 0 59 (field? 2 minute) && isSecond second
  | _ => false

def isOffsetTime (text : Text) : Bool :=
  if text.endsWith ['Z'] || text.endsWith ['z'] then isTime text.dropLast
  else
    let offset := text.drop (text.length - 6)
    let hasSign := offset.head? == some '+' || offset.head? == some '-'
    hasSign && (offset.drop 1).length == 5 && isTime (offset.drop 1) &&
      isTime (text.take (text.length - 6))

def isDateOrTime (text : Text) : Bool :=
  if text.length ≤ 10 && isDate text then true
  else if isTime text then true
  else
    let separator := (text.drop 10).head?
    let time := text.drop 11
    isDate (text.take 10) &&
      (separator.any fun mark => mark == 'T' || mark == 't' || mark == ' ') &&
      (isTime time || isOffsetTime time)

/-! ## Scalars -/

/-- Whether a character belongs to a value without quotation marks. -/
def isScalarCharacter (character : Char) : Bool :=
  isBareCharacter character || character == '+' || character == '.' || character == ':'

/-- The characters of a value without quotation marks at the beginning of a text, and the text
behind them.  A single space may stand between a date and a time. -/
def scalarText (text : Text) : Text × Text :=
  let word : Text := text.takeWhile isScalarCharacter
  match text.drop word.length with
  | ' ' :: digit :: rest =>
    if isDate word && digit.isDigit then
      let time : Text := (digit :: rest).takeWhile isScalarCharacter
      (word ++ ' ' :: time, (digit :: rest).drop time.length)
    else (word, ' ' :: digit :: rest)
  | behind => (word, behind)

/-- The value that a text without quotation marks and brackets is. -/
def scalar? (text : Text) : Option Toml :=
  if text == "true".toList then some (.boolean true)
  else if text == "false".toList then some (.boolean false)
  else
    match integer? text with
    | some value => some (.integer value)
    | none => if isFraction text || isDateOrTime text then some (.literal text) else none

end Toml

end ScriptPreprocessor
