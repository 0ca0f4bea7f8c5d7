import ScriptPreprocessor.Number.Binary64
import ScriptPreprocessor.Text.Word

namespace ScriptPreprocessor

/-!
# Decimal texts of binary numbers

Reading rounds a decimal text to the nearest binary number.  Writing chooses the fewest digits
that read back as the same number and, among those, the ones nearest to it; the digits are written
out positionally, without an exponent.
-/

namespace Decimal

/-! ## Reading -/

/-- The exponent behind the digits of a decimal text: none, or `e` and digits. -/
def exponent? : Text → Option Nat
  | [] => some 0
  | mark :: digits =>
    if (mark == 'e' || mark == 'E') && !digits.isEmpty && digits.all Char.isDigit then
      some (Text.digitsValue digits)
    else none

/-- The greatest exponent that is computed with.  A text of fewer digits than this has left the
range of the binary numbers long before. -/
def exponentLimit : Nat := 100000

def powerOfTen (exponent : Nat) : Nat :=
  Nat.pow 10 exponent

/-- Reads digits with a point in between and an optional exponent.  There may be no digits on one
side of the point, but not on both. -/
def parse? (text : Text) : Option Float :=
  let whole := text.takeWhile Char.isDigit
  match text.dropWhile Char.isDigit with
  | '.' :: rest =>
    let places := rest.takeWhile Char.isDigit
    if whole.isEmpty && places.isEmpty then none
    else
      (exponent? (rest.dropWhile Char.isDigit)).map fun exponent =>
        let digits := Text.digitsValue (whole ++ places)
        let exponent := if digits == 0 then 0 else min exponent exponentLimit
        if places.length ≤ exponent then
          Binary64.ofFraction (digits * powerOfTen (exponent - places.length)) 1
        else
          Binary64.ofFraction digits (powerOfTen (places.length - exponent))
  | _ => none

/-! ## Writing -/

/-- Whether `left · 2 ^ exponent` is not above `right · 10 ^ power`.  Both sides are multiplied
until they are natural numbers, so the comparison is exact. -/
def binaryLeDecimal (left : Nat) (exponent : Int) (right : Nat) (power : Int) : Bool :=
  (left <<< exponent.toNat) * powerOfTen (-power).toNat ≤
    (right <<< (-exponent).toNat) * powerOfTen power.toNat

/-- Whether `right · 10 ^ power` is not above `left · 2 ^ exponent`. -/
def decimalLeBinary (right : Nat) (power : Int) (left : Nat) (exponent : Int) : Bool :=
  (right <<< (-exponent).toNat) * powerOfTen power.toNat ≤
    (left <<< exponent.toNat) * powerOfTen (-power).toNat

/-- The decimals that read back as one binary number: all between two bounds, which are multiples
of a quarter of its unit, and the bounds themselves when its significand is even. -/
structure Interval where
  least : Nat
  value : Nat
  greatest : Nat
  exponent : Int
  closed : Bool

/-- The interval of a positive number.  Below a power of two the neighbour is half as far away. -/
def Interval.of (significand : Nat) (exponent : Int) : Interval :=
  let narrow := significand == Binary64.significandBit && exponent != Binary64.leastExponent
  { least := if narrow then 4 * significand - 1 else 4 * significand - 2
    value := 4 * significand
    greatest := 4 * significand + 2
    exponent := exponent - 2
    closed := significand % 2 == 0 }

def Interval.holds (interval : Interval) (digits : Nat) (power : Int) : Bool :=
  if interval.closed then
    binaryLeDecimal interval.least interval.exponent digits power &&
      decimalLeBinary digits power interval.greatest interval.exponent
  else
    !decimalLeBinary digits power interval.least interval.exponent &&
      !binaryLeDecimal interval.greatest interval.exponent digits power

/-- The multiple of a power of ten just below the value of an interval. -/
def Interval.floor (interval : Interval) (power : Int) : Nat :=
  (interval.value <<< interval.exponent.toNat) * powerOfTen (-power).toNat /
    (powerOfTen power.toNat <<< (-interval.exponent).toNat)

/-- Whether the upper of the two multiples around the value is nearer to it. -/
def Interval.isUpperNearer (interval : Interval) (lower : Nat) (power : Int) : Bool :=
  decimalLeBinary (2 * lower + 1) power (2 * interval.value) interval.exponent

/-- The shortest decimal of an interval, searched on the multiples of ever smaller powers of ten.
Where two of them lie in it, the nearer one is taken. -/
def Interval.shortest (interval : Interval) : Nat → Int → Nat × Int
  | 0, power => (interval.floor power, power)
  | steps + 1, power =>
    let lower := interval.floor power
    let holdsLower := 0 < lower && interval.holds lower power
    let holdsUpper := interval.holds (lower + 1) power
    if holdsLower && holdsUpper then
      (if interval.isUpperNearer lower power then lower + 1 else lower, power)
    else if holdsLower then (lower, power)
    else if holdsUpper then (lower + 1, power)
    else interval.shortest steps (power - 1)

/-- A power of ten above `significand · 2 ^ exponent`.  It is computed with a rational just above
the logarithm of two; one too many only costs a step of the search. -/
def powerAbove (significand : Nat) (exponent : Int) : Int :=
  ((significand.log2 : Int) + 1 + exponent) * 30103 / 100000 + 2

/-- Digits and a power of ten, written out positionally.  There is no exponent, however many zeros
that takes. -/
def positional (digits : Nat) (power : Int) : Text :=
  let text := Text.ofNat digits
  if 0 ≤ power then text ++ List.replicate power.toNat '0'
  else
    let places := (-power).toNat
    let padded := List.replicate (places + 1 - text.length) '0' ++ text
    padded.take (padded.length - places) ++ '.' :: padded.drop (padded.length - places)

/-- The text of a binary number.  Seventeen digits always suffice. -/
def render (number : Float) : Text :=
  match Binary64.parts number with
  | .notANumber => "NaN".toList
  | .infinity negative => if negative then "-inf".toList else "inf".toList
  | .finite negative significand exponent =>
    let sign : Text := if negative then ['-'] else []
    if significand == 0 then sign ++ ['0']
    else
      let (digits, power) :=
        (Interval.of significand exponent).shortest 24 (powerAbove significand exponent)
      sign ++ positional digits power

end Decimal

end ScriptPreprocessor
