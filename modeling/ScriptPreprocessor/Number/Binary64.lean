namespace ScriptPreprocessor

/-!
# Binary numbers of 64 bits

A condition may compute with decimal fractions.  They are numbers of 64 bits: a sign, a
significand of 53 bits and an exponent.  Here such a number is taken apart into whole numbers, a
fraction is rounded to the nearest such number, and the remainder of a division is computed
without rounding.
-/

namespace Binary64

/-- What 64 bits stand for: no number, an infinity, or `significand · 2 ^ exponent` with a sign.
Taken apart like this, arithmetic on numbers becomes exact arithmetic on integers. -/
inductive Parts where
  | notANumber
  | infinity (negative : Bool)
  | finite (negative : Bool) (significand : Nat) (exponent : Int)
  deriving DecidableEq, Repr

def leastExponent : Int := -1074

/-- The least significand of 53 bits.  It takes 52 bits to store one, because the first bit of every
other significand is known. -/
def significandBit : Nat := 0x10000000000000

/-- The bits of the positive infinity; all smaller ones are finite numbers. -/
def infinityBits : Nat := 0x7FF0000000000000

/-- The bit of a negative sign. -/
def signBit : Nat := 0x8000000000000000

/-- Takes bits apart. -/
def partsOfBits (bits : Nat) : Parts :=
  let negative := signBit ≤ bits
  let scale : Nat := bits / significandBit % 2048
  let fraction : Nat := bits % significandBit
  if scale == 2047 then
    if fraction == 0 then .infinity negative else .notANumber
  else if scale == 0 then .finite negative fraction leastExponent
  else .finite negative (significandBit + fraction) (leastExponent + scale - 1)

def parts (number : Float) : Parts :=
  partsOfBits number.toBits.toNat

/-- A quotient rounded to the nearest whole number, a half to the even neighbour.  This is the only
place where precision is lost. -/
def roundQuotient (numerator denominator : Nat) : Nat :=
  let quotient := numerator / denominator
  let twice := 2 * (numerator % denominator)
  if denominator < twice || (denominator == twice && quotient % 2 == 1) then quotient + 1
  else quotient

/-- The greatest exponent of two that is not above a positive fraction. -/
def floorLog2 (numerator denominator : Nat) : Int :=
  let guess : Int := (numerator.log2 : Int) - denominator.log2
  let reaches :=
    if 0 ≤ guess then denominator <<< guess.toNat ≤ numerator
    else denominator ≤ numerator <<< (-guess).toNat
  if reaches then guess else guess - 1

/-- The bits of the number nearest to a fraction.  The exponent is chosen so that the significand
has 53 bits, or as many as the least exponent leaves; rounding up to the next power of two carries
into the exponent by itself. -/
def bitsOfFraction (numerator denominator : Nat) : Nat :=
  if numerator == 0 || denominator == 0 then 0
  else
    let exponent := max (floorLog2 numerator denominator - 52) leastExponent
    let significand :=
      if 0 ≤ exponent then roundQuotient numerator (denominator <<< exponent.toNat)
      else roundQuotient (numerator <<< (-exponent).toNat) denominator
    min infinityBits ((exponent - leastExponent).toNat * significandBit + significand)

def ofBits (negative : Bool) (bits : Nat) : Float :=
  Float.ofBits (UInt64.ofNat (if negative then signBit + bits else bits))

def ofFraction (numerator denominator : Nat) : Float :=
  ofBits false (bitsOfFraction numerator denominator)

def notANumber : Float := Float.ofBits 0x7FF8000000000000

/-- The remainder of a division whose quotient is rounded toward zero.  It has the sign of the
dividend, and it is exact: both numbers are multiples of the smaller of their units. -/
def remainder (dividend divisor : Float) : Float :=
  match parts dividend, parts divisor with
  | .finite negative left leftExponent, .finite _ right rightExponent =>
    if right == 0 then notANumber
    else
      let exponent := min leftExponent rightExponent
      let scaledLeft := left <<< (leftExponent - exponent).toNat
      let scaledRight := right <<< (rightExponent - exponent).toNat
      let rest := scaledLeft % scaledRight
      let bits :=
        if 0 ≤ exponent then bitsOfFraction (rest <<< exponent.toNat) 1
        else bitsOfFraction rest (1 <<< (-exponent).toNat)
      ofBits negative bits
  | .finite _ _ _, .infinity _ => dividend
  | _, _ => notANumber

end Binary64

end ScriptPreprocessor
