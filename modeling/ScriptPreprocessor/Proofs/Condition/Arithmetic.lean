import Mathlib.Algebra.Ring.Int.Defs
import Mathlib.Algebra.Ring.Nat
import ScriptPreprocessor.Condition.Value

namespace ScriptPreprocessor

/-!
# Arithmetic of conditions

What the operators of a condition do is said here about integers: the exact result, brought back
into the range of 64 bits by `wrap`; bits are those of the two's complement; and a shift count is
taken modulo 64.  A quotient or a remainder has no result when the right operand is zero, and when
the least integer is divided by minus one.

The operators on words of 64 bits do the same (`Value.applyIntegers_of_sound`,
`Value.applyIntegers_of_fault`, `Value.applyUnary_eq`).
-/

namespace Operator

/-- The number for what holds and for what does not. -/
def truthNumber (condition : Bool) : Int :=
  if condition then 1 else 0

/-- The integer of 64 bits that a number wraps around to. -/
def wrap (number : Int) : Int :=
  number.bmod (2 ^ 64)

/-- An operation on the bits of the two's complement. -/
def onBits (operation : BitVec 64 → BitVec 64 → BitVec 64) (left right : Int) : Int :=
  (operation (BitVec.ofInt 64 left) (BitVec.ofInt 64 right)).toInt

/-- How far a shift count moves bits. -/
def shiftCount (count : Int) : Nat :=
  (count % 64).toNat

/-- The result of an operator between two integers. -/
def value (sign : Operator) (left right : Int) : Int :=
  match sign with
  | .logicalOr => truthNumber (left ≠ 0 ∨ right ≠ 0)
  | .logicalAnd => truthNumber (left ≠ 0 ∧ right ≠ 0)
  | .equal => truthNumber (left = right)
  | .notEqual => truthNumber (left ≠ right)
  | .lessEqual => truthNumber (left ≤ right)
  | .greaterEqual => truthNumber (right ≤ left)
  | .less => truthNumber (left < right)
  | .greater => truthNumber (right < left)
  | .bitOr => onBits (· ||| ·) left right
  | .bitXor => onBits (· ^^^ ·) left right
  | .bitAnd => onBits (· &&& ·) left right
  | .shiftLeft => wrap (left * 2 ^ shiftCount right)
  | .shiftRight => left / 2 ^ shiftCount right
  | .plus => wrap (left + right)
  | .minus => wrap (left - right)
  | .times => wrap (left * right)
  | .divide => left.tdiv right
  | .remainder => left.tmod right
  | .logicalNot | .bitNot => 0

/-- Why an operator has no result between two integers. -/
def fault? (sign : Operator) (left right : Int) : Option ArithmeticFault :=
  if sign = .divide ∨ sign = .remainder then
    if right = 0 then some .divisionByZero
    else if left = -2 ^ 63 ∧ right = -1 then some (.overflow sign)
    else none
  else none

/-- The result of an operator in front of an integer. -/
def valueInFront (sign : Operator) (operand : Int) : Int :=
  match sign with
  | .logicalNot => truthNumber (operand = 0)
  | .bitNot => -operand - 1
  | .minus => wrap (-operand)
  | _ => operand

end Operator

namespace Value

open Operator (truthNumber wrap onBits shiftCount)

theorem ofBool_eq (condition : Bool) :
    ofBool condition = .integer (Int64.ofInt (truthNumber condition)) := by
  cases condition <;> rfl

theorem toInt_truthNumber (condition : Bool) :
    (Int64.ofInt (truthNumber condition)).toInt = truthNumber condition := by
  cases condition <;> rfl

theorem toNat_smod (count : Int64) :
    (count.toBitVec.smod 64).toNat = shiftCount count.toInt := by
  have reduced : (count.toBitVec.smod 64).toInt = count.toInt % 64 := by
    rw [BitVec.toInt_smod, Int64.toInt_toBitVec]
    exact Int.fmod_eq_emod_of_nonneg _ (by decide)
  have positive : 0 ≤ (count.toBitVec.smod 64).toInt := by
    rw [reduced]
    exact Int.emod_nonneg _ (by decide)
  rw [shiftCount, ← reduced]
  rw [BitVec.toInt_eq_toNat_cond] at positive ⊢
  split at positive
  · next low => rw [if_pos low, Int.toNat_natCast]
  · next high =>
    have bound := (count.toBitVec.smod 64).isLt
    omega

theorem toInt_shiftLeft (left right : Int64) :
    (left <<< right).toInt = wrap (left.toInt * 2 ^ shiftCount right.toInt) := by
  have power (count : Nat) : BitVec.twoPow 64 count = BitVec.ofInt 64 (2 ^ count) := by
    have natural : ((2 : Int) ^ count) = ((2 ^ count : Nat) : Int) := by norm_cast
    rw [natural, BitVec.ofInt_natCast]
    apply BitVec.eq_of_toNat_eq
    rw [BitVec.toNat_twoPow, BitVec.toNat_ofNat]
  rw [← Int64.toInt_toBitVec, Int64.toBitVec_shiftLeft, BitVec.shiftLeft_eq', toNat_smod,
    BitVec.shiftLeft_eq_mul_twoPow, power, ← BitVec.ofInt_toInt (x := left.toBitVec),
    ← BitVec.ofInt_mul, BitVec.toInt_ofInt, Int64.toInt_toBitVec]
  rfl

theorem toInt_shiftRight (left right : Int64) :
    (left >>> right).toInt = left.toInt / 2 ^ shiftCount right.toInt := by
  rw [← Int64.toInt_toBitVec, Int64.toBitVec_shiftRight, BitVec.toInt_sshiftRight', toNat_smod,
    Int.shiftRight_eq_div_pow, Int64.toInt_toBitVec]
  rfl

theorem onBits_toInt (operation : BitVec 64 → BitVec 64 → BitVec 64) (left right : Int64) :
    onBits operation left.toInt right.toInt =
      (operation left.toBitVec right.toBitVec).toInt := by
  rw [onBits, ← Int64.toInt_toBitVec, ← Int64.toInt_toBitVec, BitVec.ofInt_toInt,
    BitVec.ofInt_toInt]

/-! ## Results -/

theorem beq_eq_decide (left right : Int64) :
    (left == right) = decide (left.toInt = right.toInt) := by
  rw [Bool.eq_iff_iff, beq_iff_eq, decide_eq_true_eq, Int64.toInt_inj]

theorem bne_zero_eq_decide (number : Int64) : (number != 0) = decide (number.toInt ≠ 0) := by
  rw [bne, beq_eq_decide, ← decide_not]
  rfl

/-- Operators other than the quotient and the remainder always have a result. -/
theorem applyIntegers_of_other {sign : Operator} (isBinary : sign.precedence?.isSome = true)
    (noQuotient : sign ≠ .divide ∧ sign ≠ .remainder) (left right : Int64) :
    ∃ result : Int64, result.toInt = sign.value left.toInt right.toInt ∧
      applyIntegers sign left right = .ok (.integer result) := by
  have compared {condition expected : Bool} (same : condition = expected) :
      ∃ result : Int64, result.toInt = truthNumber expected ∧
        Except.ok (ofBool condition) = (.ok (.integer result) : Except ArithmeticFault Value) :=
    ⟨_, toInt_truthNumber expected, by rw [same, ofBool_eq]⟩
  cases sign with
  | divide => exact absurd rfl noQuotient.1
  | remainder => exact absurd rfl noQuotient.2
  | logicalNot => cases isBinary
  | bitNot => cases isBinary
  | logicalOr =>
    refine compared ?_
    rw [bne_zero_eq_decide, bne_zero_eq_decide, Bool.decide_or]
  | logicalAnd =>
    refine compared ?_
    rw [bne_zero_eq_decide, bne_zero_eq_decide, Bool.decide_and]
  | equal => exact compared (beq_eq_decide left right)
  | notEqual =>
    refine compared ?_
    rw [bne, beq_eq_decide, ← decide_not]
  | lessEqual => exact compared (decide_eq_decide.2 Int64.le_iff_toInt_le)
  | greaterEqual => exact compared (decide_eq_decide.2 Int64.le_iff_toInt_le)
  | less => exact compared (decide_eq_decide.2 Int64.lt_iff_toInt_lt)
  | greater => exact compared (decide_eq_decide.2 Int64.lt_iff_toInt_lt)
  | bitOr => exact ⟨left ||| right, (onBits_toInt (· ||| ·) left right).symm, rfl⟩
  | bitXor => exact ⟨left ^^^ right, (onBits_toInt (· ^^^ ·) left right).symm, rfl⟩
  | bitAnd => exact ⟨left &&& right, (onBits_toInt (· &&& ·) left right).symm, rfl⟩
  | shiftLeft => exact ⟨left <<< right, toInt_shiftLeft left right, rfl⟩
  | shiftRight => exact ⟨left >>> right, toInt_shiftRight left right, rfl⟩
  | plus => exact ⟨left + right, Int64.toInt_add left right, rfl⟩
  | minus => exact ⟨left - right, Int64.toInt_sub left right, rfl⟩
  | times => exact ⟨left * right, Int64.toInt_mul left right, rfl⟩

theorem beq_zero_eq_decide (number : Int64) : (number == 0) = decide (number.toInt = 0) :=
  beq_eq_decide number 0

/-- Only the least word divided by minus one has a quotient out of range. -/
theorem overflows_eq_decide (left right : Int64) :
    (left == Int64.minValue && right == -1) =
      decide (left.toInt = -2 ^ 63 ∧ right.toInt = -1) := by
  rw [beq_eq_decide, beq_eq_decide, Bool.decide_and]
  rfl

/-- A quotient or a remainder has the fault that it has for the integers. -/
theorem applyIntegers_of_fault {sign : Operator} {left right : Int64} {fault : ArithmeticFault}
    (faulty : sign.fault? left.toInt right.toInt = some fault) :
    applyIntegers sign left right = .error fault := by
  simp only [Operator.fault?] at faulty
  split at faulty
  · next quotient =>
    rcases quotient with rfl | rfl
    all_goals
      simp only [applyIntegers, beq_zero_eq_decide, overflows_eq_decide, decide_eq_true_eq]
      split at faulty
      · next isZero =>
        cases faulty
        rw [if_pos isZero]
      · next notZero =>
        split at faulty
        · next overflows =>
          cases faulty
          rw [if_neg notZero, if_pos overflows]
        · cases faulty
  · cases faulty

theorem toInt_div_of_fits {left right : Int64}
    (fits : ¬ (left.toInt = -2 ^ 63 ∧ right.toInt = -1)) :
    (left / right).toInt = left.toInt.tdiv right.toInt := by
  rcases not_and_or.1 fits with notLeast | notMinusOne
  · exact Int64.toInt_div_of_ne_left _ _ fun least => notLeast (congrArg Int64.toInt least)
  · exact Int64.toInt_div_of_ne_right _ _ fun minusOne =>
      notMinusOne (congrArg Int64.toInt minusOne)

theorem applyIntegers_of_quotient {sign : Operator} {left right : Int64}
    (quotient : sign = .divide ∨ sign = .remainder)
    (sound : sign.fault? left.toInt right.toInt = none) :
    ∃ result : Int64, result.toInt = sign.value left.toInt right.toInt ∧
      applyIntegers sign left right = .ok (.integer result) := by
  simp only [Operator.fault?, if_pos quotient] at sound
  split at sound
  · cases sound
  · next notZero =>
    split at sound
    · cases sound
    · next fits =>
      rcases quotient with rfl | rfl
      · refine ⟨left / right, toInt_div_of_fits fits, ?_⟩
        simp only [applyIntegers, beq_zero_eq_decide, overflows_eq_decide, decide_eq_true_eq]
        rw [if_neg notZero, if_neg fits]
      · refine ⟨left % right, Int64.toInt_mod left right, ?_⟩
        simp only [applyIntegers, beq_zero_eq_decide, overflows_eq_decide, decide_eq_true_eq]
        rw [if_neg notZero, if_neg fits]

/-- Where the integers have a result, so have the words, and it is the same. -/
theorem applyIntegers_of_sound {sign : Operator} (isBinary : sign.precedence?.isSome = true)
    {left right : Int64} (sound : sign.fault? left.toInt right.toInt = none) :
    ∃ result : Int64, result.toInt = sign.value left.toInt right.toInt ∧
      applyIntegers sign left right = .ok (.integer result) := by
  by_cases quotient : sign = .divide ∨ sign = .remainder
  · exact applyIntegers_of_quotient quotient sound
  · exact applyIntegers_of_other isBinary (not_or.1 quotient) left right

/-- An operator in front of a word does what it does in front of the integer. -/
theorem applyUnary_eq {sign : Operator} (isUnary : sign.isUnary = true) (operand : Int64) :
    ∃ result : Int64, result.toInt = sign.valueInFront operand.toInt ∧
      applyUnary sign (.integer operand) = .ok (.integer result) := by
  cases sign with
  | logicalNot =>
    refine ⟨_, toInt_truthNumber (operand.toInt = 0), ?_⟩
    rw [applyUnary, isTrue, bne_zero_eq_decide, ofBool_eq]
    simp
  | bitNot =>
    refine ⟨~~~operand, ?_, rfl⟩
    have least := operand.le_toInt
    have greatest := operand.toInt_lt
    rw [Int64.toInt_not, Operator.valueInFront]
    exact Int.bmod_eq_of_le (by omega) (by omega)
  | minus => exact ⟨-operand, Int64.toInt_neg operand, rfl⟩
  | plus => exact ⟨operand, rfl, rfl⟩
  | _ => cases isUnary

end Value

end ScriptPreprocessor
