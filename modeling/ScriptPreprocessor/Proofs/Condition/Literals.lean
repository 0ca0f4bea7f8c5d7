import ScriptPreprocessor.Condition.Token
import ScriptPreprocessor.Proofs.Text.Spelling

namespace ScriptPreprocessor

/-!
# Integer literals

An integer in a condition is written in decimal digits, in octal digits behind `0`, or in
hexadecimal digits behind `0x`, and letters that name its type may follow.  A number without a point
is read exactly when it is such a literal of an integer that fits into 64 bits
(`ConditionToken.number?_of_literal`, `ConditionToken.exists_literal`).
-/

/-- A digit of an octal number. -/
def Text.isOctalDigit (character : Char) : Bool :=
  '0' ≤ character && character ≤ '7'

/-- The digits of an integer, with the mark of their base in front. -/
inductive IsNumeral : Text → Nat → Prop
  | decimal {digits : Text} (filled : digits ≠ [])
      (noZero : digits.head? = some '0' → digits = ['0'])
      (all : ∀ digit ∈ digits, digit.isDigit = true) : IsNumeral digits (Text.digitsValue digits)
  | octal {digits : Text} (filled : digits ≠ [])
      (all : ∀ digit ∈ digits, Text.isOctalDigit digit = true) :
      IsNumeral ('0' :: digits) (Text.digitsValue digits 8)
  | hexadecimal {mark : Char} {digits : Text} (marked : mark = 'x' ∨ mark = 'X')
      (filled : digits ≠ []) (all : ∀ digit ∈ digits, Text.isHexDigit digit = true) :
      IsNumeral ('0' :: mark :: digits) (Text.digitsValue digits 16)

/-- An integer as it is written: a numeral, and letters that name its type. -/
def IsLiteral (text : Text) (number : Nat) : Prop :=
  ∃ numeral suffix, text = numeral ++ suffix ∧ IsNumeral numeral number ∧
    ∀ letter ∈ suffix, ConditionToken.isIntegerSuffix letter = true

/-! ## Digits -/

section Digits

variable {character : Char}

theorem le_iff_toNat_le {left right : Char} : left ≤ right ↔ left.toNat ≤ right.toNat := by
  rw [Char.le_def, UInt32.le_iff_toNat_le]
  exact Iff.rfl

/-- The value of a letter or a digit by its code. -/
theorem digitValue_eq (character : Char) :
    Text.digitValue character =
      if 48 ≤ character.toNat ∧ character.toNat ≤ 57 then character.toNat - 48
      else if 65 ≤ character.toNat ∧ character.toNat ≤ 90 then character.toNat - 65 + 10
      else character.toNat - 97 + 10 := by
  simp only [Text.digitValue, isDigit_iff, isUpper_iff]
  rfl

theorem isHexDigit_iff : Text.isHexDigit character = true ↔
    (48 ≤ character.toNat ∧ character.toNat ≤ 57) ∨
      (97 ≤ character.toNat ∧ character.toNat ≤ 102) ∨
      (65 ≤ character.toNat ∧ character.toNat ≤ 70) := by
  simp only [Text.isHexDigit, Bool.or_eq_true, Bool.and_eq_true, decide_eq_true_eq,
    le_iff_toNat_le, isDigit_iff, or_assoc]
  exact Iff.rfl

theorem isOctalDigit_iff : Text.isOctalDigit character = true ↔
    48 ≤ character.toNat ∧ character.toNat ≤ 55 := by
  simp only [Text.isOctalDigit, Bool.and_eq_true, decide_eq_true_eq, le_iff_toNat_le]
  exact Iff.rfl

theorem digitValue_lt_ten_iff (letter : character.isAlphanum = true) :
    Text.digitValue character < 10 ↔ character.isDigit = true := by
  have code := isAlphanum_iff.1 letter
  rw [digitValue_eq, isDigit_iff]
  split_ifs <;> omega

theorem digitValue_lt_eight_iff (letter : character.isAlphanum = true) :
    Text.digitValue character < 8 ↔ Text.isOctalDigit character = true := by
  have code := isAlphanum_iff.1 letter
  rw [digitValue_eq, isOctalDigit_iff]
  split_ifs <;> omega

theorem digitValue_lt_sixteen_iff (letter : character.isAlphanum = true) :
    Text.digitValue character < 16 ↔ Text.isHexDigit character = true := by
  have code := isAlphanum_iff.1 letter
  rw [digitValue_eq, isHexDigit_iff]
  split_ifs <;> omega

theorem isAlphanum_of_isHexDigit (digit : Text.isHexDigit character = true) :
    character.isAlphanum = true := by
  have code := isHexDigit_iff.1 digit
  rw [isAlphanum_iff]
  omega

/-- No hexadecimal digit names a type. -/
theorem isIntegerSuffix_of_isHexDigit (digit : Text.isHexDigit character = true) :
    ConditionToken.isIntegerSuffix character = false := by
  by_contra suffix
  simp only [ConditionToken.isIntegerSuffix, Bool.not_eq_false, Bool.or_eq_true, beq_iff_eq]
    at suffix
  rcases suffix with ((rfl | rfl) | rfl) | rfl <;> exact absurd digit (by decide)

theorem isHexDigit_of_isDigit (digit : character.isDigit = true) :
    Text.isHexDigit character = true := by
  simp [Text.isHexDigit, digit]

theorem isDigit_of_isOctalDigit (digit : Text.isOctalDigit character = true) :
    character.isDigit = true := by
  have code := isOctalDigit_iff.1 digit
  rw [isDigit_iff]
  omega

end Digits

/-! ## Numerals -/

section Numerals

variable {text digits : Text} {number : Nat}

/-- The last character of a numeral does not name a type. -/
theorem IsNumeral.last (numeral : IsNumeral text number) :
    text.getLast?.any ConditionToken.isIntegerSuffix = false := by
  have plain {digits : Text} (all : ∀ digit ∈ digits, Text.isHexDigit digit = true) :
      digits.getLast?.any ConditionToken.isIntegerSuffix = false :=
    (Text.edges_of_forall fun digit member => isIntegerSuffix_of_isHexDigit (all digit member)).2
  cases numeral with
  | decimal _ _ all => exact plain fun digit member => isHexDigit_of_isDigit (all digit member)
  | octal filled all =>
    rw [List.getLast?_cons_of_ne_nil filled]
    exact plain fun digit member =>
      isHexDigit_of_isDigit (isDigit_of_isOctalDigit (all digit member))
  | hexadecimal _ filled all =>
    rw [List.getLast?_cons_of_ne_nil (List.cons_ne_nil _ _), List.getLast?_cons_of_ne_nil filled]
    exact plain all

/-- A numeral is made of letters and digits. -/
theorem IsNumeral.isAlphanum (numeral : IsNumeral text number) {character : Char}
    (member : character ∈ text) : character.isAlphanum = true := by
  cases numeral with
  | decimal _ _ all => exact isAlphanum_of_isHexDigit (isHexDigit_of_isDigit (all _ member))
  | octal _ all =>
    rcases List.mem_cons.1 member with rfl | member
    · rfl
    · exact isAlphanum_of_isHexDigit
        (isHexDigit_of_isDigit (isDigit_of_isOctalDigit (all _ member)))
  | hexadecimal marked _ all =>
    rcases List.mem_cons.1 member with rfl | member
    · rfl
    · rcases List.mem_cons.1 member with rfl | member
      · rcases marked with rfl | rfl <;> rfl
      · exact isAlphanum_of_isHexDigit (all _ member)

/-- A literal is made of letters and digits, and begins with a digit. -/
theorem IsLiteral.shape (literal : IsLiteral text number) :
    (∃ character more, text = character :: more ∧ character.isDigit = true) ∧
      ∀ character ∈ text, character.isAlphanum = true := by
  rcases literal with ⟨numeral, suffix, rfl, isNumeral, letters⟩
  constructor
  · cases isNumeral with
    | @decimal digits filled _ all =>
      rcases List.exists_cons_of_ne_nil filled with ⟨digit, more, rfl⟩
      exact ⟨digit, more ++ suffix, rfl, all digit List.mem_cons_self⟩
    | @octal digits => exact ⟨'0', digits ++ suffix, rfl, rfl⟩
    | @hexadecimal mark digits => exact ⟨'0', mark :: digits ++ suffix, rfl, rfl⟩
  · intro character member
    rcases List.mem_append.1 member with inNumeral | inSuffix
    · exact isNumeral.isAlphanum inNumeral
    · have letter := letters character inSuffix
      simp only [ConditionToken.isIntegerSuffix, Bool.or_eq_true, beq_iff_eq] at letter
      rcases letter with ((rfl | rfl) | rfl) | rfl <;> rfl

/-- A single digit is a literal. -/
theorem isLiteral_digit {digit : Char} (isDigit : digit.isDigit = true) :
    IsLiteral [digit] (Text.digitsValue [digit]) := by
  refine ⟨[digit], [], rfl, .decimal (List.cons_ne_nil _ _) ?_ ?_, List.forall_mem_nil _⟩
  · intro zero
    exact congrArg (fun character => [character]) (Option.some.inj zero)
  · simpa using isDigit

end Numerals

namespace ConditionToken

theorem integer?_eq_some_iff {base : Nat} {digits : Text} {value : Value} :
    integer? base digits = some value ↔
      digits ≠ [] ∧ (∀ digit ∈ digits, Text.digitValue digit < base) ∧
        Text.digitsValue digits base < integerLimit ∧
        value = .integer (Int64.ofNat (Text.digitsValue digits base)) := by
  simp only [integer?, Option.ite_none_right_eq_some, Bool.and_eq_true, Bool.not_eq_true',
    List.isEmpty_eq_false_iff, List.all_eq_true, decide_eq_true_eq, Option.some.injEq, and_assoc]
  constructor
  · rintro ⟨filled, small, fits, rfl⟩
    exact ⟨filled, small, fits, rfl⟩
  · rintro ⟨filled, small, fits, rfl⟩
    exact ⟨filled, small, fits, rfl⟩

theorem number?_of_letters {text : Text}
    (letters : ∀ character ∈ text, character.isAlphanum = true) :
    number? text =
      match text.dropEndWhile isIntegerSuffix with
      | '0' :: 'x' :: digits => integer? 16 digits
      | '0' :: 'X' :: digits => integer? 16 digits
      | '0' :: digit :: digits => integer? 8 (digit :: digits)
      | digits => integer? 10 digits := by
  have noPoint : text.any (· == '.') = false := by
    refine List.any_eq_false.2 fun character member point => ?_
    rw [beq_iff_eq.1 point] at member
    exact absurd (letters '.' member) (by decide)
  rw [number?, noPoint]
  exact if_neg Bool.false_ne_true

/-- A literal of an integer that fits into 64 bits is read as the integer. -/
theorem number?_of_literal {text : Text} {number : Nat} (literal : IsLiteral text number)
    (fits : number < integerLimit) : number? text = some (.integer (Int64.ofNat number)) := by
  rw [number?_of_letters literal.shape.2]
  rcases literal with ⟨numeral, suffix, rfl, isNumeral, letters⟩
  rw [Text.dropEndWhile_append isNumeral.last letters]
  cases isNumeral with
  | @decimal _ filled noZero all =>
    have small : ∀ digit ∈ numeral, Text.digitValue digit < 10 := fun digit member =>
      (digitValue_lt_ten_iff (isAlphanum_of_isHexDigit
        (isHexDigit_of_isDigit (all digit member)))).2 (all digit member)
    have read := integer?_eq_some_iff.2 ⟨filled, small, fits, rfl⟩
    rcases List.exists_cons_of_ne_nil filled with ⟨digit, more, rfl⟩
    by_cases zero : digit = '0'
    · subst zero
      cases noZero rfl
      exact read
    · split
      · next same => exact absurd (List.cons.inj same).1 zero
      · next same => exact absurd (List.cons.inj same).1 zero
      · next same => exact absurd (List.cons.inj same).1 zero
      · exact read
  | @octal digits filled all =>
    have small : ∀ digit ∈ digits, Text.digitValue digit < 8 := fun digit member =>
      (digitValue_lt_eight_iff (isAlphanum_of_isHexDigit
        (isHexDigit_of_isDigit (isDigit_of_isOctalDigit (all digit member))))).2 (all digit member)
    have read := integer?_eq_some_iff.2 ⟨filled, small, fits, rfl⟩
    rcases List.exists_cons_of_ne_nil filled with ⟨digit, more, rfl⟩
    have octal := all digit List.mem_cons_self
    split
    · next same =>
      rw [(List.cons.inj (List.cons.inj same).2).1] at octal
      exact absurd octal (by decide)
    · next same =>
      rw [(List.cons.inj (List.cons.inj same).2).1] at octal
      exact absurd octal (by decide)
    · next same =>
      cases same
      exact read
    · next noDigits => exact absurd rfl (noDigits digit more)
  | @hexadecimal mark digits marked filled all =>
    have small : ∀ digit ∈ digits, Text.digitValue digit < 16 := fun digit member =>
      (digitValue_lt_sixteen_iff (isAlphanum_of_isHexDigit (all digit member))).2 (all digit member)
    rcases marked with rfl | rfl <;> exact integer?_eq_some_iff.2 ⟨filled, small, fits, rfl⟩

/-- A number of letters and digits that is read is a literal. -/
theorem exists_literal {text : Text} {value : Value}
    (letters : ∀ character ∈ text, character.isAlphanum = true)
    (read : number? text = some value) :
    ∃ number, IsLiteral text number ∧ number < integerLimit ∧
      value = .integer (Int64.ofNat number) := by
  rw [number?_of_letters letters] at read
  rcases text.exists_dropEndWhile isIntegerSuffix with ⟨suffix, shape, ending⟩
  have inText {character : Char} (member : character ∈ text.dropEndWhile isIntegerSuffix) :
      character.isAlphanum = true :=
    letters character (by rw [shape]; exact List.mem_append_left _ member)
  have literal {numeral : Text} {number : Nat}
      (same : text.dropEndWhile isIntegerSuffix = numeral) (isNumeral : IsNumeral numeral number) :
      IsLiteral text number := ⟨numeral, suffix, same ▸ shape, isNumeral, ending⟩
  split at read
  · next digits same =>
    rcases integer?_eq_some_iff.1 read with ⟨filled, small, fits, rfl⟩
    have all : ∀ digit ∈ digits, Text.isHexDigit digit = true := fun digit member =>
      (digitValue_lt_sixteen_iff (inText (by simp [same, member]))).1 (small digit member)
    exact ⟨_, literal same (.hexadecimal (Or.inl rfl) filled all), fits, rfl⟩
  · next digits same =>
    rcases integer?_eq_some_iff.1 read with ⟨filled, small, fits, rfl⟩
    have all : ∀ digit ∈ digits, Text.isHexDigit digit = true := fun digit member =>
      (digitValue_lt_sixteen_iff (inText (by simp [same, member]))).1 (small digit member)
    exact ⟨_, literal same (.hexadecimal (Or.inr rfl) filled all), fits, rfl⟩
  · next digit digits _ _ same =>
    rcases integer?_eq_some_iff.1 read with ⟨filled, small, fits, rfl⟩
    have all : ∀ other ∈ digit :: digits, Text.isOctalDigit other = true := fun other member =>
      (digitValue_lt_eight_iff (inText (same ▸ List.mem_cons_of_mem _ member))).1
        (small other member)
    exact ⟨_, literal same (.octal filled all), fits, rfl⟩
  · next digits _ _ noOctal =>
    rcases integer?_eq_some_iff.1 read with ⟨filled, small, fits, rfl⟩
    have all : ∀ digit ∈ text.dropEndWhile isIntegerSuffix, digit.isDigit = true :=
      fun digit member => (digitValue_lt_ten_iff (inText member)).1 (small digit member)
    have noZero : (text.dropEndWhile isIntegerSuffix).head? = some '0' →
        text.dropEndWhile isIntegerSuffix = ['0'] := by
      intro zero
      cases shape : text.dropEndWhile isIntegerSuffix with
      | nil => exact absurd shape filled
      | cons digit more =>
        rw [shape] at zero
        cases zero
        cases more with
        | nil => rfl
        | cons digit more => exact absurd shape (noOctal digit more)
    exact ⟨_, literal rfl (.decimal filled noZero all), fits, rfl⟩

end ConditionToken

end ScriptPreprocessor
