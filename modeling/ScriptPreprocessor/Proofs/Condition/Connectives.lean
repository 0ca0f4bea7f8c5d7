import ScriptPreprocessor.Proofs.Condition.Readings

namespace ScriptPreprocessor

/-!
# Operators evaluate both operands

Between two conditions in parentheses an operator is evaluated after both of them, the left one
first, so a fault of the right one is a fault of the whole
(`Expression.IsPrinting.evaluate_connected_of_fault`).  This is also how the logical operators are
evaluated: the operand that would not be needed still has to have a value.
-/

/-- An operator between two conditions in parentheses. -/
def connected (sign : Operator) (left right : Text) : Text :=
  "(".toList ++ left ++ ") ".toList ++ sign.symbol ++ " (".toList ++ right ++ ")".toList

namespace Expression

variable {left right : Expression} {leftText rightText : Text}

/-- Two printed trees in parentheses print a tree of both. -/
theorem IsPrinting.connected {sign : Operator} (isBinary : sign.IsBinary)
    (onLeft : left.IsPrinting leftText) (onRight : right.IsPrinting rightText) :
    (binary sign isBinary left right).IsPrinting (connected sign leftText rightText) := by
  rcases onLeft with ⟨leftLexemes, leftPrints, leftSpaced⟩
  rcases onRight with ⟨rightLexemes, rightPrints, rightSpaced⟩
  have ⟨own, binds⟩ := isBinary
  refine ⟨_, .binary binds (Nat.zero_le own) (.group leftPrints) (.group rightPrints), ?_⟩
  have blank : ∀ character ∈ [' '], isBlank character = true := List.all_eq_true.1 rfl
  have group {lexemes : List Lexeme} {text : Text} (spaced : Lexeme.Spaced lexemes text) :
      Lexeme.Spaced (.opening :: lexemes ++ [.closing]) ("(".toList ++ text ++ ")".toList) :=
    ((Lexeme.Spaced.single .opening).append spaced).append (.single .closing)
  have spaced := (group leftSpaced).append <|
    ((Lexeme.Spaced.single (.operator sign)).behindBlanks blank).append <|
      (group rightSpaced).behindBlanks blank
  simpa [ScriptPreprocessor.connected, Lexeme.text] using spaced

/-- A fault of the right operand is a fault of the whole, whatever the left operand is. -/
theorem IsPrinting.evaluate_connected_of_fault {sign : Operator}
    (isBinary : sign.IsBinary) (onLeft : left.IsPrinting leftText)
    (onRight : right.IsPrinting rightText) {evaluation : Evaluation} {fault : ConditionFault}
    (leftEvaluated : evaluate leftText = .ok evaluation)
    (rightEvaluated : evaluate rightText = .error fault) :
    evaluate (ScriptPreprocessor.connected sign leftText rightText) = .error fault := by
  have leftSound := (onLeft.sound_of_evaluate leftEvaluated).1
  rw [onRight.evaluate_eq] at rightEvaluated
  cases faulty : right.fault? with
  | none =>
    rw [faulty] at rightEvaluated
    cases rightEvaluated
  | some found =>
    rw [faulty] at rightEvaluated
    have whole : (binary sign isBinary left right).fault? = some found := by
      rw [fault?, leftSound, faulty]
      rfl
    rw [(onLeft.connected isBinary onRight).evaluate_eq, whole]
    exact rightEvaluated

/-- When both operands have a value, so has a logical operator between them. -/
theorem IsPrinting.evaluate_connected_logical {sign : Operator}
    (isBinary : sign.IsBinary) {result : Bool}
    (logical : sign.value left.value right.value = Operator.truthNumber result)
    (noQuotient : sign ≠ .divide ∧ sign ≠ .remainder) (onLeft : left.IsPrinting leftText)
    (onRight : right.IsPrinting rightText) (leftSound : left.fault? = none)
    (rightSound : right.fault? = none) :
    evaluate (ScriptPreprocessor.connected sign leftText rightText) =
      .ok ⟨Value.ofBool result, (left.names ++ right.names).eraseDups⟩ := by
  have sound : (binary sign isBinary left right).fault? = none := by
    rw [fault?, leftSound, rightSound, Operator.fault?, if_neg (not_or.2 noQuotient)]
    rfl
  rw [(onLeft.connected isBinary onRight).evaluate_eq, sound]
  simp only [word, value, logical, ← Value.ofBool_eq]
  rfl

end Expression

/-- A logical operator has its value from a left operand that decides it only when the right operand
has a value too.  A fault of the right operand is a fault of the whole. -/
theorem evaluate_connected {left right : Expression} {leftText rightText : Text} {number : Int64}
    {seen : List Text} (onLeft : left.IsPrinting leftText) (onRight : right.IsPrinting rightText)
    (evaluated : evaluate leftText = .ok ⟨.integer number, seen⟩) :
    (∀ evaluation, evaluate rightText = .ok evaluation →
      (number ≠ 0 → evaluate (connected .logicalOr leftText rightText) =
        .ok ⟨.integer 1, (left.names ++ right.names).eraseDups⟩) ∧
      (number = 0 → evaluate (connected .logicalAnd leftText rightText) =
        .ok ⟨.integer 0, (left.names ++ right.names).eraseDups⟩)) ∧
    (∀ fault, evaluate rightText = .error fault →
      evaluate (connected .logicalOr leftText rightText) = .error fault ∧
      evaluate (connected .logicalAnd leftText rightText) = .error fault) := by
  rcases onLeft.sound_of_evaluate evaluated with ⟨leftSound, found⟩
  have same : number = left.word := Value.integer.inj (Evaluation.mk.inj found).1
  constructor
  · intro evaluation rightEvaluated
    have rightSound := (onRight.sound_of_evaluate rightEvaluated).1
    constructor
    · intro nonzero
      have decides : left.value ≠ 0 := by
        intro zero
        rw [same, Expression.word, zero] at nonzero
        exact nonzero rfl
      have logical : Operator.value .logicalOr left.value right.value =
          Operator.truthNumber true := by simp [Operator.value, decides]
      exact onLeft.evaluate_connected_logical ⟨1, by decide⟩ logical (by decide) onRight leftSound
        rightSound
    · intro zero
      have decides : left.value = 0 := by
        rw [← Expression.toInt_word leftSound, ← same, zero]
        rfl
      have logical : Operator.value .logicalAnd left.value right.value =
          Operator.truthNumber false := by simp [Operator.value, decides]
      exact onLeft.evaluate_connected_logical ⟨2, by decide⟩ logical (by decide) onRight leftSound
        rightSound
  · intro fault rightEvaluated
    exact ⟨onLeft.evaluate_connected_of_fault ⟨1, by decide⟩ onRight evaluated rightEvaluated,
      onLeft.evaluate_connected_of_fault ⟨2, by decide⟩ onRight evaluated rightEvaluated⟩

/-- Conditions that are decided by their left operand, with a value on the right, and with a
quotient by zero there. -/
theorem evaluate_connected_digits :
    evaluate "(1) || (2)".toList = .ok ⟨.integer 1, []⟩ ∧
      evaluate "(0) && (2)".toList = .ok ⟨.integer 0, []⟩ ∧
      evaluate "(1) || ((1) / (0))".toList = .error (.arithmetic .divisionByZero) := by
  have zero := Expression.isPrinting_digit (show Char.isDigit '0' = true from rfl) (by decide)
  have one := Expression.isPrinting_digit (show Char.isDigit '1' = true from rfl) (by decide)
  have two := Expression.isPrinting_digit (show Char.isDigit '2' = true from rfl) (by decide)
  have quotient : (Expression.binary .divide ⟨10, by decide⟩ _ _).IsPrinting _ :=
    one.connected ⟨10, by decide⟩ zero
  exact ⟨((evaluate_connected one two one.evaluate_eq).1 _ two.evaluate_eq).1 (by decide),
    ((evaluate_connected zero two zero.evaluate_eq).1 _ two.evaluate_eq).2 rfl,
    ((evaluate_connected one quotient one.evaluate_eq).2 _ quotient.evaluate_eq).1⟩

/-- A left operand that decides a logical operator does not keep a fault on the right away: both
`(1) || ((1) / (0))` and `(0) && ((1) / (0))` are divisions by zero. -/
theorem not_evaluate_connected_of_decided :
    ¬ ∀ (left right : Expression) (leftText rightText : Text) (number : Int64) (seen : List Text),
      left.IsPrinting leftText → right.IsPrinting rightText →
        evaluate leftText = .ok ⟨.integer number, seen⟩ →
          (number ≠ 0 → ∃ found, evaluate (connected .logicalOr leftText rightText) =
            .ok ⟨.integer 1, found⟩) ∧
          (number = 0 → ∃ found, evaluate (connected .logicalAnd leftText rightText) =
            .ok ⟨.integer 0, found⟩) := by
  intro decided
  have zero := Expression.isPrinting_digit (show Char.isDigit '0' = true from rfl) (by decide)
  have one := Expression.isPrinting_digit (show Char.isDigit '1' = true from rfl) (by decide)
  have quotient : (Expression.binary .divide ⟨10, by decide⟩ _ _).IsPrinting _ :=
    one.connected ⟨10, by decide⟩ zero
  have faulty : evaluate (connected .logicalOr _ _) = _ :=
    one.evaluate_connected_of_fault ⟨1, by decide⟩ quotient one.evaluate_eq quotient.evaluate_eq
  rcases (decided _ _ _ _ _ _ one quotient one.evaluate_eq).1 (by decide) with ⟨found, evaluated⟩
  rw [faulty] at evaluated
  cases evaluated

end ScriptPreprocessor
