import ScriptPreprocessor.Proofs.Condition.Lexemes
import ScriptPreprocessor.Proofs.Condition.Literals
import ScriptPreprocessor.Proofs.Condition.Tests

namespace ScriptPreprocessor

/-!
# Pieces of conditions with tests

A condition falls into tests for definitions and into characters that are copied
(`replaceDefined_eq`).  Where the pieces are cut does not depend on what is defined.

No test begins inside a lexeme that has a token: behind a letter there is no word boundary, and a
number with a point has no `d` in it.  So a lexeme is copied unless a test begins with it
(`Lexeme.testPieces_lexeme`).
-/

open ConditionToken (continuesNumber)

/-- A test for a definition in a condition: the name that it asks about, what follows the word
`defined` directly, and what follows the test. -/
structure DefinedTest where
  name : Text
  behind : Text
  after : Text
  deriving DecidableEq, Repr

/-- The pieces of a text, as tests are replaced in it: where `skip` characters still belong to the
test found last, and a test may begin only at a word boundary. -/
def testPiecesFrom : Nat → Bool → Text → List (Char ⊕ DefinedTest)
  | _, _, [] => []
  | skip + 1, _, _ :: rest => testPiecesFrom skip true rest
  | 0, boundary, character :: rest =>
    match if boundary then definedTest? (character :: rest) else none with
    | some (name, after) =>
      .inr ⟨name, (character :: rest).drop definedWord.length, after⟩ ::
        testPiecesFrom (rest.length - after.length) true rest
    | none => .inl character :: testPiecesFrom 0 (!isUnicodeWordCharacter character) rest

/-- The pieces of a text: tests, and the characters between them. -/
def testPieces (text : Text) : List (Char ⊕ DefinedTest) :=
  testPiecesFrom 0 true text

/-- The digit for the answer to a test. -/
def answerDigit (answer : Bool) : Char :=
  if answer then '1' else '0'

/-- What a piece is replaced by. -/
def replacedPiece (isDefined : Text → Bool) : Char ⊕ DefinedTest → Char
  | .inl character => character
  | .inr test => answerDigit (isDefined test.name)

/-- The tests of a text, from left to right. -/
def Text.definedTests (text : Text) : List DefinedTest :=
  (testPieces text).filterMap Sum.getRight?

theorem replaceDefinedFrom_eq (isDefined : Text → Bool) (skip : Nat) (boundary : Bool)
    (text : Text) :
    replaceDefinedFrom isDefined skip boundary text =
      (testPiecesFrom skip boundary text).map (replacedPiece isDefined) := by
  induction text generalizing skip boundary with
  | nil => rfl
  | cons character rest ih =>
    cases skip with
    | succ skip => exact ih skip true
    | zero =>
      rw [replaceDefinedFrom, testPiecesFrom]
      cases if boundary then definedTest? (character :: rest) else none with
      | none => exact congrArg (character :: ·) (ih _ _)
      | some found => exact congrArg (answerDigit (isDefined found.1) :: ·) (ih _ _)

/-- The tests are replaced by digits, and everything else is copied. -/
theorem replaceDefined_eq (isDefined : Text → Bool) (text : Text) :
    replaceDefined isDefined text = (testPieces text).map (replacedPiece isDefined) :=
  replaceDefinedFrom_eq isDefined 0 true text

/-! ## Where tests begin -/

section Pieces

variable {character : Char} {front rest name after : Text} {boundary : Bool}

/-- A test begins with the word `defined`. -/
theorem definedTest?_of_head? {text : Text} (noMark : text.head? ≠ some 'd') :
    definedTest? text = none := by
  have none : text.afterStart? definedWord = none := by
    cases text with
    | nil => rfl
    | cons character rest =>
      cases begins : Text.afterStart? (character :: rest) definedWord with
      | none => rfl
      | some behind =>
        have shape := Text.afterStart?_eq_some_iff.1 begins
        cases shape
        exact absurd rfl noMark
  rw [definedTest?, none]
  rfl

theorem testPieces_cons (noTest : definedTest? (character :: rest) = none) :
    testPieces (character :: rest) =
      .inl character :: testPiecesFrom 0 (!isUnicodeWordCharacter character) rest := by
  rw [testPieces, testPiecesFrom, if_pos rfl, noTest]

/-- Where no test begins, it does not matter whether one may begin. -/
theorem testPiecesFrom_eq (edge : boundary = false → rest.head? ≠ some 'd') :
    testPiecesFrom 0 boundary rest = testPieces rest := by
  cases boundary with
  | true => rfl
  | false =>
    cases rest with
    | nil => rfl
    | cons character rest =>
      rw [testPieces_cons (definedTest?_of_head? (edge rfl)), testPiecesFrom]
      rfl

theorem testPiecesFrom_append (front after : Text) :
    testPiecesFrom front.length true (front ++ after) = testPieces after := by
  induction front with
  | nil => rfl
  | cons character front ih => exact ih

/-- A test is one piece, and the rest is cut from a word boundary on. -/
theorem testPieces_test {text : Text} (found : definedTest? text = some (name, after)) :
    testPieces text =
      .inr ⟨name, text.drop definedWord.length, after⟩ :: testPieces after := by
  rcases exists_of_definedTest? found with ⟨_ | ⟨first, test⟩, filled, rfl, _⟩
  · exact absurd rfl filled
  · have skipped : (test ++ after).length - after.length = test.length := by simp
    rw [testPieces, List.cons_append, testPiecesFrom, if_pos rfl, ← List.cons_append, found]
    simp only [skipped, testPiecesFrom_append]

/-- No test begins behind a letter. -/
theorem testPiecesFrom_letters (letters : ∀ letter ∈ front, isWordCharacter letter = true)
    (edge : rest.head? ≠ some 'd') :
    testPiecesFrom 0 false (front ++ rest) = front.map .inl ++ testPieces rest := by
  induction front with
  | nil => exact testPiecesFrom_eq fun _ => edge
  | cons letter front ih =>
    have word := isUnicodeWordCharacter_of_isWordCharacter (letters letter List.mem_cons_self)
    rw [List.cons_append, testPiecesFrom]
    simp only [Bool.false_eq_true, if_false, word, Bool.not_true]
    exact congrArg _ (ih fun other member => letters other (List.mem_cons_of_mem _ member))

/-- A word is copied unless a test begins with it. -/
theorem testPieces_letters (letters : ∀ letter ∈ character :: front, isWordCharacter letter = true)
    (noTest : definedTest? (character :: front ++ rest) = none) (edge : rest.head? ≠ some 'd') :
    testPieces (character :: front ++ rest) =
      (character :: front).map .inl ++ testPieces rest := by
  have word := isUnicodeWordCharacter_of_isWordCharacter (letters character List.mem_cons_self)
  rw [List.cons_append] at noTest ⊢
  rw [testPieces_cons noTest, word]
  refine congrArg _ (testPiecesFrom_letters (fun other member => ?_) edge)
  exact letters other (List.mem_cons_of_mem _ member)

/-- Whether a test may begin behind a text. -/
def boundaryBehind (boundary : Bool) (front : Text) : Bool :=
  front.foldl (fun _ character => !isUnicodeWordCharacter character) boundary

/-- What has no `d` in it is copied. -/
theorem testPiecesFrom_marks (noMark : 'd' ∉ front)
    (edge : boundaryBehind boundary front = false → rest.head? ≠ some 'd') :
    testPiecesFrom 0 boundary (front ++ rest) = front.map .inl ++ testPieces rest := by
  induction front generalizing boundary with
  | nil => exact testPiecesFrom_eq edge
  | cons character front ih =>
    have first : (character :: front ++ rest).head? ≠ some 'd' := by
      intro same
      cases same
      exact noMark List.mem_cons_self
    rw [testPiecesFrom_eq fun _ => first]
    rw [List.cons_append] at first ⊢
    rw [testPieces_cons (definedTest?_of_head? first)]
    exact congrArg _ (ih (fun member => noMark (List.mem_cons_of_mem _ member)) edge)

/-- Marks behind which a test may begin are copied in front of anything. -/
theorem testPieces_marks (noMark : 'd' ∉ front) (ends : boundaryBehind true front = true) :
    testPieces (front ++ rest) = front.map .inl ++ testPieces rest :=
  testPiecesFrom_marks noMark fun behind => absurd (ends.symm.trans behind) nofun

theorem isUnicodeWordCharacter_of_isBlank (blank : isBlank character = true) :
    isUnicodeWordCharacter character = false := by
  have blanks : ∀ code ∈ [9, 10, 11, 12, 13, 0x20, 0x85, 0xA0, 0x1680, 0x2000, 0x2001, 0x2002,
      0x2003, 0x2004, 0x2005, 0x2006, 0x2007, 0x2008, 0x2009, 0x200A, 0x2028, 0x2029, 0x202F,
      0x205F, 0x3000],
      (wordRanges.any fun range => range.1 ≤ code && code ≤ range.2) = false := by
    decide +kernel
  refine blanks character.toNat ?_
  simp only [isBlank, Bool.or_eq_true, Bool.and_eq_true, decide_eq_true_eq, beq_iff_eq] at blank
  simp only [List.mem_cons, List.not_mem_nil, or_false]
  omega

theorem testPieces_blank (blank : isBlank character = true) :
    testPieces (character :: rest) = .inl character :: testPieces rest := by
  have noMark : character ≠ 'd' := by
    rintro rfl
    exact absurd blank (by decide)
  have ends : boundaryBehind true [character] = true := by
    simp [boundaryBehind, isUnicodeWordCharacter_of_isBlank blank]
  exact testPieces_marks (by simpa using noMark.symm) ends

end Pieces

/-! ## Lexemes without tests -/

namespace Lexeme

theorem not_mem_of_exponent {text : Text} {exponent : Nat}
    (read : Decimal.exponent? text = some exponent) : 'd' ∉ text := by
  cases text with
  | nil => exact List.not_mem_nil
  | cons mark digits =>
    rw [Decimal.exponent?, Option.ite_none_right_eq_some] at read
    simp only [Bool.and_eq_true, Bool.or_eq_true, beq_iff_eq, List.all_eq_true] at read
    rintro (_ | ⟨_, member⟩)
    · rcases read.1.1.1 with same | same <;> exact absurd same (by decide)
    · exact absurd (read.1.2 'd' member) (by decide)

/-- The text of a fraction has digits, a point, and an exponent behind more digits. -/
theorem not_mem_of_parse {text : Text} {fraction : Float}
    (read : Decimal.parse? text = some fraction) : 'd' ∉ text := by
  have noDigit (digits : Text) : 'd' ∉ digits.takeWhile Char.isDigit := fun member =>
    absurd (List.mem_takeWhile_imp member) (by decide)
  rw [Decimal.parse?] at read
  dsimp only at read
  split at read
  · next rest behind =>
    split at read
    · cases read
    · rcases Option.map_eq_some_iff.1 read with ⟨exponent, found, _⟩
      have whole : text = text.takeWhile Char.isDigit ++ '.' ::
          (rest.takeWhile Char.isDigit ++ rest.dropWhile Char.isDigit) := by
        rw [List.takeWhile_append_dropWhile, ← behind, List.takeWhile_append_dropWhile]
      rw [whole, List.mem_append, List.mem_cons, List.mem_append]
      rintro (digit | point | digit | inExponent)
      · exact noDigit text digit
      · exact absurd point (by decide)
      · exact noDigit rest digit
      · exact not_mem_of_exponent found inExponent
  · cases read

/-- A number that is read and has a point has no `d` in it. -/
theorem not_mem_of_point {text : Text} {value : Value} (point : text.any (· == '.') = true)
    (read : ConditionToken.number? text = some value) : 'd' ∉ text := by
  rw [ConditionToken.number?, if_pos point, Option.map_eq_some_iff] at read
  rcases read with ⟨fraction, parsed, _⟩
  rcases text.exists_dropEndWhile ConditionToken.isFractionSuffix with ⟨suffix, shape, letters⟩
  rw [shape, List.mem_append]
  rintro (inFront | inSuffix)
  · exact not_mem_of_parse parsed inFront
  · exact absurd (letters 'd' inSuffix) (by decide)

/-- A lexeme that has a token is copied unless a test begins with it. -/
theorem testPieces_lexeme {lexeme : Lexeme} {token : ConditionToken} {rest : Text}
    (tokenized : lexeme.token = .ok token) (whole : lexeme.IsWhole) (stops : lexeme.StopsAt rest)
    (noTest : definedTest? (lexeme.text ++ rest) = none) :
    testPieces (lexeme.text ++ rest) = lexeme.text.map .inl ++ testPieces rest := by
  -- behind a number and behind a word no `d` can follow
  have edge (continued : lexeme.continues 'd' = true) : rest.head? ≠ some 'd' := by
    intro same
    rw [StopsAt, same, Option.any_some, continued] at stops
    cases stops
  cases lexeme with
  | number text =>
    rcases whole with ⟨character, more, rfl, starts, all⟩
    by_cases point : (character :: more).any (· == '.') = true
    · cases read : ConditionToken.number? (character :: more) with
      | none =>
        rw [Lexeme.token, read] at tokenized
        cases tokenized
      | some value =>
        exact testPiecesFrom_marks (not_mem_of_point point read) fun _ => edge rfl
    · have letters : ∀ letter ∈ character :: more, isWordCharacter letter = true :=
        fun letter member => by
          rw [isWordCharacter, isAlphanum_of_integral ⟨character, more, rfl, starts, all⟩
            (eq_false_of_ne_true point) member, Bool.true_or]
      exact testPieces_letters letters noTest (edge rfl)
  | word text =>
    cases text with
    | nil => cases whole
    | cons character more =>
      exact testPieces_letters (Text.letters_of_isIdentifier whole).2 noTest (edge rfl)
  | operator sign =>
    have marks : 'd' ∉ sign.symbol ∧ boundaryBehind true sign.symbol = true := by
      cases sign <;> decide +kernel
    exact testPieces_marks marks.1 marks.2
  | opening => exact testPieces_marks (by decide) (by decide +kernel)
  | closing => exact testPieces_marks (by decide) (by decide +kernel)
  | stray character => cases tokenized

end Lexeme

end ScriptPreprocessor
