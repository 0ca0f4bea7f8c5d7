import ScriptPreprocessor.Proofs.Condition.TestPieces

namespace ScriptPreprocessor

/-!
# Tests for definitions as lexemes

A test is meant to be a row of lexemes: the word `defined` and a name, which may stand in
parentheses (`Lexeme.replaceTests`).  The tests of a condition are looked for in its characters
instead.  A test is whole when its name does not go on the word `defined` and when nothing behind it
goes on the digit that it is replaced by.  When all tests are whole, and only then, the condition is
cut into its own lexemes with the tests among them replaced
(`lexemes_replaceDefined_iff`).
-/

open ConditionToken (continuesNumber)

/-- A test stands apart: its name from the word `defined`, and what follows it from a number. -/
def DefinedTest.IsWhole (test : DefinedTest) : Prop :=
  test.behind.head?.any isIdentifierStart = false ∧ test.after.head?.any continuesNumber = false

instance : DecidablePred DefinedTest.IsWhole :=
  fun _ => inferInstanceAs (Decidable (_ ∧ _))

namespace Lexeme

/-- The number that a test is replaced by. -/
def answer (isDefined : Text → Bool) (name : Text) : Lexeme :=
  .number [answerDigit (isDefined name)]

/-- Lexemes with the tests among them replaced by numbers. -/
def replaceTests (isDefined : Text → Bool) : List Lexeme → List Lexeme
  | [] => []
  | .word front :: .word name :: rest =>
    if front = definedWord then answer isDefined name :: replaceTests isDefined rest
    else .word front :: replaceTests isDefined (.word name :: rest)
  | .word front :: .opening :: .word name :: .closing :: rest =>
    if front = definedWord then answer isDefined name :: replaceTests isDefined rest
    else .word front :: replaceTests isDefined (.opening :: .word name :: .closing :: rest)
  | lexeme :: rest => lexeme :: replaceTests isDefined rest

variable {isDefined : Text → Bool} {lexeme : Lexeme} {lexemes : List Lexeme} {name : Text}

theorem replaceTests_of_ne (differs : lexeme ≠ .word definedWord) :
    replaceTests isDefined (lexeme :: lexemes) = lexeme :: replaceTests isDefined lexemes := by
  rw [replaceTests.eq_def]
  split
  · contradiction
  · next front name rest same =>
    cases same
    rw [if_neg fun same => differs (congrArg _ same)]
  · next front name rest same =>
    cases same
    rw [if_neg fun same => differs (congrArg _ same)]
  · next same =>
    cases same
    rfl

theorem replaceTests_word :
    replaceTests isDefined (.word definedWord :: .word name :: lexemes) =
      answer isDefined name :: replaceTests isDefined lexemes := by
  rw [replaceTests, if_pos rfl]

theorem replaceTests_group :
    replaceTests isDefined (.word definedWord :: .opening :: .word name :: .closing :: lexemes) =
      answer isDefined name :: replaceTests isDefined lexemes := by
  rw [replaceTests, if_pos rfl]

/-- The word `defined` stays when no test begins with it. -/
theorem replaceTests_of_no_test (noWord : ∀ name rest, lexemes ≠ .word name :: rest)
    (noGroup : ∀ name rest, lexemes ≠ .opening :: .word name :: .closing :: rest) :
    replaceTests isDefined (lexeme :: lexemes) = lexeme :: replaceTests isDefined lexemes := by
  rw [replaceTests.eq_def]
  split
  · contradiction
  · next same =>
    cases same
    exact absurd rfl (noWord _ _)
  · next same =>
    cases same
    exact absurd rfl (noGroup _ _)
  · next same =>
    cases same
    rfl

end Lexeme

/-! ## Tests in front of a text -/

section Tests

variable {text behind after rest name : Text} {lexeme : Lexeme} {lexemes : List Lexeme}

theorem Text.lexemes_trimStart (text : Text) : text.trimStart.lexemes = text.lexemes := by
  have whole : text.takeWhile isBlank ++ text.trimStart = text :=
    List.takeWhile_append_dropWhile
  have cut := lexemes_blanks
    (fun _ member => List.mem_takeWhile_imp (p := isBlank) (l := text) member) text.trimStart
  rw [← cut, whole]

/-- The first lexeme of a text stands behind its blanks. -/
theorem Text.exists_of_lexemes (shape : text.lexemes = lexeme :: lexemes) :
    ∃ rest, text.trimStart = lexeme.text ++ rest ∧ lexeme.IsWhole ∧ lexeme.StopsAt rest ∧
      rest.lexemes = lexemes := by
  rw [← text.lexemes_trimStart] at shape
  have filled := Text.head?_dropWhile isBlank text
  change text.trimStart.head?.any isBlank = false at filled
  cases trimmed : text.trimStart with
  | nil =>
    rw [trimmed] at shape
    cases shape
  | cons character more =>
    rw [trimmed] at shape filled
    rcases Lexeme.exists_lexeme filled more with ⟨first, rest, same, whole, stops⟩
    rw [same, Text.lexemes_append whole stops] at shape
    cases shape
    exact ⟨rest, same, whole, stops, rfl⟩

theorem isIdentifier_definedWord : definedWord.isIdentifier = true := by decide

theorem isIdentifier_append {letters : Text} (whole : name.isIdentifier = true)
    (all : ∀ letter ∈ letters, isWordCharacter letter = true) :
    Text.isIdentifier (name ++ letters) = true := by
  cases name with
  | nil => cases whole
  | cons character more =>
    simp only [Text.isIdentifier, Bool.and_eq_true, List.all_eq_true] at whole
    simp only [List.cons_append, Text.isIdentifier, Bool.and_eq_true, List.all_eq_true]
    exact ⟨whole.1, List.forall_mem_append.2 ⟨whole.2, all⟩⟩

theorem identifier?_append (whole : (Lexeme.word name).IsWhole)
    (stops : (Lexeme.word name).StopsAt rest) : identifier? (name ++ rest) = some (name, rest) := by
  have split := Text.takeWhile_dropWhile_append (Text.letters_of_isIdentifier whole).2 stops
  have starts : (name ++ rest).head?.any isIdentifierStart = true := by
    cases name with
    | nil => cases whole
    | cons character more =>
      simp only [Lexeme.IsWhole, Text.isIdentifier, Bool.and_eq_true] at whole
      exact whole.1
  rw [identifier?, if_pos starts, Text.leadingWord, Text.afterWord, split.1, split.2]

theorem exists_of_identifier? (found : identifier? text = some (name, after)) :
    text = name ++ after ∧ (Lexeme.word name).IsWhole ∧ (Lexeme.word name).StopsAt after := by
  refine ⟨(seam_of_identifier? found).1, ?_⟩
  rw [identifier?] at found
  split at found
  · next starts =>
    cases found
    refine ⟨?_, Text.head?_dropWhile isWordCharacter text⟩
    cases text with
    | nil => cases starts
    | cons character more =>
      have start : isIdentifierStart character = true := starts
      rw [Lexeme.IsWhole, Text.leadingWord,
        List.takeWhile_cons_of_pos (isWordCharacter_of_isIdentifierStart start), Text.isIdentifier,
        start, Bool.true_and, List.all_eq_true]
      exact fun _ member => List.mem_takeWhile_imp member
  · cases found

theorem definedTest?_append (behind : Text) :
    definedTest? (definedWord ++ behind) =
      (parenthesizedIdentifier? behind.trimStart).orElse fun _ =>
        identifier? behind.trimStart := by
  rw [definedTest?, Text.afterStart?_eq_some_iff.2 rfl]
  rfl

/-- A name is no name in parentheses. -/
theorem parenthesizedIdentifier?_of_word (whole : (Lexeme.word name).IsWhole) (after : Text) :
    parenthesizedIdentifier? (name ++ after) = none := by
  cases name with
  | nil => cases whole
  | cons character more =>
    cases opened : Text.afterStart? (character :: more ++ after) ['('] with
    | none =>
      rw [parenthesizedIdentifier?, opened]
      rfl
    | some inside =>
      cases Text.afterStart?_eq_some_iff.1 opened
      cases whole

/-- A name behind the word `defined` makes a test. -/
theorem exists_definedTest?_of_word (shape : behind.lexemes = .word name :: lexemes) :
    ∃ after, definedTest? (definedWord ++ behind) = some (name, after) ∧
      after.lexemes = lexemes := by
  rcases Text.exists_of_lexemes shape with ⟨after, trimmed, whole, stops, later⟩
  change behind.trimStart = name ++ after at trimmed
  refine ⟨after, ?_, later⟩
  rw [definedTest?_append, trimmed, parenthesizedIdentifier?_of_word whole]
  exact identifier?_append whole stops

/-- A name in parentheses behind the word `defined` makes a test. -/
theorem exists_definedTest?_of_group
    (shape : behind.lexemes = .opening :: .word name :: .closing :: lexemes) :
    ∃ after, definedTest? (definedWord ++ behind) = some (name, after) ∧
      after.lexemes = lexemes := by
  rcases Text.exists_of_lexemes shape with ⟨inside, opened, _, _, insideShape⟩
  rcases Text.exists_of_lexemes insideShape with ⟨rest, named, whole, stops, restShape⟩
  rcases Text.exists_of_lexemes restShape with ⟨after, closed, _, _, later⟩
  change inside.trimStart = name ++ rest at named
  have begins : Text.afterStart? behind.trimStart ['('] = some inside :=
    Text.afterStart?_eq_some_iff.2 opened
  have ends : Text.afterStart? rest.trimStart [')'] = some after :=
    Text.afterStart?_eq_some_iff.2 closed
  have group : parenthesizedIdentifier? behind.trimStart = some (name, after) := by
    rw [parenthesizedIdentifier?, begins]
    simp only [Option.bind_eq_bind, Option.bind_some, named, identifier?_append whole stops, ends]
    rfl
  refine ⟨after, ?_, later⟩
  rw [definedTest?_append, group]
  rfl

theorem lexemes_of_identifier? (found : identifier? text = some (name, after)) :
    text.lexemes = .word name :: after.lexemes := by
  rcases exists_of_identifier? found with ⟨rfl, whole, stops⟩
  exact Text.lexemes_append whole stops

theorem lexemes_of_parenthesizedIdentifier?
    (found : parenthesizedIdentifier? text = some (name, after)) :
    text.lexemes = .opening :: .word name :: .closing :: after.lexemes := by
  unfold parenthesizedIdentifier? at found
  rcases Option.bind_eq_some_iff.1 found with ⟨inside, opened, found⟩
  rcases Option.bind_eq_some_iff.1 found with ⟨⟨identifier, rest⟩, named, found⟩
  rcases Option.bind_eq_some_iff.1 found with ⟨behind, closed, same⟩
  cases same
  have opening : Text.lexemes ('(' :: inside) = .opening :: inside.lexemes := rfl
  have closing : Text.lexemes (')' :: after) = .closing :: after.lexemes := rfl
  have opens : text = '(' :: inside := Text.afterStart?_eq_some_iff.1 opened
  have closes : rest.trimStart = ')' :: after := Text.afterStart?_eq_some_iff.1 closed
  rw [opens, opening, ← inside.lexemes_trimStart, lexemes_of_identifier? named,
    ← rest.lexemes_trimStart, closes, closing]

/-- A test is the word `defined` and a name, or a name in parentheses. -/
theorem lexemes_of_definedTest? (found : definedTest? text = some (name, after)) :
    ∃ behind, text = definedWord ++ behind ∧
      (behind.lexemes = .word name :: after.lexemes ∨
        behind.lexemes = .opening :: .word name :: .closing :: after.lexemes) := by
  cases begins : text.afterStart? definedWord with
  | none =>
    rw [definedTest?, begins] at found
    cases found
  | some behind =>
    refine ⟨behind, Text.afterStart?_eq_some_iff.1 begins, ?_⟩
    rw [Text.afterStart?_eq_some_iff.1 begins, definedTest?_append] at found
    rw [← behind.lexemes_trimStart]
    cases group : parenthesizedIdentifier? behind.trimStart with
    | some named =>
      rw [group] at found
      cases found
      exact .inr (lexemes_of_parenthesizedIdentifier? group)
    | none =>
      rw [group] at found
      exact .inl (lexemes_of_identifier? found)

/-- Directly behind the word `defined` no digit stands in front of a name. -/
theorem isIdentifierStart_of_definedTest?
    (found : definedTest? (definedWord ++ behind) = some (name, after))
    (letter : behind.head?.any isWordCharacter = true) :
    behind.head?.any isIdentifierStart = true := by
  cases behind with
  | nil => cases letter
  | cons character more =>
    have letter : isWordCharacter character = true := letter
    have trimmed : Text.trimStart (character :: more) = character :: more :=
      Text.trimStart_eq_self (isBlank_of_isWordCharacter letter)
    rw [definedTest?_append, trimmed] at found
    cases group : parenthesizedIdentifier? (character :: more) with
    | some named =>
      unfold parenthesizedIdentifier? at group
      rcases Option.bind_eq_some_iff.1 group with ⟨inside, opened, _⟩
      cases Text.afterStart?_eq_some_iff.1 opened
      cases letter
    | none =>
      rw [group] at found
      have named : identifier? (character :: more) = some (name, after) := found
      rw [identifier?] at named
      split at named
      · next starts => exact starts
      · cases named

end Tests

/-! ## Replacing -/

section Replacing

variable {isDefined : Text → Bool} {text rest : Text}

/-- The text in front of which a replacement begins is its own, or it is a digit for a test. -/
theorem head?_replaceDefined (isDefined : Text → Bool) (text : Text) :
    (replaceDefined isDefined text).head? = text.head? ∨
      text.head? = some 'd' ∧ ∃ answer, (replaceDefined isDefined text).head? =
        some (answerDigit answer) := by
  rw [replaceDefined_eq]
  cases text with
  | nil => exact .inl rfl
  | cons character rest =>
    cases found : definedTest? (character :: rest) with
    | none =>
      rw [testPieces_cons found]
      exact .inl rfl
    | some test =>
      rcases lexemes_of_definedTest? found with ⟨behind, shape, _⟩
      cases shape
      rw [testPieces_test found]
      exact .inr ⟨rfl, _, rfl⟩

theorem continuesNumber_replaceDefined (isDefined : Text → Bool) (text : Text) :
    (replaceDefined isDefined text).head?.any continuesNumber =
      text.head?.any continuesNumber := by
  rcases head?_replaceDefined isDefined text with same | ⟨mark, answer, digit⟩
  · rw [same]
  · rw [mark, digit]
    cases answer <;> rfl

/-- A lexeme that ends in front of a text still ends there when tests are replaced in the text. -/
theorem stopsAt_replaceDefined {lexeme : Lexeme} {token : ConditionToken}
    (tokenized : lexeme.token = .ok token) (stops : lexeme.StopsAt rest) :
    lexeme.StopsAt (replaceDefined isDefined rest) := by
  rcases head?_replaceDefined isDefined rest with same | ⟨mark, answer, digit⟩
  · rwa [Lexeme.StopsAt, same]
  · rw [Lexeme.StopsAt, mark] at stops
    rw [Lexeme.StopsAt, digit]
    cases lexeme with
    | number text => cases stops
    | word text => cases stops
    | operator sign =>
      cases sign <;> cases answer <;> rfl
    | opening => rfl
    | closing => rfl
    | stray character => cases tokenized

/-- What is replaced in front of a text that no test begins with. -/
theorem replaceDefined_lexeme (isDefined : Text → Bool) {lexeme : Lexeme} {token : ConditionToken}
    (tokenized : lexeme.token = .ok token) (whole : lexeme.IsWhole) (stops : lexeme.StopsAt rest)
    (noTest : definedTest? (lexeme.text ++ rest) = none) :
    (replaceDefined isDefined (lexeme.text ++ rest)).lexemes =
        lexeme :: (replaceDefined isDefined rest).lexemes ∧
      (lexeme.text ++ rest).definedTests = rest.definedTests := by
  have pieces := Lexeme.testPieces_lexeme tokenized whole stops noTest
  constructor
  · have copied : replaceDefined isDefined (lexeme.text ++ rest) =
        lexeme.text ++ replaceDefined isDefined rest := by
      rw [replaceDefined_eq, pieces, List.map_append, List.map_map, ← replaceDefined_eq]
      exact congrArg (· ++ _) (List.map_id _)
    rw [copied, Text.lexemes_append whole (stopsAt_replaceDefined tokenized stops)]
  · rw [Text.definedTests, pieces, List.filterMap_append, List.filterMap_map]
    simp [Text.definedTests, Function.comp_def]

theorem replaceDefined_blank (isDefined : Text → Bool) {character : Char}
    (blank : isBlank character = true) (rest : Text) :
    replaceDefined isDefined (character :: rest) = character :: replaceDefined isDefined rest ∧
      Text.definedTests (character :: rest) = rest.definedTests := by
  constructor
  · rw [replaceDefined_eq, testPieces_blank blank, List.map_cons, ← replaceDefined_eq]
    rfl
  · rw [Text.definedTests, testPieces_blank blank]
    rfl

theorem replaceDefined_test (isDefined : Text → Bool) {name after : Text}
    (found : definedTest? text = some (name, after)) :
    replaceDefined isDefined text =
        answerDigit (isDefined name) :: replaceDefined isDefined after ∧
      text.definedTests =
        ⟨name, text.drop definedWord.length, after⟩ :: after.definedTests := by
  constructor
  · rw [replaceDefined_eq, testPieces_test found, List.map_cons, ← replaceDefined_eq]
    rfl
  · rw [Text.definedTests, testPieces_test found]
    rfl

/-- The digit for a test begins a number. -/
theorem lexemes_cons_answerDigit (answer : Bool) (rest : Text) :
    Text.lexemes (answerDigit answer :: rest) =
      .number (answerDigit answer :: rest.takeWhile continuesNumber) ::
        Text.lexemes (rest.dropWhile continuesNumber) := by
  have digit : (answerDigit answer).isDigit = true := by cases answer <;> rfl
  have starts : ConditionToken.startsNumber (answerDigit answer)
      (rest.takeWhile continuesNumber) = true := by
    simp [ConditionToken.startsNumber, digit]
  have whole : (Lexeme.number (answerDigit answer :: rest.takeWhile continuesNumber)).IsWhole :=
    ⟨_, _, rfl, starts, fun _ member => List.mem_takeWhile_imp member⟩
  rw [← Text.lexemes_append whole (Text.head?_dropWhile continuesNumber rest), Lexeme.text,
    List.cons_append, List.takeWhile_append_dropWhile]

/-- The digit for a test is a lexeme of its own exactly when nothing behind it goes on with it. -/
theorem lexemes_answerDigit (answer : Bool) (rest : Text) (lexemes : List Lexeme) :
    Text.lexemes (answerDigit answer :: rest) = .number [answerDigit answer] :: lexemes ↔
      rest.head?.any continuesNumber = false ∧ rest.lexemes = lexemes := by
  rw [lexemes_cons_answerDigit]
  cases rest with
  | nil => simp [Text.lexemes, Lexeme.listFrom]
  | cons character rest =>
    cases continued : continuesNumber character with
    | true => simp [continued]
    | false => simp [continued]

/-- A test that begins with the word `defined` alone is a row of lexemes. -/
theorem replaceTests_definedTest? (isDefined : Text → Bool) {behind name after : Text}
    (found : definedTest? (definedWord ++ behind) = some (name, after))
    (apart : behind.head?.any isIdentifierStart = false) :
    Lexeme.replaceTests isDefined (definedWord ++ behind).lexemes =
        Lexeme.answer isDefined name :: Lexeme.replaceTests isDefined after.lexemes ∧
      after.lexemes ⊆ (definedWord ++ behind).lexemes := by
  have stops : (Lexeme.word definedWord).StopsAt behind := by
    by_contra letter
    rw [isIdentifierStart_of_definedTest? found (eq_true_of_ne_false letter)] at apart
    cases apart
  have whole : (Lexeme.word definedWord).IsWhole := isIdentifier_definedWord
  have lexemes : (definedWord ++ behind).lexemes = .word definedWord :: behind.lexemes :=
    Text.lexemes_append whole stops
  rcases lexemes_of_definedTest? found with ⟨other, same, shape⟩
  cases List.append_cancel_left same
  rw [lexemes]
  rcases shape with shape | shape
  · rw [shape]
    exact ⟨Lexeme.replaceTests_word, fun _ member => .tail _ (.tail _ member)⟩
  · rw [shape]
    exact ⟨Lexeme.replaceTests_group, fun _ member => .tail _ (.tail _ (.tail _ (.tail _ member)))⟩

/-- A word that only begins with `defined` stays a word. -/
theorem replaceTests_glued (isDefined : Text → Bool) {behind : Text}
    (glued : behind.head?.any isIdentifierStart = true) :
    ∃ word lexemes,
      Lexeme.replaceTests isDefined (definedWord ++ behind).lexemes = .word word :: lexemes := by
  cases behind with
  | nil => cases glued
  | cons character more =>
    have start : isWordCharacter character = true := isWordCharacter_of_isIdentifierStart glued
    have letters : ∀ letter ∈ (character :: more).takeWhile isWordCharacter,
        isWordCharacter letter = true := fun _ member => List.mem_takeWhile_imp member
    have whole : (Lexeme.word
        (definedWord ++ (character :: more).takeWhile isWordCharacter)).IsWhole :=
      isIdentifier_append isIdentifier_definedWord letters
    have cut := Text.lexemes_append whole
      (Text.head?_dropWhile isWordCharacter (character :: more))
    rw [Lexeme.text, List.append_assoc, List.takeWhile_append_dropWhile] at cut
    rw [cut, Lexeme.replaceTests_of_ne]
    · exact ⟨_, _, rfl⟩
    · intro same
      have empty := List.append_right_eq_self.1 (Lexeme.word.inj same)
      rw [List.takeWhile_cons_of_pos start] at empty
      cases empty

/-- The word `defined` without a test behind it, and every other lexeme, stays. -/
theorem replaceTests_lexeme {lexeme : Lexeme} (noTest : definedTest? (lexeme.text ++ rest) = none) :
    Lexeme.replaceTests isDefined (lexeme :: rest.lexemes) =
      lexeme :: Lexeme.replaceTests isDefined rest.lexemes := by
  by_cases same : lexeme = .word definedWord
  · subst same
    apply Lexeme.replaceTests_of_no_test
    · intro name lexemes shape
      rcases exists_definedTest?_of_word shape with ⟨after, found, _⟩
      exact absurd (noTest.symm.trans found) nofun
    · intro name lexemes shape
      rcases exists_definedTest?_of_group shape with ⟨after, found, _⟩
      exact absurd (noTest.symm.trans found) nofun
  · exact Lexeme.replaceTests_of_ne same

/-- A test in front of a text is replaced as a row of lexemes exactly when it is whole and what
follows it is replaced so. -/
theorem lexemes_replaceDefined_test (isDefined : Text → Bool) {behind name after : Text}
    (found : definedTest? (definedWord ++ behind) = some (name, after)) :
    (replaceDefined isDefined (definedWord ++ behind)).lexemes =
        Lexeme.replaceTests isDefined (definedWord ++ behind).lexemes ↔
      DefinedTest.IsWhole ⟨name, behind, after⟩ ∧
        (replaceDefined isDefined after).lexemes =
          Lexeme.replaceTests isDefined after.lexemes := by
  rw [(replaceDefined_test isDefined found).1]
  by_cases glued : behind.head?.any isIdentifierStart = true
  · rcases replaceTests_glued isDefined glued with ⟨word, lexemes, kept⟩
    rw [kept, lexemes_cons_answerDigit]
    refine ⟨fun same => ?_, fun whole => ?_⟩
    · cases same
    · exact absurd whole.1.1 (by simp [glued])
  · have apart := eq_false_of_ne_true glued
    rw [(replaceTests_definedTest? isDefined found apart).1, Lexeme.answer, lexemes_answerDigit,
      continuesNumber_replaceDefined, DefinedTest.IsWhole]
    exact and_congr_left fun _ => (and_iff_right apart).symm

/-- The induction follows the text: over a blank, over a lexeme that is copied, or over a test. -/
theorem lexemes_replaceDefined_iff_of_sound (isDefined : Text → Bool) {text : Text}
    (sound : ∀ lexeme ∈ text.lexemes, ∃ token, lexeme.token = .ok token) :
    (replaceDefined isDefined text).lexemes = Lexeme.replaceTests isDefined text.lexemes ↔
      ∀ test ∈ text.definedTests, test.IsWhole := by
  induction length : text.length using Nat.strongRecOn generalizing text with
  | ind length ih =>
    subst length
    cases found : definedTest? text with
    | some test =>
      rcases test with ⟨name, after⟩
      rcases lexemes_of_definedTest? found with ⟨behind, rfl, _⟩
      have shorter : after.length < (definedWord ++ behind).length := by
        rcases exists_of_definedTest? found with ⟨test, filled, shape, _⟩
        have positive := List.length_pos_iff.2 filled
        rw [shape, List.length_append]
        omega
      rw [lexemes_replaceDefined_test isDefined found, (replaceDefined_test isDefined found).2,
        List.drop_left, List.forall_mem_cons]
      refine and_congr_right fun whole => ih after.length shorter (fun _ member => ?_) rfl
      exact sound _ ((replaceTests_definedTest? isDefined found whole.1).2 member)
    | none =>
      cases text with
      | nil => exact ⟨fun _ _ member => absurd member List.not_mem_nil, fun _ => rfl⟩
      | cons character rest =>
        by_cases blank : isBlank character = true
        · rcases replaceDefined_blank isDefined blank rest with ⟨replaced, tests⟩
          rw [Text.lexemes_blank blank] at sound
          rw [replaced, tests, Text.lexemes_blank blank, Text.lexemes_blank blank]
          exact ih rest.length (by simp) sound rfl
        · rcases Lexeme.exists_lexeme (eq_false_of_ne_true blank) rest with
            ⟨lexeme, after, shape, whole, stops⟩
          rw [shape] at found sound ⊢
          rw [Text.lexemes_append whole stops] at sound ⊢
          rcases List.forall_mem_cons.1 sound with ⟨⟨token, tokenized⟩, soundAfter⟩
          rcases replaceDefined_lexeme isDefined tokenized whole stops found with
            ⟨replaced, tests⟩
          have shorter : after.length < (character :: rest).length := by
            rw [shape]
            exact Lexeme.length_lt_append whole stops
          rw [replaced, tests, replaceTests_lexeme found, List.cons_inj_right]
          exact ih after.length shorter soundAfter rfl

end Replacing

/-- The lexemes of a condition that has tokens are kept, and its tests are replaced by one number
each, exactly when every test in its characters is whole. -/
theorem lexemes_replaceDefined_iff (isDefined : Text → Bool) {text : Text}
    {tokens : List ConditionToken} (tokenized : ConditionToken.tokenize text = .ok tokens) :
    (replaceDefined isDefined text).lexemes = Lexeme.replaceTests isDefined text.lexemes ↔
      ∀ test ∈ text.definedTests, test.IsWhole := by
  rw [ConditionToken.tokenize_eq] at tokenized
  exact lexemes_replaceDefined_iff_of_sound isDefined (Lexeme.exists_token_of_mapM tokenized)

/-- Two whole tests, one with a name in parentheses, and a word that only begins alike. -/
theorem lexemes_replaceDefined_whole :
    (∃ tokens, ConditionToken.tokenize "defined X && !defined ( Y ) || defined1".toList =
      .ok tokens) ∧
    (∀ test ∈ Text.definedTests "defined X && !defined ( Y ) || defined1".toList, test.IsWhole) ∧
    (replaceDefined (· == "X".toList) "defined X && !defined ( Y ) || defined1".toList).lexemes =
      [.number "1".toList, .operator .logicalAnd, .operator .logicalNot, .number "0".toList,
        .operator .logicalOr, .word "defined1".toList] := by
  have tokenized : ∃ tokens, ConditionToken.tokenize
      "defined X && !defined ( Y ) || defined1".toList = .ok tokens := by
    have cut : Text.lexemes "defined X && !defined ( Y ) || defined1".toList =
        [.word definedWord, .word "X".toList, .operator .logicalAnd, .operator .logicalNot,
          .word definedWord, .opening, .word "Y".toList, .closing, .operator .logicalOr,
          .word "defined1".toList] := by decide
    rw [ConditionToken.tokenize_eq, cut]
    exact ⟨_, rfl⟩
  have whole : ∀ test ∈ Text.definedTests "defined X && !defined ( Y ) || defined1".toList,
      test.IsWhole := by decide +kernel
  refine ⟨tokenized, whole, ?_⟩
  rcases tokenized with ⟨tokens, tokenized⟩
  rw [(lexemes_replaceDefined_iff _ tokenized).2 whole]
  decide

/-- Words that go on behind `defined`, and digits behind a test, are taken for one lexeme. -/
theorem lexemes_replaceDefined_glued :
    Text.lexemes "definedX".toList = [.word "definedX".toList] ∧
      (replaceDefined (· == "X".toList) "definedX".toList).lexemes = [.number "1".toList] ∧
    Lexeme.replaceTests (· == "X".toList) (Text.lexemes "defined(X)1".toList) =
        [.number "1".toList, .number "1".toList] ∧
      (replaceDefined (· == "X".toList) "defined(X)1".toList).lexemes =
        [.number "11".toList] := by
  decide

end ScriptPreprocessor
