import ScriptPreprocessor.Condition.Token
import ScriptPreprocessor.Proofs.Text.Search
import ScriptPreprocessor.Proofs.Text.Spelling

namespace ScriptPreprocessor

/-!
# Lexemes of conditions

A condition is cut into lexemes from left to right, each as long as possible; blanks belong to none.
What a lexeme means is looked at afterwards: its token, or what is wrong with it
(`ConditionToken.tokenize_eq`).

Conversely a text that is written from lexemes with blanks in between is cut into them again, when
no lexeme goes on with the character behind it (`Lexeme.lexemes_of_spaced`).
-/

open ConditionToken (startsNumber continuesNumber operator?)

/-- A piece of a condition as it is written. -/
inductive Lexeme where
  | number (text : Text)
  | word (text : Text)
  | operator (sign : Operator)
  | opening
  | closing
  /-- A character that begins nothing else. -/
  | stray (character : Char)
  deriving DecidableEq, Repr

namespace Lexeme

/-- How a lexeme is written. -/
def text : Lexeme → Text
  | .number text => text
  | .word text => text
  | .operator sign => sign.symbol
  | .opening => ['(']
  | .closing => [')']
  | .stray character => [character]

/-- The token that a lexeme stands for. -/
def token : Lexeme → Except ConditionFault ConditionToken
  | .number text =>
    match ConditionToken.number? text with
    | some value => .ok (.number value)
    | none => .error (.invalidNumber text)
  | .word text => .ok (ConditionToken.ofWord text)
  | .operator sign => .ok (.operator sign)
  | .opening => .ok .opening
  | .closing => .ok .closing
  | .stray character => .error (.unexpectedCharacter character)

/-- The lexeme that begins with a character in front of a text, and how many characters of the text
belong to it.  A blank begins none. -/
def first (character : Char) (rest : Text) : Option Lexeme × Nat :=
  if isBlank character then (none, 0)
  else if character == '(' then (some .opening, 0)
  else if character == ')' then (some .closing, 0)
  else if startsNumber character rest then
    (some (.number (character :: rest.takeWhile continuesNumber)),
      (rest.takeWhile continuesNumber).length)
  else if isIdentifierStart character then
    (some (.word (character :: rest.takeWhile isWordCharacter)),
      (rest.takeWhile isWordCharacter).length)
  else
    match operator? (character :: rest) with
    | some sign => (some (.operator sign), sign.symbol.length - 1)
    | none => (some (.stray character), 0)

/-- The lexemes of a text, where `skip` characters still belong to the lexeme read last. -/
def listFrom : Nat → Text → List Lexeme
  | _, [] => []
  | skip + 1, _ :: rest => listFrom skip rest
  | 0, character :: rest =>
    (first character rest).1.toList ++ listFrom (first character rest).2 rest

end Lexeme

/-- The lexemes of a text. -/
def Text.lexemes (text : Text) : List Lexeme :=
  Lexeme.listFrom 0 text

/-! ## Tokens -/

namespace ConditionToken

/-- A token is read by cutting a lexeme and asking for its meaning. -/
theorem first_eq (character : Char) (rest : Text) :
    first character rest =
      match Lexeme.first character rest with
      | (none, length) => .ok (none, length)
      | (some lexeme, length) => lexeme.token.map fun token => (some token, length) := by
  unfold first Lexeme.first
  simp only
  split
  · rfl
  · split
    · rfl
    · split
      · rfl
      · split
        · simp only [Lexeme.token]
          cases number? (character :: rest.takeWhile continuesNumber) <;> rfl
        · split
          · rfl
          · cases operator? (character :: rest) <;> rfl

theorem tokenizeFrom_eq (skip : Nat) (text : Text) :
    tokenizeFrom skip text = (Lexeme.listFrom skip text).mapM Lexeme.token := by
  induction text generalizing skip with
  | nil =>
    unfold tokenizeFrom
    rfl
  | cons character rest ih =>
    unfold tokenizeFrom
    cases skip with
    | succ skip => exact ih skip
    | zero =>
      simp only [first_eq]
      unfold Lexeme.listFrom
      rcases Lexeme.first character rest with ⟨_ | lexeme, length⟩
      · simp only [ih, Option.toList_none, List.nil_append]
        cases (Lexeme.listFrom length rest).mapM Lexeme.token <;> rfl
      · simp only [ih, Option.toList_some, List.singleton_append, List.mapM_cons]
        cases lexeme.token with
        | error fault => rfl
        | ok token =>
          simp only [Except.map]
          cases (Lexeme.listFrom length rest).mapM Lexeme.token <;> rfl

/-- The tokens of a condition are the tokens of its lexemes, and the first lexeme without one is
its fault. -/
theorem tokenize_eq (text : Text) : tokenize text = text.lexemes.mapM Lexeme.token :=
  tokenizeFrom_eq 0 text

end ConditionToken

/-- The tokens of a row of lexemes are the token of the first one and those of the others. -/
theorem Lexeme.exists_of_mapM_cons {lexeme : Lexeme} {lexemes : List Lexeme}
    {tokens : List ConditionToken}
    (tokenized : (lexeme :: lexemes).mapM Lexeme.token = .ok tokens) :
    ∃ token more, lexeme.token = .ok token ∧ lexemes.mapM Lexeme.token = .ok more ∧
      tokens = token :: more := by
  rw [List.mapM_cons] at tokenized
  cases first : lexeme.token with
  | error fault =>
    rw [first] at tokenized
    cases tokenized
  | ok token =>
    rw [first] at tokenized
    cases later : lexemes.mapM Lexeme.token with
    | error fault =>
      rw [later] at tokenized
      cases tokenized
    | ok more =>
      rw [later] at tokenized
      cases tokenized
      exact ⟨token, more, rfl, rfl, rfl⟩

theorem Lexeme.exists_token_of_mapM {lexemes : List Lexeme} {tokens : List ConditionToken}
    (tokenized : lexemes.mapM Lexeme.token = .ok tokens) :
    ∀ lexeme ∈ lexemes, ∃ token, lexeme.token = .ok token := by
  induction lexemes generalizing tokens with
  | nil => exact List.forall_mem_nil _
  | cons lexeme lexemes ih =>
    rcases exists_of_mapM_cons tokenized with ⟨token, more, first, later, rfl⟩
    exact List.forall_mem_cons.2 ⟨⟨token, first⟩, ih later⟩

/-! ## Cutting -/

namespace Lexeme

/-- Whether a character directly behind a lexeme would belong to it. -/
def continues : Lexeme → Char → Bool
  | .number _, character => continuesNumber character
  | .word _, character => isWordCharacter character
  | .opening, _ => false
  | .closing, _ => false
  | .operator sign, character =>
    Operator.all.any fun longer => longer.symbol == sign.symbol ++ [character]
  | .stray front, character =>
    (front == '.' && character.isDigit) ||
      Operator.all.any fun longer => longer.symbol == [front, character]

/-- A lexeme ends in front of a text. -/
def StopsAt (lexeme : Lexeme) (rest : Text) : Prop :=
  rest.head?.any lexeme.continues = false

/-- What is written as a lexeme is one. -/
def IsWhole : Lexeme → Prop
  | .number text =>
    ∃ character more, text = character :: more ∧ startsNumber character more = true ∧
      ∀ digit ∈ more, continuesNumber digit = true
  | .word text => text.isIdentifier = true
  | .operator _ | .opening | .closing => True
  | .stray character =>
    isBlank character = false ∧ character ≠ '(' ∧ character ≠ ')' ∧ character.isDigit = false ∧
      isIdentifierStart character = false ∧
      ∀ sign ∈ Operator.all, sign.symbol ≠ [character]

/-- A text is cut into lexemes, each as long as possible. -/
inductive Cuts : Text → List Lexeme → Prop
  | nil : Cuts [] []
  | blank {character : Char} {rest : Text} {lexemes : List Lexeme}
      (isBlank : isBlank character = true) (later : Cuts rest lexemes) :
      Cuts (character :: rest) lexemes
  | lexeme {lexeme : Lexeme} {rest : Text} {lexemes : List Lexeme} (whole : lexeme.IsWhole)
      (stops : lexeme.StopsAt rest) (later : Cuts rest lexemes) :
      Cuts (lexeme.text ++ rest) (lexeme :: lexemes)

theorem stopsAt_nil (lexeme : Lexeme) : lexeme.StopsAt [] := rfl

theorem stopsAt_cons {lexeme : Lexeme} {character : Char} {rest : Text} :
    lexeme.StopsAt (character :: rest) ↔ lexeme.continues character = false := Iff.rfl

/-! ### Operators -/

theorem length_symbol (sign : Operator) :
    1 ≤ sign.symbol.length ∧ sign.symbol.length ≤ 2 := by
  cases sign <;> decide

/-- The first character of an operator begins nothing else. -/
theorem exists_symbol (sign : Operator) :
    ∃ character more, sign.symbol = character :: more ∧ isBlank character = false ∧
      character ≠ '(' ∧ character ≠ ')' ∧ character.isDigit = false ∧ character ≠ '.' ∧
      isIdentifierStart character = false := by
  cases sign <;> exact ⟨_, _, rfl, by decide⟩

/-- The operator in front of a text is the longest one. -/
theorem operator?_append {sign : Operator} {rest : Text}
    (stops : (Lexeme.operator sign).StopsAt rest) :
    operator? (sign.symbol ++ rest) = some sign := by
  cases rest with
  | nil => cases sign <;> rfl
  | cons character rest =>
    cases sign <;>
      simp_all [StopsAt, continues, operator?, Operator.all, Operator.symbol, Text.startsWith]

/-- No operator goes on behind one that is longer than another. -/
theorem stopsAt_of_longer {sign longer : Operator} {character : Char}
    (longerSymbol : longer.symbol = sign.symbol ++ [character]) (rest : Text) :
    (Lexeme.operator longer).StopsAt rest := by
  cases rest with
  | nil => rfl
  | cons next rest =>
    rw [stopsAt_cons, continues, List.any_eq_false]
    intro other _ same
    have lengths := congrArg List.length (beq_iff_eq.1 same)
    rw [longerSymbol] at lengths
    simp only [List.length_append, List.length_singleton] at lengths
    have least := (length_symbol sign).1
    have greatest := (length_symbol other).2
    omega

theorem exists_operator {text : Text} {sign : Operator} (found : operator? text = some sign) :
    ∃ after, text = sign.symbol ++ after ∧ (Lexeme.operator sign).StopsAt after := by
  have begins := List.find?_some (p := fun sign : Operator => text.startsWith sign.symbol) found
  rcases List.isPrefixOf_iff_prefix.1 begins with ⟨after, rfl⟩
  refine ⟨after, rfl, ?_⟩
  cases after with
  | nil => rfl
  | cons character after =>
    rw [stopsAt_cons, ← Bool.not_eq_true]
    intro goesOn
    rcases List.any_eq_true.1 goesOn with ⟨longer, _, same⟩
    have longerSymbol := beq_iff_eq.1 same
    have longest := operator?_append (stopsAt_of_longer longerSymbol after)
    rw [longerSymbol, List.append_assoc, List.singleton_append, found] at longest
    cases longest
    exact absurd longerSymbol (by simp)

theorem operator?_of_stray {character : Char} {rest : Text}
    (alone : ∀ sign ∈ Operator.all, sign.symbol ≠ [character])
    (stops : (Lexeme.stray character).StopsAt rest) : operator? (character :: rest) = none := by
  refine List.find?_eq_none.2 fun sign member begins => ?_
  rcases List.isPrefixOf_iff_prefix.1 begins with ⟨after, shape⟩
  rcases exists_symbol sign with ⟨front, more, symbol, _⟩
  have short := (length_symbol sign).2
  rw [symbol, List.cons_append, List.cons.injEq] at shape
  rw [symbol] at short
  rcases shape with ⟨rfl, rfl⟩
  match more, short with
  | [], _ => exact alone sign member symbol
  | [next], _ =>
    rw [List.singleton_append, stopsAt_cons, continues, Bool.or_eq_false_iff,
      List.any_eq_false] at stops
    exact stops.2 sign member (beq_iff_eq.2 symbol)

/-! ### The first lexeme -/

theorem first_of_number {character : Char} {rest : Text}
    (starts : startsNumber character rest = true) :
    first character rest =
      (some (.number (character :: rest.takeWhile continuesNumber)),
        (rest.takeWhile continuesNumber).length) := by
  have plain : isBlank character = false ∧ character ≠ '(' ∧ character ≠ ')' := by
    simp only [startsNumber, Bool.or_eq_true, Bool.and_eq_true, beq_iff_eq] at starts
    rcases starts with digit | ⟨rfl, _⟩
    · have letter : isWordCharacter character = true := by
        simp [isWordCharacter, Char.isAlphanum, digit]
      refine ⟨isBlank_of_isWordCharacter letter, ?_, ?_⟩
      · rintro rfl
        exact absurd digit (by decide)
      · rintro rfl
        exact absurd digit (by decide)
    · decide
  simp [first, plain, starts]

theorem first_of_word {character : Char} (start : isIdentifierStart character = true)
    (rest : Text) :
    first character rest =
      (some (.word (character :: rest.takeWhile isWordCharacter)),
        (rest.takeWhile isWordCharacter).length) := by
  have differs (other : Char) (noStart : isIdentifierStart other = false) :
      character ≠ other := by
    rintro rfl
    rw [start] at noStart
    cases noStart
  have noDigit : character.isDigit = false := by
    by_contra digit
    have noStart := isIdentifierStart_of_isDigit (eq_true_of_ne_false digit)
    rw [start] at noStart
    cases noStart
  have point : character ≠ '.' := differs '.' (by decide)
  have noNumber : startsNumber character rest = false := by
    simp [startsNumber, noDigit, point]
  have opens : character ≠ '(' := differs '(' (by decide)
  have closes : character ≠ ')' := differs ')' (by decide)
  have filled := isBlank_of_isWordCharacter (isWordCharacter_of_isIdentifierStart start)
  simp [first, filled, opens, closes, noNumber, start]

/-- A lexeme is cut in front of a text that it does not go on with. -/
theorem exists_first {lexeme : Lexeme} {rest : Text} (whole : lexeme.IsWhole)
    (stops : lexeme.StopsAt rest) :
    ∃ character more, lexeme.text = character :: more ∧
      first character (more ++ rest) = (some lexeme, more.length) := by
  cases lexeme with
  | number text =>
    rcases whole with ⟨character, more, rfl, starts, all⟩
    refine ⟨character, more, rfl, ?_⟩
    have startsHere : startsNumber character (more ++ rest) = true := by
      cases more with
      | nil =>
        simp only [startsNumber, List.head?_nil, Option.any_none, Bool.and_false,
          Bool.or_false] at starts
        simp [startsNumber, starts]
      | cons next more => exact starts
    rw [first_of_number startsHere, (Text.takeWhile_dropWhile_append all stops).1]
  | word text =>
    cases text with
    | nil => cases whole
    | cons character more =>
      simp only [IsWhole, Text.isIdentifier, Bool.and_eq_true, List.all_eq_true] at whole
      refine ⟨character, more, rfl, ?_⟩
      rw [first_of_word whole.1, (Text.takeWhile_dropWhile_append whole.2 stops).1]
  | operator sign =>
    rcases exists_symbol sign with
      ⟨character, more, symbol, blank, opens, closes, digit, point, start⟩
    have found := operator?_append stops
    rw [symbol, List.cons_append] at found
    refine ⟨character, more, symbol, ?_⟩
    simp [first, blank, opens, closes, startsNumber, digit, point, start, found, symbol]
  | opening => exact ⟨'(', [], rfl, rfl⟩
  | closing => exact ⟨')', [], rfl, rfl⟩
  | stray character =>
    rcases whole with ⟨blank, opens, closes, digit, start, alone⟩
    have noNumber : startsNumber character rest = false := by
      cases rest with
      | nil => simp [startsNumber, digit]
      | cons next rest =>
        rw [stopsAt_cons, continues, Bool.or_eq_false_iff] at stops
        simpa [startsNumber, digit] using stops.1
    refine ⟨character, [], rfl, ?_⟩
    simp [first, blank, opens, closes, noNumber, start, operator?_of_stray alone stops]

theorem length_lt_append {lexeme : Lexeme} {rest : Text} (whole : lexeme.IsWhole)
    (stops : lexeme.StopsAt rest) : rest.length < (lexeme.text ++ rest).length := by
  rcases exists_first whole stops with ⟨character, more, filled, _⟩
  rw [filled, List.length_append, List.length_cons]
  omega

/-- A text that does not begin with a blank begins with a lexeme. -/
theorem exists_lexeme {character : Char} (filled : isBlank character = false) (rest : Text) :
    ∃ lexeme after, character :: rest = text lexeme ++ after ∧ lexeme.IsWhole ∧
      lexeme.StopsAt after := by
  by_cases opens : character = '('
  · exact ⟨.opening, rest, by rw [opens]; rfl, trivial, by cases rest <;> rfl⟩
  by_cases closes : character = ')'
  · exact ⟨.closing, rest, by rw [closes]; rfl, trivial, by cases rest <;> rfl⟩
  by_cases starts : startsNumber character rest = true
  · have startsNumber : startsNumber character (rest.takeWhile continuesNumber) = true := by
      cases rest with
      | nil => exact starts
      | cons next rest =>
        cases digit : next.isDigit with
        | true => simpa [startsNumber, continuesNumber, Char.isAlphanum, digit] using starts
        | false =>
          simp only [startsNumber, List.head?_cons, Option.any_some, digit, Bool.and_false,
            Bool.or_false] at starts
          simp [startsNumber, starts]
    exact ⟨.number (character :: rest.takeWhile continuesNumber), rest.dropWhile continuesNumber,
      by simp [text],
      ⟨character, _, rfl, startsNumber, fun _ member => List.mem_takeWhile_imp member⟩,
      Text.head?_dropWhile _ _⟩
  by_cases start : isIdentifierStart character = true
  · have identifier : Text.isIdentifier (character :: rest.takeWhile isWordCharacter) = true := by
      simp only [Text.isIdentifier, start, Bool.true_and, List.all_eq_true]
      exact fun _ member => List.mem_takeWhile_imp member
    exact ⟨.word (character :: rest.takeWhile isWordCharacter), rest.dropWhile isWordCharacter,
      by simp [text], identifier, Text.head?_dropWhile _ _⟩
  cases found : operator? (character :: rest) with
  | some sign =>
    rcases exists_operator found with ⟨after, shape, stops⟩
    exact ⟨.operator sign, after, shape, trivial, stops⟩
  | none =>
    have absent := List.find?_eq_none.1 found
    have noDigit : character.isDigit = false := by
      simp only [startsNumber, Bool.or_eq_true, not_or] at starts
      exact eq_false_of_ne_true starts.1
    refine ⟨.stray character, rest, rfl, ⟨filled, opens, closes, noDigit,
      eq_false_of_ne_true start, fun sign member symbol => ?_⟩, ?_⟩
    · exact absent sign member (by simp [Text.startsWith, symbol])
    · cases rest with
      | nil => rfl
      | cons next rest =>
        rw [stopsAt_cons, continues, Bool.or_eq_false_iff, List.any_eq_false]
        refine ⟨?_, fun sign member same => ?_⟩
        · simpa [startsNumber, noDigit] using starts
        · exact absent sign member (by simp [Text.startsWith, beq_iff_eq.1 same])

/-! ### Numbers -/

/-- Whether a lexeme is a number with a point. -/
def isFraction : Lexeme → Bool
  | .number text => text.any (· == '.')
  | _ => false

/-- A number without a point is made of letters and digits. -/
theorem isAlphanum_of_integral {text : Text} (whole : (number text).IsWhole)
    (integral : (number text).isFraction = false) {character : Char}
    (member : character ∈ text) : character.isAlphanum = true := by
  have noPoint : character ≠ '.' := by
    rintro rfl
    exact absurd rfl (List.any_eq_false.1 integral '.' member)
  rcases whole with ⟨first, more, rfl, starts, all⟩
  rcases List.mem_cons.1 member with rfl | member
  · have digit : character.isDigit = true := by
      simpa [startsNumber, noPoint] using starts
    simp [Char.isAlphanum, digit]
  · simpa [continuesNumber, noPoint] using all character member

/-! ### All lexemes -/

theorem listFrom_append (front rest : Text) :
    listFrom front.length (front ++ rest) = rest.lexemes := by
  induction front with
  | nil => rfl
  | cons character front ih => exact ih

end Lexeme

namespace Text

open Lexeme

theorem lexemes_blank {character : Char} (blank : isBlank character = true) (rest : Text) :
    lexemes (character :: rest) = rest.lexemes := by
  rw [lexemes, listFrom]
  simp only [first, blank, if_true]
  rfl

theorem lexemes_blanks {blanks : Text} (blank : ∀ character ∈ blanks, isBlank character = true)
    (rest : Text) : (blanks ++ rest).lexemes = rest.lexemes := by
  induction blanks with
  | nil => rfl
  | cons character blanks ih =>
    rw [List.cons_append, lexemes_blank (blank character List.mem_cons_self),
      ih fun other member => blank other (List.mem_cons_of_mem _ member)]

theorem lexemes_append {lexeme : Lexeme} {rest : Text} (whole : lexeme.IsWhole)
    (stops : lexeme.StopsAt rest) : (lexeme.text ++ rest).lexemes = lexeme :: rest.lexemes := by
  rcases exists_first whole stops with ⟨character, more, shape, cut⟩
  rw [shape, List.cons_append, lexemes, listFrom, cut]
  exact congrArg (lexeme :: ·) (listFrom_append more rest)

end Text

end ScriptPreprocessor
