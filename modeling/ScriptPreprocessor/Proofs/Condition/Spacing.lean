import Mathlib.Data.List.Chain
import ScriptPreprocessor.Proofs.Condition.Lexemes

namespace ScriptPreprocessor

/-!
# Lexemes with blanks between them

A text that writes lexemes with any blanks between them is cut into the same lexemes, unless two of
them that touch grow together.  An operand and an operator never do, whatever stands first
(`Lexeme.lexemes_of_spaced`).
-/

namespace Lexeme

open ConditionToken (startsNumber continuesNumber)

/-- A text writes lexemes with any blanks between them and around them. -/
inductive Spaced : List Lexeme → Text → Prop
  | nil {blanks : Text} (blank : ∀ character ∈ blanks, isBlank character = true) : Spaced [] blanks
  | cons {lexeme : Lexeme} {lexemes : List Lexeme} {blanks rest : Text}
      (blank : ∀ character ∈ blanks, isBlank character = true) (later : Spaced lexemes rest) :
      Spaced (lexeme :: lexemes) (blanks ++ lexeme.text ++ rest)

namespace Spaced

variable {lexemes others : List Lexeme} {text rest : Text}

/-- Blanks in front change nothing. -/
theorem behindBlanks (spaced : Spaced lexemes text) {blanks : Text}
    (blank : ∀ character ∈ blanks, isBlank character = true) : Spaced lexemes (blanks ++ text) := by
  cases spaced with
  | nil more => exact .nil (List.forall_mem_append.2 ⟨blank, more⟩)
  | cons more later =>
    rw [← List.append_assoc, ← List.append_assoc]
    exact .cons (List.forall_mem_append.2 ⟨blank, more⟩) later

theorem append (front : Spaced lexemes text) (back : Spaced others rest) :
    Spaced (lexemes ++ others) (text ++ rest) := by
  induction front with
  | nil blank => exact back.behindBlanks blank
  | cons blank _ ih =>
    rw [List.append_assoc]
    exact .cons blank ih

/-- A lexeme is written as its own text. -/
theorem single (lexeme : Lexeme) : Spaced [lexeme] lexeme.text := by
  have written : Spaced [lexeme] ([] ++ lexeme.text ++ []) :=
    .cons (List.forall_mem_nil _) (.nil (List.forall_mem_nil _))
  rwa [List.append_nil] at written

end Spaced

/-- A lexeme does not go on with what another begins with. -/
def IsApartFrom (lexeme next : Lexeme) : Prop :=
  ∀ rest, lexeme.StopsAt (next.text ++ rest)

/-! ## What stands apart -/

/-- Whether a lexeme ends an operand. -/
def endsOperand : Lexeme → Bool
  | .number _ | .word _ | .closing => true
  | _ => false

/-- Whether a lexeme begins an operand. -/
def beginsOperand : Lexeme → Bool
  | .number _ | .word _ | .opening => true
  | .operator sign => sign.isUnary
  | _ => false

/-- The characters that stand second in an operator. -/
def secondMarks : Text := ['|', '&', '=', '<', '>']

/-- No operand begins with a mark that stands second in an operator. -/
theorem plain_of_mem_secondMarks {character : Char} (second : character ∈ secondMarks) :
    isBlank character = false ∧ character.isDigit = false ∧ character ≠ '.' ∧
      isIdentifierStart character = false := by
  simp only [secondMarks, List.mem_cons, List.not_mem_nil, or_false] at second
  rcases second with rfl | rfl | rfl | rfl | rfl <;> decide

/-- An operator only goes on with a character that stands second in one of them. -/
theorem mem_of_continues_operator {sign : Operator} {character : Char}
    (goesOn : (Lexeme.operator sign).continues character = true) : character ∈ secondMarks := by
  rcases List.any_eq_true.1 goesOn with ⟨longer, _, same⟩
  have symbol := beq_iff_eq.1 same
  have least := (length_symbol sign).1
  have second : longer.symbol.drop 1 = sign.symbol.drop 1 ++ [character] := by
    rw [symbol, List.drop_append_of_le_length least]
  have known : ∀ other ∈ longer.symbol.drop 1, other ∈ secondMarks := by
    cases longer <;> simp [Operator.symbol, secondMarks]
  exact known character (by simp [second])

/-- No lexeme of a well-formed condition goes on with a blank. -/
theorem stopsAt_of_blank {lexeme : Lexeme} (sound : ∀ character, lexeme ≠ .stray character)
    {character : Char} (blank : isBlank character = true) (rest : Text) :
    lexeme.StopsAt (character :: rest) := by
  have noLetter := isWordCharacter_of_isBlank blank
  rw [stopsAt_cons]
  cases lexeme with
  | number text =>
    have noPoint : character ≠ '.' := by
      rintro rfl
      exact absurd blank (by decide)
    simp only [isWordCharacter, Bool.or_eq_false_iff] at noLetter
    simp [continues, continuesNumber, noLetter.1, noPoint]
  | word text => exact noLetter
  | operator sign =>
    by_contra goesOn
    have second := mem_of_continues_operator (eq_true_of_ne_false goesOn)
    rw [(plain_of_mem_secondMarks second).1] at blank
    cases blank
  | opening => rfl
  | closing => rfl
  | stray character => exact absurd rfl (sound character)

/-- Behind an operand stands an operator or a closing parenthesis. -/
theorem isApartFrom_of_endsOperand {lexeme next : Lexeme} (ends : lexeme.endsOperand = true)
    (mark : (∃ sign, next = .operator sign) ∨ next = .closing) : lexeme.IsApartFrom next := by
  have noLetter : ∃ character more, next.text = character :: more ∧
      continuesNumber character = false ∧ isWordCharacter character = false := by
    rcases mark with ⟨sign, rfl⟩ | rfl
    · cases sign <;> exact ⟨_, _, rfl, by decide⟩
    · exact ⟨')', [], rfl, by decide⟩
  rcases noLetter with ⟨character, more, shape, number, word⟩
  intro rest
  rw [shape, List.cons_append, stopsAt_cons]
  cases lexeme with
  | number text => exact number
  | word text => exact word
  | closing => rfl
  | _ => cases ends

/-- In front of an operand stands an operator or an opening parenthesis. -/
theorem isApartFrom_of_beginsOperand {lexeme next : Lexeme} (begins : next.beginsOperand = true)
    (whole : next.IsWhole) (mark : (∃ sign, lexeme = .operator sign) ∨ lexeme = .opening) :
    lexeme.IsApartFrom next := by
  have noSecond : ∃ character more, next.text = character :: more ∧
      character ∉ secondMarks := by
    cases next with
    | number text =>
      rcases whole with ⟨character, more, rfl, starts, _⟩
      refine ⟨character, more, rfl, fun second => ?_⟩
      have plain := plain_of_mem_secondMarks second
      simp [startsNumber, plain.2.1, plain.2.2.1] at starts
    | word text =>
      cases text with
      | nil => cases whole
      | cons character more =>
        refine ⟨character, more, rfl, fun second => ?_⟩
        simp [IsWhole, Text.isIdentifier, (plain_of_mem_secondMarks second).2.2.2] at whole
    | opening => exact ⟨'(', [], rfl, by decide⟩
    | operator sign =>
      cases sign with
      | logicalNot => exact ⟨'!', [], rfl, by decide⟩
      | bitNot => exact ⟨'~', [], rfl, by decide⟩
      | plus => exact ⟨'+', [], rfl, by decide⟩
      | minus => exact ⟨'-', [], rfl, by decide⟩
      | _ => cases begins
    | _ => cases begins
  rcases noSecond with ⟨character, more, shape, noSecond⟩
  intro rest
  rw [shape, List.cons_append, stopsAt_cons]
  rcases mark with ⟨sign, rfl⟩ | rfl
  · by_contra goesOn
    exact noSecond (mem_of_continues_operator (eq_true_of_ne_false goesOn))
  · rfl

/-! ## Operands -/

/-- Lexemes make up an operand: they are well written, they begin and end as operands do, and none
of them goes on with what the next one begins with. -/
structure IsOperand (lexemes : List Lexeme) : Prop where
  whole : ∀ lexeme ∈ lexemes, lexeme.IsWhole
  sound : ∀ lexeme ∈ lexemes, ∀ character, lexeme ≠ .stray character
  begins : lexemes.head?.any beginsOperand = true
  ends : lexemes.getLast?.any endsOperand = true
  apart : lexemes.IsChain IsApartFrom

namespace IsOperand

variable {lexemes left right : List Lexeme} {sign : Operator}

theorem single {lexeme : Lexeme} (whole : lexeme.IsWhole) (begins : lexeme.beginsOperand = true)
    (ends : lexeme.endsOperand = true) : IsOperand [lexeme] where
  whole := by simpa using whole
  sound := by
    intro other member character stray
    rw [List.mem_singleton.1 member] at stray
    subst stray
    cases ends
  begins := begins
  ends := ends
  apart := .singleton lexeme

/-- An operator stands apart from the operand behind it. -/
theorem apart_cons (operand : IsOperand lexemes) {mark : Lexeme}
    (isMark : (∃ sign, mark = .operator sign) ∨ mark = .opening) :
    (mark :: lexemes).IsChain IsApartFrom := by
  refine List.isChain_cons.2 ⟨fun next isNext => ?_, operand.apart⟩
  have begins := operand.begins
  rw [Option.mem_def.1 isNext, Option.any_some] at begins
  exact isApartFrom_of_beginsOperand begins
    (operand.whole next (List.mem_of_mem_head? isNext)) isMark

/-- An operand stands apart from the operator behind it. -/
theorem apart_append (operand : IsOperand left) {mark : Lexeme}
    (isMark : (∃ sign, mark = .operator sign) ∨ mark = .closing)
    (later : (mark :: lexemes).IsChain IsApartFrom) :
    (left ++ mark :: lexemes).IsChain IsApartFrom := by
  refine List.isChain_append.2 ⟨operand.apart, later, fun last isLast next isNext => ?_⟩
  have ends := operand.ends
  rw [Option.mem_def.1 isLast, Option.any_some] at ends
  cases isNext
  exact isApartFrom_of_endsOperand ends isMark

theorem behindSign (isUnary : sign.isUnary = true) (operand : IsOperand lexemes) :
    IsOperand (.operator sign :: lexemes) where
  whole := List.forall_mem_cons.2 ⟨trivial, operand.whole⟩
  sound := List.forall_mem_cons.2 ⟨fun _ => Lexeme.noConfusion, operand.sound⟩
  begins := isUnary
  ends := by
    have ends := operand.ends
    cases lexemes with
    | nil => cases ends
    | cons lexeme lexemes => simpa using ends
  apart := operand.apart_cons (.inl ⟨sign, rfl⟩)

theorem around (onLeft : IsOperand left) (onRight : IsOperand right) :
    IsOperand (left ++ .operator sign :: right) where
  whole := List.forall_mem_append.2
    ⟨onLeft.whole, List.forall_mem_cons.2 ⟨trivial, onRight.whole⟩⟩
  sound := List.forall_mem_append.2
    ⟨onLeft.sound, List.forall_mem_cons.2 ⟨fun _ => Lexeme.noConfusion, onRight.sound⟩⟩
  begins := by
    have begins := onLeft.begins
    cases left with
    | nil => cases begins
    | cons lexeme lexemes => exact begins
  ends := by
    have ends := onRight.ends
    cases right with
    | nil => cases ends
    | cons lexeme lexemes =>
      rwa [List.getLast?_append_of_ne_nil _ (List.cons_ne_nil _ _),
        List.getLast?_cons_of_ne_nil (List.cons_ne_nil _ _)]
  apart := onLeft.apart_append (.inl ⟨sign, rfl⟩) (onRight.apart_cons (.inl ⟨sign, rfl⟩))

theorem grouped (operand : IsOperand lexemes) :
    IsOperand (.opening :: lexemes ++ [.closing]) where
  whole := by
    simpa [or_imp, forall_and, IsWhole] using operand.whole
  sound := by
    simpa [or_imp, forall_and] using operand.sound
  begins := rfl
  ends := by
    rw [List.getLast?_concat]
    rfl
  apart := by
    have closed := operand.apart_append (.inr rfl) (.singleton closing)
    refine List.isChain_cons.2 ⟨fun next isNext => ?_, closed⟩
    have opened := List.isChain_cons.1 (operand.apart_cons (.inr rfl))
    have begins := operand.begins
    cases lexemes with
    | nil => cases begins
    | cons lexeme lexemes => exact opened.1 next isNext

end IsOperand

/-! ## Cutting what was written -/

/-- A text that writes an operand is cut into its lexemes. -/
theorem lexemes_of_spaced {lexemes : List Lexeme} {text : Text} (spaced : Spaced lexemes text)
    (whole : ∀ lexeme ∈ lexemes, lexeme.IsWhole)
    (sound : ∀ lexeme ∈ lexemes, ∀ character, lexeme ≠ .stray character)
    (apart : lexemes.IsChain IsApartFrom) : text.lexemes = lexemes := by
  induction spaced with
  | @nil blanks blank =>
    have none := Text.lexemes_blanks blank []
    rwa [List.append_nil] at none
  | @cons lexeme lexemes blanks rest blank later ih =>
    have behindBlank (character : Char) (member : isBlank character = true) (more : Text) :
        lexeme.StopsAt (character :: more) :=
      stopsAt_of_blank (sound lexeme List.mem_cons_self) member more
    have stops : lexeme.StopsAt rest := by
      cases later with
      | nil between =>
        cases rest with
        | nil => exact stopsAt_nil lexeme
        | cons character more => exact behindBlank character (between _ List.mem_cons_self) more
      | @cons next lexemes blanks rest between later =>
        cases blanks with
        | nil => exact (List.isChain_cons_cons.1 apart).1 rest
        | cons character more => exact behindBlank character (between _ List.mem_cons_self) _
    rw [List.append_assoc, Text.lexemes_blanks blank,
      Text.lexemes_append (whole lexeme List.mem_cons_self) stops]
    refine congrArg (lexeme :: ·) (ih ?_ ?_ ?_)
    · exact fun other member => whole other (List.mem_cons_of_mem _ member)
    · exact fun other member => sound other (List.mem_cons_of_mem _ member)
    · exact (List.isChain_cons.1 apart).2

/-- A text writes the lexemes that it is cut into. -/
theorem Cuts.spaced {text : Text} {lexemes : List Lexeme} (cuts : Cuts text lexemes) :
    Spaced lexemes text := by
  induction cuts with
  | nil => exact .nil (List.forall_mem_nil _)
  | @blank character _ _ blank _ ih =>
    have alone : ∀ other ∈ [character], isBlank other = true := by simpa using blank
    exact ih.behindBlanks alone
  | lexeme _ _ _ ih => exact .cons (List.forall_mem_nil _) ih

end Lexeme

end ScriptPreprocessor
