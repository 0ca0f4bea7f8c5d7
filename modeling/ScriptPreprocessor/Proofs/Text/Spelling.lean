import ScriptPreprocessor.Proofs.Text.Lines
import ScriptPreprocessor.Text.Word

namespace ScriptPreprocessor

/-!
# Spelling

What a macro is replaced by is written in front of the text behind the invocation, and so a word can
come about that stands nowhere: `F()LE__` is read as one word when `F()` is replaced by `__FI`.  But
only words that are there can be put together.  A text is spelled from words when every run of word
characters in it consists of such words and of digits (`Text.Spelled`).

Texts that are spelled can be put together, and they can be cut wherever no word is cut
(`Text.Spelled.cut`); that is where lines, arguments and trimmed texts are cut.
-/

/-! ## Codes of characters -/

section Codes

variable {character : Char}

theorem isUpper_iff : character.isUpper = true ↔ 65 ≤ character.toNat ∧ character.toNat ≤ 90 := by
  have upper : character.isUpper = decide (character.val ≥ 65 ∧ character.val ≤ 90) := rfl
  rw [upper, decide_eq_true_eq, ge_iff_le, UInt32.le_iff_toNat_le, UInt32.le_iff_toNat_le]
  exact Iff.rfl

theorem isLower_iff : character.isLower = true ↔ 97 ≤ character.toNat ∧ character.toNat ≤ 122 := by
  have lower : character.isLower = (decide (character.val ≥ 97) && decide (character.val ≤ 122)) :=
    rfl
  rw [lower, Bool.and_eq_true, decide_eq_true_eq, decide_eq_true_eq, ge_iff_le,
    UInt32.le_iff_toNat_le, UInt32.le_iff_toNat_le]
  exact Iff.rfl

theorem isDigit_iff : character.isDigit = true ↔ 48 ≤ character.toNat ∧ character.toNat ≤ 57 := by
  simp only [Char.isDigit, Bool.and_eq_true, decide_eq_true_eq, UInt32.le_iff_toNat_le,
    ge_iff_le]
  exact Iff.rfl

theorem isAlpha_iff : character.isAlpha = true ↔
    (65 ≤ character.toNat ∧ character.toNat ≤ 90) ∨
      (97 ≤ character.toNat ∧ character.toNat ≤ 122) := by
  have alpha : character.isAlpha = (character.isUpper || character.isLower) := rfl
  rw [alpha, Bool.or_eq_true, isUpper_iff, isLower_iff]

theorem isAlphanum_iff : character.isAlphanum = true ↔
    (65 ≤ character.toNat ∧ character.toNat ≤ 90) ∨
      (97 ≤ character.toNat ∧ character.toNat ≤ 122) ∨
      (48 ≤ character.toNat ∧ character.toNat ≤ 57) := by
  have alphanum : character.isAlphanum = (character.isAlpha || character.isDigit) := rfl
  rw [alphanum, Bool.or_eq_true, isAlpha_iff, isDigit_iff, or_assoc]

/-- The codes of word characters. -/
theorem code_of_isWordCharacter (letter : isWordCharacter character = true) :
    (65 ≤ character.toNat ∧ character.toNat ≤ 90) ∨
      (97 ≤ character.toNat ∧ character.toNat ≤ 122) ∨
      (48 ≤ character.toNat ∧ character.toNat ≤ 57) ∨ character.toNat = 95 := by
  simp only [isWordCharacter, Bool.or_eq_true, beq_iff_eq, isAlphanum_iff] at letter
  rcases letter with (upper | lower | digit) | rfl
  · exact Or.inl upper
  · exact Or.inr (Or.inl lower)
  · exact Or.inr (Or.inr (Or.inl digit))
  · exact Or.inr (Or.inr (Or.inr rfl))

/-- No identifier begins with a digit. -/
theorem isIdentifierStart_of_isDigit (digit : character.isDigit = true) :
    isIdentifierStart character = false := by
  have code := isDigit_iff.1 digit
  by_contra start
  simp only [isIdentifierStart, Bool.or_eq_true, Bool.not_eq_false, beq_iff_eq] at start
  rcases start with alpha | rfl
  · have letter := isAlpha_iff.1 alpha
    omega
  · exact absurd code.2 (by decide)

theorem isBlank_of_isSpaceOrTab (space : isSpaceOrTab character = true) :
    isBlank character = true := by
  simp only [isSpaceOrTab, Bool.or_eq_true, beq_iff_eq] at space
  rcases space with rfl | rfl <;> rfl

/-- No blank belongs to a word. -/
theorem isWordCharacter_of_isBlank (blank : isBlank character = true) :
    isWordCharacter character = false := by
  by_contra letter
  have code := code_of_isWordCharacter (eq_true_of_ne_false letter)
  simp only [isBlank, Bool.or_eq_true, Bool.and_eq_true, decide_eq_true_eq, beq_iff_eq] at blank
  omega

theorem isBlank_of_isWordCharacter (letter : isWordCharacter character = true) :
    isBlank character = false := by
  by_contra blank
  rw [isWordCharacter_of_isBlank (eq_true_of_ne_false blank)] at letter
  cases letter

/-- Identifiers are made of word characters. -/
theorem Text.letters_of_isIdentifier {name : Text} (identifier : name.isIdentifier = true) :
    name ≠ [] ∧ ∀ letter ∈ name, isWordCharacter letter = true := by
  cases name with
  | nil => cases identifier
  | cons character rest =>
    simp only [isIdentifier, Bool.and_eq_true, List.all_eq_true] at identifier
    exact ⟨by simp, List.forall_mem_cons.2
      ⟨isWordCharacter_of_isIdentifierStart identifier.1, identifier.2⟩⟩

end Codes

namespace Text

/-- The words of a text: its longest runs of word characters. -/
def words (text : Text) : List Text :=
  (text.splitOn fun character => !isWordCharacter character).filter fun part => !part.isEmpty

/-- A text in which every run of word characters is put together from given words and digits. -/
inductive Spelled (parts : List Text) : Text → Prop
  | nil : Spelled parts []
  | word {word rest : Text} (known : word ∈ parts) (letters : word.all isWordCharacter = true)
      (later : Spelled parts rest) : Spelled parts (word ++ rest)
  | digit {digit : Char} {rest : Text} (isDigit : digit.isDigit = true)
      (later : Spelled parts rest) : Spelled parts (digit :: rest)
  | mark {character : Char} {rest : Text} (noLetter : isWordCharacter character = false)
      (later : Spelled parts rest) : Spelled parts (character :: rest)

/-- No word runs across the place where two texts meet. -/
def IsSeam (left right : Text) : Prop :=
  ¬ (left.getLast?.any isWordCharacter = true ∧ right.head?.any isWordCharacter = true)

variable {parts : List Text} {text left right rest : Text} {character : Char}

/-! ## Seams -/

theorem isSeam_nil_left : IsSeam [] right := by
  simp [IsSeam]

theorem isSeam_nil_right : IsSeam left [] := by
  simp [IsSeam]

theorem isSeam_mark_right (noLetter : isWordCharacter character = false) :
    IsSeam left (character :: rest) := by
  simp [IsSeam, noLetter]

theorem isSeam_mark_left (noLetter : isWordCharacter character = false) :
    IsSeam (left ++ [character]) right := by
  simp [IsSeam, noLetter]

theorem isSeam_singleton (noLetter : isWordCharacter character = false) :
    IsSeam [character] right := by
  simp [IsSeam, noLetter]

theorem IsSeam.of_append {front : Text} (seam : IsSeam (front ++ left) right) :
    IsSeam left right := by
  cases left with
  | nil => exact isSeam_nil_left
  | cons character more =>
    unfold IsSeam at seam ⊢
    rwa [List.getLast?_append_of_ne_nil front (by simp)] at seam

theorem IsSeam.tail (seam : IsSeam (character :: left) right) : IsSeam left right :=
  IsSeam.of_append (show IsSeam ([character] ++ left) right from seam)

/-- A run of characters ends at a seam when what is not in it is no word character. -/
theorem isSeam_dropWhile {test : Char → Bool}
    (marks : ∀ character, test character = false → isWordCharacter character = false) :
    IsSeam left (text.dropWhile test) := by
  cases behind : text.dropWhile test with
  | nil => exact isSeam_nil_right
  | cons character rest =>
    apply isSeam_mark_right
    apply marks
    have fails := List.head_dropWhile_not test (l := text) (by simp [behind])
    simpa [behind] using fails

/-! ## Putting together and cutting -/

namespace Spelled

theorem append (first : Spelled parts left) (second : Spelled parts right) :
    Spelled parts (left ++ right) := by
  induction first with
  | nil => exact second
  | word known letters _ ih =>
    rw [List.append_assoc]
    exact word known letters ih
  | digit isDigit _ ih => exact digit isDigit ih
  | mark noLetter _ ih => exact mark noLetter ih

theorem flatten {texts : List Text} (all : ∀ text ∈ texts, Spelled parts text) :
    Spelled parts texts.flatten := by
  induction texts with
  | nil => exact nil
  | cons first more ih =>
    exact (all first List.mem_cons_self).append
      (ih fun text member => all text (List.mem_cons_of_mem _ member))

theorem mono {others : List Text} (contained : parts ⊆ others) (spelled : Spelled parts text) :
    Spelled others text := by
  induction spelled with
  | nil => exact nil
  | word known letters _ ih => exact word (contained known) letters ih
  | digit isDigit _ ih => exact digit isDigit ih
  | mark noLetter _ ih => exact mark noLetter ih

/-- A spelled text can be cut where no word is cut. -/
theorem cut (spelled : Spelled parts (left ++ right)) (seam : IsSeam left right) :
    Spelled parts left ∧ Spelled parts right := by
  generalize whole : left ++ right = text at spelled
  induction spelled generalizing left with
  | nil =>
    rcases List.append_eq_nil_iff.1 whole with ⟨rfl, rfl⟩
    exact ⟨nil, nil⟩
  | @word first rest known letters later ih =>
    rcases List.append_eq_append_iff.1 whole with ⟨inside, rfl, rfl⟩ | ⟨behind, rfl, same⟩
    · -- The cut lies in the word, so it lies at one of its ends.
      rcases List.eq_nil_or_concat' left with rfl | ⟨front, last, rfl⟩
      · exact ⟨nil, word known letters later⟩
      · cases inside with
        | nil =>
          rw [List.append_nil] at known letters
          have spelledLeft : Spelled parts (front ++ [last]) := by
            simpa using word known letters nil
          exact ⟨spelledLeft, later⟩
        | cons next more =>
          rw [List.all_eq_true] at letters
          refine absurd ?_ seam
          simp [letters last (by simp), letters next (by simp)]
    · rcases ih seam.of_append same.symm with ⟨spelledBehind, spelledRight⟩
      exact ⟨word known letters spelledBehind, spelledRight⟩
  | @digit first rest isDigit later ih =>
    cases left with
    | nil =>
      rw [List.nil_append] at whole
      exact ⟨nil, whole ▸ digit isDigit later⟩
    | cons _ more =>
      cases whole
      have pieces := ih seam.tail rfl
      exact ⟨digit isDigit pieces.1, pieces.2⟩
  | @mark first rest noLetter later ih =>
    cases left with
    | nil =>
      rw [List.nil_append] at whole
      exact ⟨nil, whole ▸ mark noLetter later⟩
    | cons _ more =>
      cases whole
      have pieces := ih seam.tail rfl
      exact ⟨mark noLetter pieces.1, pieces.2⟩

theorem of_mark (spelled : Spelled parts (character :: right))
    (noLetter : isWordCharacter character = false) : Spelled parts right := by
  have whole : Spelled parts ([character] ++ right) := spelled
  exact (whole.cut (isSeam_singleton noLetter)).2

theorem behind_mark (spelled : Spelled parts (left ++ character :: right))
    (noLetter : isWordCharacter character = false) :
    Spelled parts left ∧ Spelled parts right := by
  have pieces := spelled.cut (isSeam_mark_right noLetter)
  exact ⟨pieces.1, pieces.2.of_mark noLetter⟩

/-- A word without digits that is spelled is put together from the given words. -/
theorem exists_flatten (spelled : Spelled parts text)
    (letters : ∀ character ∈ text,
      isWordCharacter character = true ∧ character.isDigit = false) :
    ∃ chosen : List Text, (∀ word ∈ chosen, word ∈ parts) ∧ chosen.flatten = text := by
  induction spelled with
  | nil => exact ⟨[], by simp, rfl⟩
  | @word first rest known _ _ ih =>
    rcases ih fun character member => letters character (List.mem_append_right _ member) with
      ⟨chosen, allKnown, rfl⟩
    exact ⟨first :: chosen, by simpa using ⟨known, allKnown⟩, rfl⟩
  | digit isDigit _ _ =>
    have noDigit := (letters _ List.mem_cons_self).2
    rw [isDigit] at noDigit
    cases noDigit
  | mark noLetter _ _ =>
    have letter := (letters _ List.mem_cons_self).1
    rw [noLetter] at letter
    cases letter

/-! ## Parts of spelled texts -/

theorem takeWhile_dropWhile {test : Char → Bool}
    (marks : ∀ character, test character = false → isWordCharacter character = false)
    (spelled : Spelled parts text) :
    Spelled parts (text.takeWhile test) ∧ Spelled parts (text.dropWhile test) := by
  rw [← List.takeWhile_append_dropWhile (p := test) (l := text)] at spelled
  exact spelled.cut (isSeam_dropWhile marks)

theorem dropWhile {test : Char → Bool}
    (marks : ∀ character, test character = true → isWordCharacter character = false)
    (spelled : Spelled parts text) : Spelled parts (text.dropWhile test) := by
  induction text with
  | nil => exact spelled
  | cons character rest ih =>
    rw [List.dropWhile_cons]
    split
    · next drops => exact ih (spelled.of_mark (marks character drops))
    · exact spelled

theorem dropEndWhile {test : Char → Bool}
    (marks : ∀ character, test character = true → isWordCharacter character = false)
    (spelled : Spelled parts text) : Spelled parts (dropEndWhile test text) := by
  induction text using List.reverseRecOn with
  | nil => exact spelled
  | append_singleton front last ih =>
    unfold Text.dropEndWhile at ih ⊢
    rw [List.reverse_append, List.reverse_singleton, List.singleton_append, List.dropWhile_cons]
    split
    · next drops => exact ih (spelled.behind_mark (marks last drops)).1
    · simpa using spelled

theorem trim (spelled : Spelled parts text) : Spelled parts text.trim :=
  (spelled.dropWhile fun _ => isWordCharacter_of_isBlank).dropEndWhile
    fun _ => isWordCharacter_of_isBlank

theorem of_mem_lines {line : Text} (spelled : Spelled parts text) (member : line ∈ lines text) :
    Spelled parts line := by
  rcases exists_ended_append text with ⟨ended, rest, allEnded, unbroken, rfl⟩
  rw [lines_flatten_append allEnded] at member
  induction ended with
  | nil =>
    by_cases filled : rest = []
    · simp [filled] at member
    · rw [lines_of_unbroken unbroken filled] at member
      rwa [List.mem_singleton.1 member]
  | cons first more ih =>
    rcases allEnded first List.mem_cons_self with ⟨body, _, rfl⟩
    rw [List.flatten_cons, List.append_assoc] at spelled
    have pieces := spelled.cut (isSeam_mark_left (by decide))
    rcases List.mem_cons.1 member with rfl | later
    · exact pieces.1
    · exact ih (fun line member => allEnded line (List.mem_cons_of_mem _ member)) pieces.2 later

theorem withFinalNewline (spelled : Spelled parts text) :
    Spelled parts text.withFinalNewline := by
  unfold Text.withFinalNewline
  split
  · exact spelled
  · exact spelled.append (mark (by decide) nil)

theorem withoutEnding (spelled : Spelled parts text) : Spelled parts text.withoutEnding := by
  have stripped {line : Text} {mark : Char} (spelled : Spelled parts line)
      (noLetter : isWordCharacter mark = false) :
      Spelled parts ((line.beforeEnd? [mark]).getD line) := by
    cases cut : line.beforeEnd? [mark] with
    | none => exact spelled
    | some body =>
      rw [beforeEnd?_eq_some_iff.1 cut] at spelled
      exact (spelled.behind_mark noLetter).1
  exact stripped (stripped spelled (by decide)) (by decide)

end Spelled

/-! ## The words of a text -/

/-- Between its marks a text has words, and what follows the first of them is spelled from the
others. -/
theorem exists_splitOn (text : Text) :
    ∃ (first : Text) (others : List Text) (behind : Text),
      (text.splitOn fun character => !isWordCharacter character) = first :: others ∧
      text = first ++ behind ∧ first.all isWordCharacter = true ∧
      ∀ parts : List Text, (∀ word ∈ others, word ≠ [] → word ∈ parts) → Spelled parts behind := by
  induction text with
  | nil => exact ⟨[], [], [], rfl, rfl, rfl, fun _ _ => .nil⟩
  | cons character rest ih =>
    rcases ih with ⟨first, others, behind, shape, rfl, letters, spelled⟩
    cases letter : isWordCharacter character with
    | true =>
      refine ⟨character :: first, others, behind, ?_, rfl, by simp [letter, letters], spelled⟩
      simp [splitOn, letter, shape]
    | false =>
      refine ⟨[], first :: others, character :: (first ++ behind), by simp [splitOn, letter, shape],
        rfl, rfl, ?_⟩
      intro parts known
      have later := spelled parts fun word member => known word (List.mem_cons_of_mem _ member)
      apply Spelled.mark letter
      by_cases empty : first = []
      · rwa [empty]
      · exact .word (known first List.mem_cons_self empty) letters later

/-- A text is spelled from its own words. -/
theorem spelled_words (text : Text) : Spelled text.words text := by
  rcases exists_splitOn text with ⟨first, others, behind, shape, same, letters, spelled⟩
  have listed : ∀ word ∈ first :: others, word ≠ [] → word ∈ text.words := by
    intro word member filled
    unfold words
    rw [shape]
    exact List.mem_filter.2 ⟨member, by simpa using filled⟩
  have later := spelled text.words fun word member => listed word (List.mem_cons_of_mem _ member)
  rw [same] at listed later ⊢
  by_cases empty : first = []
  · rwa [empty] at later ⊢
  · exact .word (listed first List.mem_cons_self empty) letters later

end Text

end ScriptPreprocessor
