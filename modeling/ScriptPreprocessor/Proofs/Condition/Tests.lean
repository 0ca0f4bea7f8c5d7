import ScriptPreprocessor.Condition.Defined
import ScriptPreprocessor.Proofs.Text.Spelling

namespace ScriptPreprocessor

/-!
# Tests for definitions and spelling

A test for a definition is replaced by a digit.  It begins where no word goes on, and it ends
behind a word or behind a parenthesis, so it is cut out at seams.  The digit may come to stand in
front of a word, but from digits no other word is made: a condition that is spelled from words is
still spelled from them when its tests are replaced (`spelled_replaceDefined`).
-/

open Text (Spelled IsSeam)

variable {parts : List Text} {text name after : Text}

/-- An ASCII word character is a word character of Unicode. -/
theorem isUnicodeWordCharacter_of_isWordCharacter {character : Char}
    (letter : isWordCharacter character = true) : isUnicodeWordCharacter character = true := by
  have front : wordRanges.take 4 = [(0x30, 0x39), (0x41, 0x5A), (0x5F, 0x5F), (0x61, 0x7A)] := rfl
  have listed {least greatest : Nat} (range : (least, greatest) ∈ wordRanges.take 4)
      (inside : least ≤ character.toNat ∧ character.toNat ≤ greatest) :
      isUnicodeWordCharacter character = true :=
    List.any_eq_true.2 ⟨_, List.mem_of_mem_take range, by simpa using inside⟩
  rw [front] at listed
  rcases code_of_isWordCharacter letter with upper | lower | digit | underscore
  · exact listed (.tail _ (.head _)) upper
  · exact listed (.tail _ (.tail _ (.tail _ (.head _)))) lower
  · exact listed (.head _) digit
  · exact listed (.tail _ (.tail _ (.head _))) ⟨underscore.ge, underscore.le⟩

theorem exists_trimStart (text : Text) : ∃ blanks : Text, text = blanks ++ text.trimStart :=
  ⟨text.takeWhile isBlank, List.takeWhile_append_dropWhile.symm⟩

/-- An identifier ends where its word ends. -/
theorem seam_of_identifier? (found : identifier? text = some (name, after)) :
    text = name ++ after ∧ ∀ front, IsSeam front after := by
  unfold identifier? at found
  split at found
  · cases found
    exact ⟨text.leadingWord_append_afterWord.symm,
      fun _ => Text.isSeam_dropWhile fun _ noLetter => noLetter⟩
  · cases found

theorem exists_of_parenthesizedIdentifier?
    (found : parenthesizedIdentifier? text = some (name, after)) :
    ∃ front : Text, text = front ++ [')'] ++ after := by
  unfold parenthesizedIdentifier? at found
  rcases Option.bind_eq_some_iff.1 found with ⟨inside, opened, found⟩
  rcases Option.bind_eq_some_iff.1 found with ⟨⟨identifier, rest⟩, named, found⟩
  rcases Option.bind_eq_some_iff.1 found with ⟨behind, closed, same⟩
  cases same
  rcases exists_trimStart inside with ⟨blanks, insideShape⟩
  rcases exists_trimStart rest with ⟨more, restShape⟩
  refine ⟨['('] ++ blanks ++ name ++ more, ?_⟩
  rw [Text.afterStart?_eq_some_iff.1 opened, insideShape, (seam_of_identifier? named).1, restShape,
    Text.afterStart?_eq_some_iff.1 closed]
  simp

/-- A test ends at a seam. -/
theorem exists_of_definedTest? (found : definedTest? text = some (name, after)) :
    ∃ test : Text, test ≠ [] ∧ text = test ++ after ∧ IsSeam test after := by
  unfold definedTest? at found
  rcases Option.bind_eq_some_iff.1 found with ⟨behind, begins, found⟩
  rcases exists_trimStart behind with ⟨blanks, shape⟩
  have whole := Text.afterStart?_eq_some_iff.1 begins
  rw [shape] at whole
  cases inParentheses : parenthesizedIdentifier? behind.trimStart with
  | some named =>
    simp only [inParentheses, Option.orElse] at found
    cases found
    rcases exists_of_parenthesizedIdentifier? inParentheses with ⟨front, closed⟩
    refine ⟨definedWord ++ blanks ++ front ++ [')'], List.concat_ne_nil _ _, ?_, ?_⟩
    · rw [whole, closed]
      simp only [List.append_assoc]
    · exact Text.isSeam_mark_left (by decide)
  | none =>
    simp only [inParentheses, Option.orElse] at found
    rcases seam_of_identifier? found with ⟨closed, seam⟩
    have filled : definedWord ++ blanks ++ name ≠ [] :=
      List.append_ne_nil_of_left_ne_nil (List.append_ne_nil_of_left_ne_nil (by decide) _) _
    refine ⟨definedWord ++ blanks ++ name, filled, ?_, seam _⟩
    rw [whole, closed]
    simp only [List.append_assoc]

theorem replaceDefinedFrom_append (isDefined : Text → Bool) (front after : Text) :
    replaceDefinedFrom isDefined front.length true (front ++ after) =
      replaceDefinedFrom isDefined 0 true after := by
  induction front with
  | nil => rfl
  | cons character front ih => exact ih

/-- The replacement is followed from any place in the text, with what was copied before it in front.
Where a test may begin, no word is going on. -/
theorem spelled_replaceDefinedFrom (isDefined : Text → Bool) {boundary : Bool} {front text : Text}
    (spelled : Spelled parts (front ++ text)) (seam : boundary = true → IsSeam front text) :
    Spelled parts (front ++ replaceDefinedFrom isDefined 0 boundary text) := by
  induction length : text.length using Nat.strongRecOn generalizing boundary front text with
  | ind length ih =>
    subst length
    cases text with
    | nil => simpa [replaceDefinedFrom] using spelled
    | cons character rest =>
      unfold replaceDefinedFrom
      split
      · next name after found =>
        cases boundary with
        | false => cases found
        | true =>
          rcases exists_of_definedTest? found with ⟨_ | ⟨first, test⟩, filled, shape, ends⟩
          · exact absurd rfl filled
          · have pieces := spelled.cut (seam rfl)
            rw [shape] at pieces
            rw [List.cons_append, List.cons.injEq] at shape
            rcases shape with ⟨rfl, rfl⟩
            have shorter : after.length < (character :: (test ++ after)).length := by
              rw [List.length_cons, List.length_append]
              omega
            have behind : Spelled parts ([] ++ replaceDefinedFrom isDefined 0 true after) :=
              ih after.length shorter (pieces.2.cut ends).2 (fun _ => Text.isSeam_nil_left) rfl
            have skipped : (test ++ after).length - after.length = test.length := by simp
            rw [skipped, replaceDefinedFrom_append]
            refine pieces.1.append (.digit ?_ behind)
            cases isDefined name <;> rfl
      · have ends : (!isUnicodeWordCharacter character) = true →
            IsSeam (front ++ [character]) rest := by
          intro boundary
          apply Text.isSeam_mark_left
          by_contra letter
          rw [isUnicodeWordCharacter_of_isWordCharacter (eq_true_of_ne_false letter)] at boundary
          cases boundary
        have copied := ih rest.length (by simp) (by simpa using spelled) ends rfl
        simpa using copied

theorem spelled_replaceDefined (isDefined : Text → Bool) (spelled : Spelled parts text) :
    Spelled parts (replaceDefined isDefined text) :=
  spelled_replaceDefinedFrom isDefined spelled fun _ => Text.isSeam_nil_left

end ScriptPreprocessor
