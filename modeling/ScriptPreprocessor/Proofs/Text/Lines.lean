import Mathlib.Data.List.Basic
import ScriptPreprocessor.Proofs.Text.Parts
import ScriptPreprocessor.Text.Lines

namespace ScriptPreprocessor

/-!
# Ended lines

A line of a text holds a line feed at its end or nowhere.  Texts that are ended lines can be put
together and taken apart again: the lines of the whole are the texts (`lines_flatten_append`).
Only the last line of a text may lack its line feed, and it does exactly when the text does
(`lines_eq_ended_append`).
-/

namespace Text

/-- A text that is one line with its line feed. -/
def IsEndedLine (text : Text) : Prop :=
  ∃ body : Text, '\n' ∉ body ∧ text = body ++ ['\n']

/-- A text without a line feed, except that it may end in one. -/
def IsOneLine (text : Text) : Prop :=
  '\n' ∉ text.dropLast

theorem IsEndedLine.isOneLine {text : Text} (ended : text.IsEndedLine) : text.IsOneLine := by
  rcases ended with ⟨body, unbroken, rfl⟩
  simpa [IsOneLine] using unbroken

theorem IsEndedLine.ne_nil {text : Text} (ended : text.IsEndedLine) : text ≠ [] := by
  rcases ended with ⟨body, _, rfl⟩
  simp

theorem isOneLine_of_unbroken {text : Text} (unbroken : '\n' ∉ text) : text.IsOneLine :=
  fun member => unbroken (List.mem_of_mem_dropLast member)

/-- A text of one line is unbroken, or it is an ended line. -/
theorem IsOneLine.unbroken_or_ended {text : Text} (one : text.IsOneLine) :
    '\n' ∉ text ∨ text.IsEndedLine := by
  rcases List.eq_nil_or_concat' text with rfl | ⟨body, last, rfl⟩
  · exact Or.inl (by simp)
  · have inBody : '\n' ∉ body := by simpa [IsOneLine] using one
    by_cases feed : last = '\n'
    · exact Or.inr ⟨body, inBody, by simp [feed]⟩
    · refine Or.inl fun member => ?_
      rcases List.mem_append.1 member with earlier | final
      · exact inBody earlier
      · exact feed (List.mem_singleton.1 final).symm

theorem IsOneLine.of_append_left {front rest : Text} (one : (front ++ rest).IsOneLine) :
    rest.IsOneLine := by
  intro member
  apply one
  cases rest with
  | nil => simp at member
  | cons character more =>
    rw [List.dropLast_append_of_ne_nil (by simp)]
    exact List.mem_append_right _ member

theorem IsOneLine.unbroken_of_append {front rest : Text} (one : (front ++ rest).IsOneLine)
    (more : rest ≠ []) : '\n' ∉ front := by
  intro member
  apply one
  rw [List.dropLast_append_of_ne_nil more]
  exact List.mem_append_left _ member

theorem IsOneLine.unbroken_of_last {front rest : Text} {last : Char}
    (one : (front ++ [last] ++ rest).IsOneLine) (noFeed : last ≠ '\n') :
    '\n' ∉ front ++ [last] := by
  have inFront : '\n' ∉ front := by
    rw [List.append_assoc] at one
    exact one.unbroken_of_append (by simp)
  intro member
  rcases List.mem_append.1 member with earlier | final
  · exact inFront earlier
  · exact noFeed (List.mem_singleton.1 final).symm

theorem IsEndedLine.of_append_left {front rest : Text} (ended : (front ++ rest).IsEndedLine)
    (more : rest ≠ []) : rest.IsEndedLine := by
  rcases ended.isOneLine.of_append_left.unbroken_or_ended with unbroken | behind
  · rcases ended with ⟨body, _, shape⟩
    have last := congrArg List.getLast? shape
    rw [List.getLast?_append_of_ne_nil _ more, List.getLast?_concat] at last
    exact absurd (List.mem_of_getLast? last) unbroken
  · exact behind

theorem IsEndedLine.append_left {front rest : Text} (ended : rest.IsEndedLine)
    (unbroken : '\n' ∉ front) : (front ++ rest).IsEndedLine := by
  rcases ended with ⟨body, inBody, rfl⟩
  exact ⟨front ++ body, by simp [unbroken, inBody], by simp⟩

/-! ## Lines of a text -/

@[simp] theorem lines_newline (rest : Text) : lines ('\n' :: rest) = ['\n'] :: lines rest := by
  simp [lines]

/-- A line with its line feed is the first line of whatever it begins. -/
theorem lines_append_of_ended {line : Text} (ended : line.IsEndedLine) (rest : Text) :
    lines (line ++ rest) = line :: lines rest := by
  rcases ended with ⟨body, unbroken, rfl⟩
  induction body with
  | nil => simp
  | cons character body ih =>
    rcases not_or.1 (mt List.mem_cons.2 unbroken) with ⟨notFeed, inBody⟩
    have shorter := ih inBody
    simp only [List.cons_append, lines]
    rw [if_neg (Ne.symm notFeed), shorter]

theorem lines_of_unbroken {text : Text} (unbroken : '\n' ∉ text) (filled : text ≠ []) :
    lines text = [text] := by
  induction text with
  | nil => exact absurd rfl filled
  | cons character rest ih =>
    rcases not_or.1 (mt List.mem_cons.2 unbroken) with ⟨notFeed, inRest⟩
    unfold lines
    rw [if_neg (Ne.symm notFeed)]
    cases rest with
    | nil => rfl
    | cons next more => rw [ih inRest (by simp)]

/-- Ended lines put together are taken apart again. -/
theorem lines_flatten_append {pieces : List Text} (ended : ∀ piece ∈ pieces, piece.IsEndedLine)
    (rest : Text) : lines (pieces.flatten ++ rest) = pieces ++ lines rest := by
  induction pieces with
  | nil => rfl
  | cons piece more ih =>
    have first := ended piece List.mem_cons_self
    have later := ih fun other member => ended other (List.mem_cons_of_mem _ member)
    rw [List.flatten_cons, List.append_assoc, lines_append_of_ended first, later,
      List.cons_append]

theorem lines_flatten {pieces : List Text} (ended : ∀ piece ∈ pieces, piece.IsEndedLine) :
    lines pieces.flatten = pieces := by
  simpa using lines_flatten_append ended []

/-- Every text consists of ended lines and a rest without a line feed, and these are its lines. -/
theorem exists_ended_append (text : Text) :
    ∃ (ended : List Text) (rest : Text), (∀ line ∈ ended, line.IsEndedLine) ∧ '\n' ∉ rest ∧
      text = ended.flatten ++ rest := by
  induction text with
  | nil => exact ⟨[], [], by simp, by simp, rfl⟩
  | cons character more ih =>
    rcases ih with ⟨ended, rest, allEnded, unbroken, rfl⟩
    by_cases feed : character = '\n'
    · refine ⟨['\n'] :: ended, rest, ?_, unbroken, by simp [feed]⟩
      intro line member
      rcases List.mem_cons.1 member with rfl | later
      · exact ⟨[], by simp, rfl⟩
      · exact allEnded line later
    · cases ended with
      | nil => exact ⟨[], character :: rest, by simp, by simp [Ne.symm feed, unbroken], rfl⟩
      | cons first others =>
        rcases allEnded first List.mem_cons_self with ⟨body, bodyUnbroken, rfl⟩
        refine ⟨((character :: body) ++ ['\n']) :: others, rest, ?_, unbroken, by simp⟩
        intro line member
        rcases List.mem_cons.1 member with rfl | later
        · exact ⟨character :: body, by simp [Ne.symm feed, bodyUnbroken], rfl⟩
        · exact allEnded line (List.mem_cons_of_mem _ later)

/-- The lines of a text are ended lines, and a last one without a line feed when the text does not
end in one. -/
theorem lines_eq_ended_append (text : Text) :
    ∃ ended : List Text, (∀ line ∈ ended, line.IsEndedLine) ∧
      (lines text = ended ∧ (text = [] ∨ text.getLast? = some '\n') ∨
        ∃ last : Text, last ≠ [] ∧ '\n' ∉ last ∧ lines text = ended ++ [last] ∧
          text.getLast? ≠ some '\n') := by
  rcases exists_ended_append text with ⟨ended, rest, allEnded, unbroken, rfl⟩
  refine ⟨ended, allEnded, ?_⟩
  rw [lines_flatten_append allEnded]
  by_cases none : rest = []
  · subst none
    refine Or.inl ⟨by simp, ?_⟩
    rcases List.eq_nil_or_concat' ended with rfl | ⟨earlier, final, rfl⟩
    · exact Or.inl rfl
    · rcases allEnded final (by simp) with ⟨body, _, rfl⟩
      exact Or.inr (by simp)
  · refine Or.inr ⟨rest, none, unbroken, by rw [lines_of_unbroken unbroken none], ?_⟩
    rw [List.getLast?_append_of_ne_nil _ none]
    exact fun feed => unbroken (List.mem_of_getLast? feed)

theorem ended_of_mem_lines {text line : Text} (ends : text = [] ∨ text.getLast? = some '\n')
    (member : line ∈ lines text) : line.IsEndedLine := by
  rcases lines_eq_ended_append text with ⟨ended, allEnded, ⟨shape, _⟩ | ⟨last, _, _, shape, open_⟩⟩
  · exact allEnded line (shape ▸ member)
  · rcases ends with rfl | feed
    · simp at shape
    · exact absurd feed open_

/-- Behind a text that ends its last line, new lines begin. -/
theorem lines_append_of_ends {text : Text} (ends : text = [] ∨ text.getLast? = some '\n')
    (rest : Text) : lines (text ++ rest) = lines text ++ lines rest := by
  have taken := lines_flatten_append (fun line => ended_of_mem_lines ends) rest
  rwa [flatten_lines] at taken

/-- A line of a text is not empty, and it holds a line feed at its end or nowhere. -/
theorem isOneLine_of_mem_lines {text line : Text} (member : line ∈ lines text) :
    line ≠ [] ∧ line.IsOneLine := by
  rcases lines_eq_ended_append text with
    ⟨ended, allEnded, ⟨shape, _⟩ | ⟨last, filled, unbroken, shape, _⟩⟩
  · have isEnded := allEnded line (shape ▸ member)
    exact ⟨isEnded.ne_nil, isEnded.isOneLine⟩
  · rw [shape] at member
    rcases List.mem_append.1 member with earlier | final
    · have isEnded := allEnded line earlier
      exact ⟨isEnded.ne_nil, isEnded.isOneLine⟩
    · rw [List.mem_singleton.1 final]
      exact ⟨filled, isOneLine_of_unbroken unbroken⟩

/-- In front of a line, the lines of a text are ended. -/
theorem ended_of_lines_eq {text line other : Text} {before after : List Text}
    (shape : lines text = before ++ line :: after) (member : other ∈ before) :
    other.IsEndedLine := by
  rcases lines_eq_ended_append text with ⟨ended, allEnded, ⟨whole, _⟩ | ⟨last, _, _, whole, _⟩⟩
  · exact allEnded other (by rw [← whole, shape]; exact List.mem_append_left _ member)
  · have front : before <+: ended := by
      have shorter : before.length ≤ ended.length := by
        have lengths := congrArg List.length (whole.symm.trans shape)
        simp only [List.length_append, List.length_cons, List.length_nil] at lengths
        omega
      have inBoth : before <+: ended ++ [last] := ⟨line :: after, by rw [← shape, whole]⟩
      exact List.prefix_of_prefix_length_le inBoth (List.prefix_append ended [last]) shorter
    exact allEnded other (front.subset member)

/-- Consecutive lines of a text are the lines of what they make up. -/
theorem lines_flatten_of_infix {text : Text} {pieces : List Text}
    (consecutive : pieces <:+: lines text) : lines pieces.flatten = pieces := by
  rcases consecutive with ⟨before, after, shape⟩
  rcases List.eq_nil_or_concat' pieces with rfl | ⟨earlier, last, rfl⟩
  · rfl
  · have whole : lines text = (before ++ earlier) ++ last :: after := by simp [← shape]
    have inText : last ∈ lines text := by simp [whole]
    have oneLine : lines last = [last] := by
      rcases isOneLine_of_mem_lines inText with ⟨filled, one⟩
      rcases one.unbroken_or_ended with unbroken | ended
      · exact lines_of_unbroken unbroken filled
      · simpa using lines_append_of_ended ended []
    rw [List.flatten_append, List.flatten_singleton, lines_flatten_append fun other member =>
      ended_of_lines_eq whole (List.mem_append_right _ member), oneLine]

/-- A line that lacks its line feed is the last one of a text that does not end in one. -/
theorem last_of_unbroken_line {text line : Text} {index : Nat}
    (found : (lines text)[index]? = some line) (unbroken : '\n' ∉ line) :
    index + 1 = (lines text).length ∧ text ≠ [] ∧ text.getLast? ≠ some '\n' := by
  have notEnded : ¬ line.IsEndedLine := by
    rintro ⟨body, _, rfl⟩
    simp at unbroken
  rcases lines_eq_ended_append text with ⟨ended, allEnded, ⟨shape, _⟩ | ⟨last, _, _, shape, open_⟩⟩
  · rw [shape] at found
    exact absurd (allEnded line (List.mem_of_getElem? found)) notEnded
  · have notEmpty : text ≠ [] := by
      rintro rfl
      simp at shape
    refine ⟨?_, notEmpty, open_⟩
    rw [shape] at found ⊢
    have bound := (List.getElem?_eq_some_iff.1 found).1
    by_cases earlier : index < ended.length
    · rw [List.getElem?_append_left earlier] at found
      exact absurd (allEnded line (List.mem_of_getElem? found)) notEnded
    · simp only [List.length_append, List.length_singleton] at bound ⊢
      omega

/-! ## Final line feeds -/

theorem endsWith_newline_iff {text : Text} :
    text.endsWith ['\n'] = true ↔ text.getLast? = some '\n' :=
  endsWith_singleton_iff

theorem withFinalNewline_ends (text : Text) :
    text.withFinalNewline = [] ∨ text.withFinalNewline.getLast? = some '\n' := by
  unfold withFinalNewline
  split
  · next ends =>
    rw [Bool.or_eq_true] at ends
    exact ends.imp (by simp) (by simp)
  · exact Or.inr (by simp)

theorem withFinalNewline_of_ends {text : Text} (ends : text = [] ∨ text.getLast? = some '\n') :
    text.withFinalNewline = text := by
  unfold withFinalNewline
  rw [if_pos]
  rw [Bool.or_eq_true, List.isEmpty_iff, beq_iff_eq]
  exact ends

/-- Ending the last line of a text changes no other line of it. -/
theorem lines_withFinalNewline (text : Text) :
    text.withFinalNewline.lines = text.lines ∨
      ∃ (ended : List Text) (last : Text), '\n' ∉ last ∧ text.lines = ended ++ [last] ∧
        text.withFinalNewline.lines = ended ++ [last ++ ['\n']] := by
  rcases lines_eq_ended_append text with
    ⟨ended, allEnded, ⟨_, ends⟩ | ⟨last, filled, unbroken, shape, notEnded⟩⟩
  · exact Or.inl (congrArg lines (withFinalNewline_of_ends ends))
  · have whole := flatten_lines text
    rw [shape, List.flatten_append, List.flatten_singleton] at whole
    have notEmpty : text ≠ [] := by simp [← whole, filled]
    have newLine : lines (last ++ ['\n']) = [last ++ ['\n']] := by
      simpa using lines_append_of_ended ⟨last, unbroken, rfl⟩ []
    refine Or.inr ⟨ended, last, unbroken, shape, ?_⟩
    unfold withFinalNewline
    rw [if_neg (by simp [notEmpty, notEnded]), ← whole, List.append_assoc,
      lines_flatten_append allEnded, newLine]

/-- Whether a line has its line feed does not matter once its ending is taken off. -/
theorem withoutEnding_newline {line : Text} (unbroken : '\n' ∉ line) :
    withoutEnding (line ++ ['\n']) = line.withoutEnding := by
  have ends : beforeEnd? (line ++ ['\n']) ['\n'] = some line := beforeEnd?_eq_some_iff.2 rfl
  have unended : line.beforeEnd? ['\n'] = none :=
    beforeEnd?_of_last_ne fun last => unbroken (List.mem_of_getLast? last)
  simp only [withoutEnding, ends, unended, Option.getD_some, Option.getD_none]

/-- A line without its ending has lost nothing but blanks. -/
theorem exists_withoutEnding {body ending : Text} (ends : body.getLast?.any isBlank = false)
    (blank : ∀ character ∈ ending, isBlank character = true) :
    ∃ kept : Text, (body ++ ending).withoutEnding = body ++ kept ∧
      ∀ character ∈ kept, isBlank character = true := by
  rcases exists_beforeEnd? (show isBlank '\n' = true by decide) ends blank with
    ⟨_, same, blank⟩
  rw [withoutEnding]
  simp only [same]
  exact exists_beforeEnd? (by decide) ends blank

/-- A line without its ending has no line feed. -/
theorem unbroken_withoutEnding {line : Text} (one : line.IsOneLine) :
    '\n' ∉ line.withoutEnding := by
  have stripped : '\n' ∉ (line.beforeEnd? ['\n']).getD line := by
    cases cut : line.beforeEnd? ['\n'] with
    | none =>
      rcases one.unbroken_or_ended with unbroken | ⟨body, _, rfl⟩
      · exact unbroken
      · have found := beforeEnd?_eq_some_iff.2 (rfl : body ++ ['\n'] = body ++ ['\n'])
        rw [found] at cut
        cases cut
    | some body =>
      rw [beforeEnd?_eq_some_iff.1 cut] at one
      exact one.unbroken_of_append (by simp)
  unfold withoutEnding
  simp only
  cases cut : ((line.beforeEnd? ['\n']).getD line).beforeEnd? ['\r'] with
  | none => exact stripped
  | some body =>
    rw [beforeEnd?_eq_some_iff.1 cut] at stripped
    exact fun member => stripped (List.mem_append_left _ member)

end Text

end ScriptPreprocessor
