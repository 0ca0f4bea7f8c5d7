import ScriptPreprocessor.Proofs.Text.Lines

namespace ScriptPreprocessor

/-!
# Occurrences

A text contains another when that is an infix of it, and its first occurrence stays the first when
text is appended.  A text that runs over the end of a line occurs in two consecutive lines
(`exists_consecutive_of_infix`), so lines that do not begin with its second part may be appended
without bringing it in (`infix_of_append`).

Replacing goes on behind an occurrence (`replaceFrom_append_left`) and leaves a text without one as
it is (`replaceAll_of_not_infix`).  Replacing a text within a line keeps the number of line feeds.
-/

namespace Text

/-- A text that begins with another is divided behind it. -/
theorem splitFirst?_append_left {sought : Text} (filled : sought ≠ []) (after : Text) :
    splitFirst? (sought ++ after) sought = some ([], after) := by
  cases sought with
  | nil => exact absurd rfl filled
  | cons first rest =>
    have begins : afterStart? (first :: rest ++ after) (first :: rest) = some after :=
      afterStart?_eq_some_iff.2 rfl
    rw [List.cons_append] at begins ⊢
    unfold splitFirst?
    rw [begins]

/-- A text in which another does not begin is divided behind its first character. -/
theorem splitFirst?_cons_of_differs {character : Char} {rest sought : Text}
    (differs : ¬ sought <+: character :: rest) :
    splitFirst? (character :: rest) sought =
      (splitFirst? rest sought).map fun (before, after) => (character :: before, after) := by
  have notHere : afterStart? (character :: rest) sought = none := by
    rw [Option.eq_none_iff_forall_ne_some]
    intro tail begins
    exact differs ⟨tail, (afterStart?_eq_some_iff.1 begins).symm⟩
  rw [splitFirst?, notHere]

theorem exists_splitFirst? (before sought after : Text) :
    ∃ pair, splitFirst? (before ++ sought ++ after) sought = some pair := by
  induction before with
  | nil =>
    cases sought with
    | nil =>
      cases after with
      | nil => exact ⟨([], []), rfl⟩
      | cons character rest => exact ⟨([], character :: rest), rfl⟩
    | cons first rest => exact ⟨_, splitFirst?_append_left (List.cons_ne_nil first rest) after⟩
  | cons character front ih =>
    rcases ih with ⟨⟨earlier, later⟩, found⟩
    rw [List.cons_append, List.cons_append]
    unfold splitFirst?
    split
    · exact ⟨_, rfl⟩
    · rw [found]
      exact ⟨_, rfl⟩

/-- A text contains its infixes. -/
theorem contains_iff_occurs {text sought : Text} :
    text.contains sought = true ↔ sought <:+: text := by
  unfold contains
  rw [Option.isSome_iff_exists]
  constructor
  · rintro ⟨⟨before, after⟩, found⟩
    exact ⟨before, after, (eq_of_splitFirst? found).symm⟩
  · rintro ⟨before, after, rfl⟩
    exact exists_splitFirst? before sought after

theorem splitFirst?_eq_none_iff {text sought : Text} :
    splitFirst? text sought = none ↔ ¬ sought <:+: text := by
  rw [← contains_iff_occurs]
  unfold contains
  cases splitFirst? text sought <;> simp

/-- The first occurrence stays the first when text is appended. -/
theorem splitFirst?_append {text sought before after : Text}
    (found : splitFirst? text sought = some (before, after)) (more : Text) :
    splitFirst? (text ++ more) sought = some (before, after ++ more) := by
  induction text generalizing before with
  | nil =>
    unfold splitFirst? at found
    split at found
    · next empty =>
      cases found
      rw [List.isEmpty_iff.1 empty]
      cases more <;> rfl
    · cases found
  | cons character rest ih =>
    rw [List.cons_append]
    unfold splitFirst? at found
    split at found
    · next tail begins =>
      cases found
      have whole := afterStart?_eq_some_iff.1 begins
      have stillBegins :
          afterStart? (character :: (rest ++ more)) sought = some (after ++ more) := by
        rw [afterStart?_eq_some_iff, ← List.cons_append, whole, List.append_assoc]
      rw [splitFirst?, stillBegins]
    · next notHere =>
      rcases Option.map_eq_some_iff.1 found with ⟨⟨front, back⟩, inner, shape⟩
      cases shape
      -- The rest is long enough to hold the text, so nothing new begins here.
      have room : sought.length ≤ (character :: rest).length := by
        rw [eq_of_splitFirst? inner]
        simp only [List.length_cons, List.length_append]
        omega
      have stillDiffers : ¬ sought <+: character :: (rest ++ more) := by
        intro longer
        rcases List.prefix_of_prefix_length_le longer (List.prefix_append (character :: rest) more)
          room with ⟨remaining, whole⟩
        rw [afterStart?_eq_some_iff.2 whole.symm] at notHere
        cases notHere
      rw [splitFirst?_cons_of_differs stillDiffers, ih inner]
      rfl

/-! ## Occurrences over the end of a line -/

/-- A line feed stands at the end of an ended line only. -/
theorem IsEndedLine.not_occurs {line front back : Text} (ended : line.IsEndedLine)
    (filled : back ≠ []) : ¬ front ++ '\n' :: back <:+: line := by
  rintro ⟨before, after, whole⟩
  have one := ended.isOneLine
  rw [← whole] at one
  have split : before ++ (front ++ '\n' :: back) ++ after =
      (before ++ front ++ ['\n']) ++ (back ++ after) := by simp
  rw [split] at one
  exact one.unbroken_of_append (by simp [filled]) (by simp)

/-- What runs over the end of a line stands at the end of one line and the beginning of the
next. -/
theorem exists_consecutive_of_infix {pieces : List Text} {front back : Text}
    (ended : ∀ piece ∈ pieces, piece.IsEndedLine) (inFront : '\n' ∉ front) (inBack : '\n' ∉ back)
    (filled : back ≠ []) (occurs : front ++ '\n' :: back <:+: pieces.flatten) :
    ∃ (before after : List Text) (line next : Text),
      pieces = before ++ line :: next :: after ∧ front ++ ['\n'] <:+ line ∧ back <+: next := by
  induction pieces with
  | nil => simp at occurs
  | cons piece more ih =>
    have first := ended piece List.mem_cons_self
    have later : ∀ other ∈ more, other.IsEndedLine := fun other member =>
      ended other (List.mem_cons_of_mem _ member)
    rw [List.flatten_cons, List.infix_append_iff_ne_nil] at occurs
    rcases occurs with inPiece | inMore | ⟨left, right, someLeft, someRight, split, atEnd, atStart⟩
    · exact absurd inPiece (first.not_occurs filled)
    · rcases ih later inMore with ⟨before, after, line, next, rfl, endsLine, beginsNext⟩
      exact ⟨piece :: before, after, line, next, rfl, endsLine, beginsNext⟩
    · -- The part in the first line ends at its line feed, which is the only one.
      have leftEnded : Text.IsEndedLine left := by
        rcases atEnd with ⟨earlier, whole⟩
        rw [← whole] at first
        exact first.of_append_left someLeft
      rcases leftEnded with ⟨body, inBody, rfl⟩
      rw [List.append_assoc, List.singleton_append] at split
      rcases (List.append_cons_inj_of_notMem inFront inBack).1 split with ⟨rfl, _, rfl⟩
      cases more with
      | nil => exact absurd (List.prefix_nil.1 atStart) someRight
      | cons next rest =>
        refine ⟨[], rest, piece, next, rfl, atEnd, ?_⟩
        rcases List.prefix_or_prefix_of_prefix atStart (List.prefix_append next rest.flatten) with
          begins | within
        · exact begins
        · rcases later next List.mem_cons_self with ⟨body, _, rfl⟩
          exact absurd (within.subset (by simp)) inBack

/-- Lines that do not begin with the second part of a text do not bring it in. -/
theorem infix_of_append {lines more : List Text} {front back : Text}
    (ended : ∀ line ∈ lines ++ more, line.IsEndedLine) (inFront : '\n' ∉ front)
    (inBack : '\n' ∉ back) (filled : back ≠ [])
    (differs : ∀ line ∈ more, ¬ back <+: line)
    (occurs : front ++ '\n' :: back <:+: (lines ++ more).flatten) :
    front ++ '\n' :: back <:+: lines.flatten := by
  rcases exists_consecutive_of_infix ended inFront inBack filled occurs with
    ⟨before, after, line, next, shape, ⟨front', wholeLine⟩, ⟨back', wholeNext⟩⟩
  have grouped : lines ++ more = (before ++ [line, next]) ++ after := by simp [shape]
  have inLines (later : List Text) (taken : lines = before ++ [line, next] ++ later) :
      front ++ '\n' :: back <:+: lines.flatten := by
    refine ⟨before.flatten ++ front', back' ++ later.flatten, ?_⟩
    rw [taken, ← wholeLine, ← wholeNext]
    simp
  rcases List.append_eq_append_iff.1 grouped with ⟨extra, longer, inMore⟩ | ⟨later, taken, _⟩
  · rcases List.eq_nil_or_concat' extra with rfl | ⟨earlier, last, rfl⟩
    · exact inLines [] (by simpa using longer.symm)
    · have final := congrArg List.getLast? longer
      simp only [List.getLast?_append, List.getLast?_cons_cons, List.getLast?_singleton,
        Option.some_or, Option.some.injEq] at final
      exact absurd ⟨back', wholeNext⟩ (differs next (by simp [inMore, final]))
  · exact inLines later taken

/-! ## Replacements -/

theorem replaceFrom_cons_of_differs {character : Char} {rest sought : Text}
    (differs : ¬ sought <+: character :: rest) (replacement : Text) :
    replaceFrom sought replacement 0 (character :: rest) =
      character :: replaceFrom sought replacement 0 rest := by
  have notHere : startsWith (character :: rest) sought = false := by
    rw [← Bool.not_eq_true]
    exact mt List.isPrefixOf_iff_prefix.1 differs
  rw [replaceFrom, notHere, if_neg Bool.false_ne_true]

theorem replaceFrom_length_append (sought replacement front rest : Text) :
    replaceFrom sought replacement front.length (front ++ rest) =
      replaceFrom sought replacement 0 rest := by
  induction front with
  | nil => rfl
  | cons character front ih => exact ih

/-- An occurrence in front is replaced, and then what follows it. -/
theorem replaceFrom_append_left {sought : Text} (filled : sought ≠ [])
    (replacement rest : Text) :
    replaceFrom sought replacement 0 (sought ++ rest) =
      replacement ++ replaceFrom sought replacement 0 rest := by
  cases sought with
  | nil => exact absurd rfl filled
  | cons first more =>
    have begins : startsWith (first :: (more ++ rest)) (first :: more) = true :=
      List.isPrefixOf_iff_prefix.2 (List.prefix_append (first :: more) rest)
    rw [List.cons_append, replaceFrom, if_pos begins, List.length_cons, Nat.add_sub_cancel,
      replaceFrom_length_append]

/-- A text stays as it is when what is to be replaced does not occur in it. -/
theorem replaceAll_of_not_infix {text sought : Text} (filled : sought ≠ [])
    (absent : ¬ sought <:+: text) (replacement : Text) :
    text.replaceAll sought replacement = text := by
  rw [replaceAll, if_neg (by simpa using filled)]
  induction text with
  | nil => rfl
  | cons character rest ih =>
    rw [replaceFrom_cons_of_differs (mt List.IsPrefix.isInfix absent),
      ih (mt (List.infix_cons) absent)]

/-! ## Characters in replacements -/

/-- A character that stands equally often in a text and in what replaces it keeps its number.  The
characters that are skipped are counted with the occurrence that they belong to. -/
theorem count_replaceFrom {sought replacement : Text} {character : Char} (filled : sought ≠ [])
    (same : sought.count character = replacement.count character) (skip : Nat) (text : Text) :
    (replaceFrom sought replacement skip text).count character +
      (text.take skip).count character = text.count character := by
  induction text generalizing skip with
  | nil => cases skip <;> rfl
  | cons first rest ih =>
    cases skip with
    | succ skip =>
      have later := ih skip
      unfold replaceFrom
      rw [List.take_succ_cons, List.count_cons, List.count_cons]
      omega
    | zero =>
      have nothing : ((first :: rest).take 0).count character = 0 := rfl
      unfold replaceFrom
      rw [nothing, Nat.add_zero]
      split
      · next begins =>
        rcases List.isPrefixOf_iff_prefix.1 begins with ⟨after, whole⟩
        cases sought with
        | nil => exact absurd rfl filled
        | cons begin more =>
          rw [List.cons_append, List.cons.injEq] at whole
          have later := ih more.length
          rw [← whole.2, List.take_left] at later
          rw [List.length_cons, Nat.add_sub_cancel, List.count_append, ← same, ← whole.1,
            ← whole.2, List.count_cons, List.count_cons]
          omega
      · have later := ih 0
        rw [List.take_zero, List.count_nil, Nat.add_zero] at later
        rw [List.count_cons, List.count_cons, later]

/-- Replacing a text by one with equally many of a character keeps the number of that character. -/
theorem count_replaceAll {sought replacement : Text} {character : Char} (filled : sought ≠ [])
    (same : sought.count character = replacement.count character) (text : Text) :
    (text.replaceAll sought replacement).count character = text.count character := by
  have counted := count_replaceFrom filled same 0 text
  rw [List.take_zero, List.count_nil, Nat.add_zero] at counted
  unfold replaceAll
  rwa [if_neg (by simp [filled])]

end Text

end ScriptPreprocessor
