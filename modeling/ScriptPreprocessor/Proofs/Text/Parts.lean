import Mathlib.Data.List.Infix
import Mathlib.Data.List.TakeWhile
import ScriptPreprocessor.Text.Blank
import ScriptPreprocessor.Text.Search

namespace ScriptPreprocessor

/-!
# Beginnings and endings

Taking away a known beginning or ending succeeds exactly when the text has it, and the answer is
then the rest; splitting at an occurrence loses nothing but the occurrence, and the parts between
the places of a character, joined by it, are the text.  Trimming and running to a mark leave a part
of the text, so neither adds a character.  What is put in front of a text and behind it is found
again by looking for the first character of another kind.
-/

namespace Text

theorem afterStart?_eq_some_iff {text start rest : Text} :
    text.afterStart? start = some rest ↔ text = start ++ rest := by
  unfold afterStart?
  induction start generalizing text with
  | nil => simp [List.isPrefixOf?]
  | cons character start ih =>
    cases text with
    | nil => simp [List.isPrefixOf?]
    | cons first text =>
      unfold List.isPrefixOf?
      by_cases same : character = first
      · subst same
        simp [ih]
      · simp [same, Ne.symm same]

theorem beforeEnd?_eq_some_iff {text ending front : Text} :
    text.beforeEnd? ending = some front ↔ text = front ++ ending := by
  unfold beforeEnd? List.isSuffixOf?
  have turned := @afterStart?_eq_some_iff text.reverse ending.reverse front.reverse
  unfold afterStart? at turned
  rw [Option.map_eq_some_iff]
  constructor
  · rintro ⟨rest, found, rfl⟩
    rw [List.reverse_reverse] at turned
    have whole := congrArg List.reverse (turned.1 found)
    simpa using whole
  · rintro rfl
    exact ⟨front.reverse, turned.2 (by simp), by simp⟩

theorem startsWith_singleton_iff {text : Text} {mark : Char} :
    text.startsWith [mark] = true ↔ text.head? = some mark := by
  unfold startsWith
  rw [List.isPrefixOf_iff_prefix, List.singleton_prefix_iff_head?_eq_some]

theorem endsWith_singleton_iff {text : Text} {mark : Char} :
    text.endsWith [mark] = true ↔ text.getLast? = some mark := by
  unfold endsWith
  rw [List.isSuffixOf_iff_suffix, List.getLast?_eq_some_iff]
  exact ⟨fun ⟨front, whole⟩ => ⟨front, whole.symm⟩, fun ⟨front, whole⟩ => ⟨front, whole.symm⟩⟩

theorem beforeEnd?_of_last_ne {body : Text} {last : Char} (differs : body.getLast? ≠ some last) :
    body.beforeEnd? [last] = none := by
  cases cut : body.beforeEnd? [last] with
  | none => rfl
  | some front =>
    rw [beforeEnd?_eq_some_iff.1 cut] at differs
    exact absurd List.getLast?_concat differs

/-- A blank at the end is taken off from what is blank behind a body. -/
theorem exists_beforeEnd? {body ending : Text} {mark : Char} (isMark : isBlank mark = true)
    (ends : body.getLast?.any isBlank = false)
    (blank : ∀ character ∈ ending, isBlank character = true) :
    ∃ kept : Text, ((body ++ ending).beforeEnd? [mark]).getD (body ++ ending) = body ++ kept ∧
      ∀ character ∈ kept, isBlank character = true := by
  cases cut : (body ++ ending).beforeEnd? [mark] with
  | none => exact ⟨ending, rfl, blank⟩
  | some front =>
    have shape := beforeEnd?_eq_some_iff.1 cut
    rcases List.eq_nil_or_concat ending with rfl | ⟨kept, last, rfl⟩
    · rw [List.append_nil] at shape
      rw [shape, List.getLast?_concat, Option.any_some, isMark] at ends
      cases ends
    · rw [List.concat_eq_append, ← List.append_assoc] at shape
      rw [Option.getD_some, ← List.append_inj_left' shape rfl]
      exact ⟨kept, rfl, fun _ member => blank _ (by simp [member])⟩

/-! ## Parts of a text -/

/-- A text is trimmed to nothing when it has blanks only. -/
theorem trim_eq_nil_iff {text : Text} :
    text.trim = [] ↔ ∀ character ∈ text, isBlank character = true := by
  have split := List.takeWhile_append_dropWhile (p := isBlank) (l := text)
  unfold trim trimWhile dropEndWhile
  rw [List.reverse_eq_nil_iff, List.dropWhile_eq_nil_iff]
  constructor
  · intro rest character member
    rw [← split] at member
    rcases List.mem_append.1 member with inFront | behind
    · exact List.mem_takeWhile_imp inFront
    · exact rest character (List.mem_reverse.2 behind)
  · intro blanks character member
    exact blanks character ((List.dropWhile_sublist isBlank).subset (List.mem_reverse.1 member))

/-! ## Runs -/

theorem head?_dropWhile (test : Char → Bool) (text : Text) :
    (text.dropWhile test).head?.any test = false := by
  cases behind : text.dropWhile test with
  | nil => rfl
  | cons character rest =>
    have fails := List.head_dropWhile_not test (l := text) (by simp [behind])
    simpa [behind] using fails

theorem edges_of_forall {test : Char → Bool} {text : Text}
    (outside : ∀ character ∈ text, test character = false) :
    text.head?.any test = false ∧ text.getLast?.any test = false := by
  constructor
  · cases first : text.head? with
    | none => rfl
    | some character => exact outside character (List.mem_of_mem_head? first)
  · cases last : text.getLast? with
    | none => rfl
    | some character => exact outside character (List.mem_of_getLast? last)

/-- A run ends in front of what does not belong to it. -/
theorem takeWhile_dropWhile_append {test : Char → Bool} {front rest : Text}
    (all : ∀ character ∈ front, test character = true) (stops : rest.head?.any test = false) :
    (front ++ rest).takeWhile test = front ∧ (front ++ rest).dropWhile test = rest := by
  rw [List.takeWhile_append_of_pos all, List.dropWhile_append_of_pos all]
  cases rest with
  | nil => simp
  | cons character more =>
    have outside : ¬ test character = true := by simpa using stops
    rw [List.takeWhile_cons_of_neg outside, List.dropWhile_cons_of_neg outside, List.append_nil]
    exact ⟨rfl, rfl⟩

theorem exists_dropEndWhile (test : Char → Bool) (text : Text) :
    ∃ suffix : Text, text = text.dropEndWhile test ++ suffix ∧
      ∀ letter ∈ suffix, test letter = true := by
  refine ⟨(text.reverse.takeWhile test).reverse, ?_, fun letter member => ?_⟩
  · rw [dropEndWhile, ← List.reverse_append, List.takeWhile_append_dropWhile,
      List.reverse_reverse]
  · exact List.mem_takeWhile_imp (List.mem_reverse.1 member)

theorem dropEndWhile_append {test : Char → Bool} {front suffix : Text}
    (noEnding : front.getLast?.any test = false) (all : ∀ letter ∈ suffix, test letter = true) :
    (front ++ suffix).dropEndWhile test = front := by
  have behind : ∀ letter ∈ suffix.reverse, test letter = true :=
    fun letter member => all letter (List.mem_reverse.1 member)
  rw [← List.head?_reverse] at noEnding
  rw [dropEndWhile, List.reverse_append, (takeWhile_dropWhile_append behind noEnding).2,
    List.reverse_reverse]

theorem trimStart_eq_self {text : Text} (starts : text.head?.any isBlank = false) :
    text.trimStart = text := by
  cases text with
  | nil => rfl
  | cons character rest => exact List.dropWhile_cons_of_neg (by simpa using starts)

/-- Blanks around a body are trimmed away. -/
theorem trim_append {front body ending : Text}
    (frontBlank : ∀ character ∈ front, isBlank character = true)
    (blank : ∀ character ∈ ending, isBlank character = true)
    (starts : body.head?.any isBlank = false) (ends : body.getLast?.any isBlank = false) :
    (front ++ body ++ ending).trim = body := by
  cases body with
  | nil =>
    refine trim_eq_nil_iff.2 ?_
    rw [List.append_nil]
    exact List.forall_mem_append.2 ⟨frontBlank, blank⟩
  | cons character more =>
    rw [trim, trimWhile, List.append_assoc, List.dropWhile_append_of_pos frontBlank,
      List.cons_append, List.dropWhile_cons_of_neg (by simpa using starts), ← List.cons_append]
    exact dropEndWhile_append ends blank

/-! ## Splitting -/

theorem splitOn_ne_nil (text : Text) (separator : Char → Bool) : text.splitOn separator ≠ [] := by
  cases text with
  | nil => simp [splitOn]
  | cons character rest =>
    unfold splitOn
    split
    · exact List.cons_ne_nil _ _
    · split <;> exact List.cons_ne_nil _ _

/-- A separator divides the parts in front of it from those behind it. -/
theorem splitOn_append_cons (separator : Char → Bool) {mark : Char}
    (isMark : separator mark = true) (before after : Text) :
    (before ++ mark :: after).splitOn separator =
      before.splitOn separator ++ after.splitOn separator := by
  induction before with
  | nil => simp [splitOn, isMark]
  | cons character rest ih =>
    rw [List.cons_append, splitOn, splitOn, ih]
    by_cases found : separator character = true
    · rw [if_pos found, if_pos found, List.cons_append]
    · rw [if_neg found, if_neg found]
      cases shape : splitOn rest separator with
      | nil => exact absurd shape (splitOn_ne_nil rest separator)
      | cons part parts => simp only [List.cons_append]

theorem splitOn_of_not_mem {text : Text} {mark : Char} (absent : mark ∉ text) :
    text.splitOn (· == mark) = [text] := by
  induction text with
  | nil => rfl
  | cons character rest ih =>
    rw [List.mem_cons, not_or] at absent
    rw [splitOn, if_neg (by simpa using Ne.symm absent.1), ih absent.2]

theorem not_mem_of_mem_splitOn {text part : Text} {mark : Char}
    (member : part ∈ text.splitOn (· == mark)) : mark ∉ part := by
  induction text generalizing part with
  | nil =>
    rw [List.mem_singleton.1 member]
    exact List.not_mem_nil
  | cons character rest ih =>
    unfold splitOn at member
    split at member
    · rcases List.mem_cons.1 member with rfl | later
      · exact List.not_mem_nil
      · exact ih later
    · next other =>
      split at member
      · next shape => exact absurd shape (splitOn_ne_nil rest _)
      · next head parts shape =>
        rw [shape] at ih
        rcases List.mem_cons.1 member with rfl | later
        · exact List.not_mem_cons_of_ne_of_not_mem (Ne.symm (by simpa using other))
            (ih List.mem_cons_self)
        · exact ih (List.mem_cons_of_mem _ later)

/-- Parts without the separator are found again when they are joined by it. -/
theorem splitOn_join {parts : List Text} {mark : Char} (filled : parts ≠ [])
    (absent : ∀ part ∈ parts, mark ∉ part) :
    (join [mark] parts).splitOn (· == mark) = parts := by
  induction parts with
  | nil => exact absurd rfl filled
  | cons part rest ih =>
    have here := splitOn_of_not_mem (absent part List.mem_cons_self)
    cases rest with
    | nil => exact here
    | cons next more =>
      have later := ih (List.cons_ne_nil _ _)
        fun other member => absent other (List.mem_cons_of_mem _ member)
      rw [join, List.append_assoc, List.singleton_append,
        splitOn_append_cons (· == mark) (beq_self_eq_true mark), here, later]
      rfl

/-- The parts of a text, joined by the separator, are the text. -/
theorem join_splitOn (text : Text) (mark : Char) :
    join [mark] (text.splitOn (· == mark)) = text := by
  induction text with
  | nil => rfl
  | cons character rest ih =>
    unfold splitOn
    cases shape : splitOn rest (· == mark) with
    | nil => exact absurd shape (splitOn_ne_nil rest _)
    | cons part parts =>
      rw [shape] at ih
      split
      · next found =>
        rw [join, ih, beq_iff_eq.1 found]
        rfl
      · rw [← ih]
        cases parts <;> rfl

/-- What comes before and after an occurrence, with the occurrence between them, is the text. -/
theorem eq_of_splitFirst? {text sought before after : Text}
    (found : splitFirst? text sought = some (before, after)) :
    text = before ++ sought ++ after := by
  induction text generalizing before with
  | nil =>
    unfold splitFirst? at found
    split at found
    · next empty =>
      cases found
      simp [List.isEmpty_iff.1 empty]
    · cases found
  | cons character rest ih =>
    unfold splitFirst? at found
    split at found
    · next tail begins =>
      cases found
      exact afterStart?_eq_some_iff.1 begins
    · rcases Option.map_eq_some_iff.1 found with ⟨⟨front, back⟩, inner, shape⟩
      cases shape
      rw [ih inner]
      rfl

/-- A text is divided at the first place of a character. -/
theorem splitFirst?_singleton_eq_some_iff {text before after : Text} {mark : Char} :
    text.splitFirst? [mark] = some (before, after) ↔
      text = before ++ mark :: after ∧ mark ∉ before := by
  induction text generalizing before with
  | nil => simp [splitFirst?]
  | cons character rest ih =>
    unfold splitFirst?
    by_cases found : mark = character
    · subst found
      have begins : afterStart? (mark :: rest) [mark] = some rest := afterStart?_eq_some_iff.2 rfl
      rw [begins]
      cases before with
      | nil => simp
      | cons first front => simp +contextual [eq_comm]
    · have elsewhere : afterStart? (character :: rest) [mark] = none := by
        simp [afterStart?, List.isPrefixOf?, found]
      rw [elsewhere]
      constructor
      · intro mapped
        rcases Option.map_eq_some_iff.1 mapped with ⟨⟨front, back⟩, inner, same⟩
        cases same
        rcases ih.1 inner with ⟨rfl, absent⟩
        exact ⟨rfl, List.not_mem_cons_of_ne_of_not_mem found absent⟩
      · rintro ⟨shape, absent⟩
        cases before with
        | nil =>
          cases shape
          exact absurd rfl found
        | cons first front =>
          cases shape
          have inner := ih.2 ⟨rfl, List.not_mem_of_not_mem_cons absent⟩
          simp only [inner, Option.map_some]

theorem splitLast?_eq_none_iff {text : Text} {mark : Char} :
    text.splitLast? mark = none ↔ mark ∉ text := by
  induction text with
  | nil => simp [splitLast?]
  | cons character rest ih =>
    unfold splitLast?
    cases later : splitLast? rest mark with
    | some pair =>
      have member : mark ∈ rest := by
        by_contra absent
        rw [ih.2 absent] at later
        cases later
      simp [member]
    | none =>
      have absent := ih.1 later
      by_cases found : character = mark
      · simp [found]
      · simp [found, Ne.symm found, absent]

/-- A text is divided at the last place of a character. -/
theorem eq_of_splitLast? {text before after : Text} {mark : Char}
    (found : text.splitLast? mark = some (before, after)) :
    text = before ++ mark :: after ∧ mark ∉ after := by
  induction text generalizing before with
  | nil => cases found
  | cons character rest ih =>
    unfold splitLast? at found
    split at found
    · next front back inner =>
      cases found
      rcases ih inner with ⟨rfl, absent⟩
      exact ⟨rfl, absent⟩
    · next notLater =>
      split at found
      · next here =>
        cases found
        rw [beq_iff_eq.1 here]
        exact ⟨rfl, splitLast?_eq_none_iff.1 notLater⟩
      · cases found

end Text

end ScriptPreprocessor
