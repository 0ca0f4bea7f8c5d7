import ScriptPreprocessor.Proofs.Macro.Edits
import ScriptPreprocessor.Proofs.Macro.Pieces

namespace ScriptPreprocessor

/-!
# Environments that break lines

Every line of a unit is emitted as one line with one entry in the line map, so expansion must not
change the number of its line feeds.  Definitions never make it do so, because they stand on lines
themselves.  But nothing keeps line feeds out of the texts of an environment, out of predefined
values and out of the names of units, and all of these are put into a line as they are.

When no predefined value has a line feed, lines stay single lines exactly when the texts of the
environment and the name of the unit have none (`MacroTable.keepsLines_edited_iff`).
-/

namespace MacroTable

/-- Every text on one line is expanded to a text with as many line feeds. -/
def KeepsLines (table : MacroTable) (origin : Origin) : Prop :=
  ∀ text : Text, text.IsOneLine →
    (table.expand origin text).text.count '\n' = text.count '\n'

variable {table : MacroTable} {origin : Origin}

theorem keepsLines_of_unbroken (unbroken : table.IsUnbroken) (inUnit : '\n' ∉ origin.unit) :
    table.KeepsLines origin := by
  intro text one
  rcases one.unbroken_or_ended with inText | ended
  · rw [List.count_eq_zero.2 inText, List.count_eq_zero.2 (unbroken_expand unbroken inUnit inText)]
  · rcases ended_expand unbroken inUnit ended with ⟨expanded, inExpanded, shape⟩
    rcases ended with ⟨body, inBody, rfl⟩
    rw [shape, List.count_append, List.count_append, List.count_eq_zero.2 inBody,
      List.count_eq_zero.2 inExpanded]

/-! ## Built-in macros on a line of their own -/

theorem replacement?_fileMacro (table : MacroTable) (origin : Origin) :
    table.replacement? origin fileMacro = some (.builtin (quoted origin.unit)) := rfl

/-- The name of a built-in macro is expanded to what the macro shows. -/
theorem text_expand_of_builtin {name shown : Text} (filled : name ≠ [])
    (letters : ∀ letter ∈ name, isWordCharacter letter = true)
    (known : table.replacement? origin name = some (.builtin shown)) :
    (table.expand origin name).text = shown := by
  rcases List.exists_cons_of_ne_nil filled with ⟨character, rest, same⟩
  have shape := Piece.first_of_word same letters Text.isSeam_nil_right
  rw [List.append_nil] at shape
  rw [expand, same, text_expandActive_of_builtin shape known List.not_mem_nil,
    text_expandActive_nil, List.append_nil]

/-- The names of the built-in macros of an environment are words. -/
theorem word_of_mem_builtins {environment : Environment} {entry : Text × Text}
    (member : entry ∈ environment.builtins) :
    entry.1 ≠ [] ∧ ∀ letter ∈ entry.1, isWordCharacter letter = true := by
  have words : ∀ name ∈ reservedNames.drop 3,
      name ≠ [] ∧ name.all isWordCharacter = true := by decide
  have word := words entry.1 (reserved_of_mem_builtins member)
  exact ⟨word.1, List.all_eq_true.1 word.2⟩

/-- A built-in macro, alone on a line, must not show a line feed. -/
theorem KeepsLines.not_mem_of_builtin (keeps : table.KeepsLines origin) {name shown : Text}
    (filled : name ≠ []) (letters : ∀ letter ∈ name, isWordCharacter letter = true)
    (known : table.replacement? origin name = some (.builtin shown)) : '\n' ∉ shown := by
  have unbroken : '\n' ∉ name := fun member => absurd (letters '\n' member) (by decide)
  have same := keeps name (Text.isOneLine_of_unbroken unbroken)
  rw [text_expand_of_builtin filled letters known, List.count_eq_zero.2 unbroken] at same
  exact List.count_eq_zero.1 same

/-- When predefined values have no line feed, lines stay single lines behind all definitions and
removals exactly when the texts of the environment and the name of the unit have none. -/
theorem keepsLines_edited_iff {environment : Environment} {lines : List Text}
    (one : ∀ line ∈ lines, line.IsOneLine)
    (predefined : ∀ entry ∈ environment.predefined, '\n' ∉ entry.2) (maxDepth : Nat)
    (origin : Origin) :
    ((ofEnvironment environment maxDepth).edited
        (lines.filterMap MacroEdit.ofLine?)).KeepsLines origin ↔
      (∀ text ∈ environment.texts, '\n' ∉ text) ∧ '\n' ∉ origin.unit := by
  rw [← Environment.forall_not_mem_answers_iff (by decide)]
  constructor
  · intro keeps
    have lawful := isLawful_edited environment maxDepth (lines.filterMap MacroEdit.ofLine?)
    refine ⟨fun answer member => ?_, ?_⟩
    · rcases Environment.exists_builtin_of_answer member with ⟨entry, isBuiltin, shows⟩
      have word := word_of_mem_builtins isBuiltin
      have inQuoted := keeps.not_mem_of_builtin word.1 word.2
        (lawful.replacement?_of_mem_builtins isBuiltin origin)
      rw [shows] at inQuoted
      exact fun inAnswer => inQuoted (by simp [quoted, inAnswer])
    · have inQuoted : '\n' ∉ quoted origin.unit :=
        keeps.not_mem_of_builtin (by decide) (List.all_eq_true.1 rfl)
          (replacement?_fileMacro _ origin)
      exact fun inUnit => inQuoted (by simp [quoted, inUnit])
  · rintro ⟨inAnswers, inUnit⟩
    have builtins : ∀ entry ∈ environment.builtins, '\n' ∉ entry.2 := by
      intro entry member
      rcases Environment.text_of_mem_builtins member with ⟨answer, isAnswer, shows⟩ | number
      · rw [shows]
        simp [quoted, inAnswers answer isAnswer]
      · rw [number]
        exact unbroken_ofNat _
    have start := isUnbroken_ofEnvironment maxDepth builtins predefined
    exact keepsLines_of_unbroken (start.edited one) inUnit

/-- The macros of an environment whose texts stand on lines, behind a definition. -/
theorem keepsLines_edited_defined :
    let environment : Environment :=
      { Environment.bare with
        agentName := "A B".toList
        predefined := [("X".toList, "a".toList)] }
    let lines : List Text := ["#define Y X X\n".toList]
    (∀ line ∈ lines, line.IsOneLine) ∧ (∀ entry ∈ environment.predefined, '\n' ∉ entry.2) ∧
      ((ofEnvironment environment 32).edited
        (lines.filterMap MacroEdit.ofLine?)).KeepsLines ⟨"main".toList, 2⟩ := by
  intro environment lines
  have one : ∀ line ∈ lines, line.IsOneLine := by
    unfold Text.IsOneLine
    decide
  have predefined : ∀ entry ∈ environment.predefined, '\n' ∉ entry.2 := by decide
  exact ⟨one, predefined,
    (keepsLines_edited_iff one predefined 32 ⟨"main".toList, 2⟩).2 ⟨by decide, by decide⟩⟩

/-- A line feed in the name of the agent, in the name of the unit or in a predefined value makes two
lines of one. -/
theorem expand_breaks_lines :
    let environment : Environment :=
      { Environment.bare with
        agentName := "A\nB".toList
        predefined := [("X".toList, "a\nb".toList)] }
    let table := (ofEnvironment environment 32).edited []
    let origin : Origin := ⟨"m\nn".toList, 1⟩
    (table.expand origin "__AGENT_NAME__".toList).text = "\"A\nB\"".toList ∧
      (table.expand origin "__FILE__".toList).text = "\"m\nn\"".toList ∧
      (table.expand origin "X".toList).text = "a\nb".toList ∧
      ¬ table.KeepsLines origin := by
  intro environment table origin
  have agent : (table.expand origin "__AGENT_NAME__".toList).text = "\"A\nB\"".toList :=
    text_expand_of_builtin (by decide) (List.all_eq_true.1 rfl) rfl
  have unit : (table.expand origin "__FILE__".toList).text = "\"m\nn\"".toList :=
    text_expand_of_builtin (by decide) (List.all_eq_true.1 rfl) rfl
  have value : (table.expand origin "X".toList).text = "a\nb".toList := by
    have shape : Piece.first 'X' [] = (.word "X".toList, []) := rfl
    have body : (table.expandActive origin ["X".toList] "a\nb".toList).text = "a\nb".toList :=
      text_expandActive_of_absent (by decide)
    refine (text_expandActive_of_object _ _ shape rfl (by decide) (by decide)).trans ?_
    rw [body, text_expandActive_nil, List.append_nil]
  refine ⟨agent, unit, value, fun keeps => ?_⟩
  have same := keeps "X".toList (by unfold Text.IsOneLine; decide)
  rw [value] at same
  exact absurd same (by decide)

end MacroTable

end ScriptPreprocessor
