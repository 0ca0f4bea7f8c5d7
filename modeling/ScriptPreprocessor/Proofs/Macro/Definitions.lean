import ScriptPreprocessor.Macro.Table
import ScriptPreprocessor.Proofs.Text.Spelling

namespace ScriptPreprocessor

/-!
# Definitions and removals

The argument of a `#define` line is read exactly when it is written well, and as it is written
(`Macro.parseDefinition_eq_ok_iff`).  A table takes a definition exactly when the name is definable
and free, and a removal when the name is definable.  The table behind them is given by an equation,
so that what they keep is proved without opening them again.  The table at the beginning of a run
comes about by definitions (`MacroTable.ofEnvironment_induction`).
-/

/-! ## Written definitions -/

/-- A list of parameters is written with commas between its places.  A place holds a parameter with
blanks around it, or only blanks. -/
def Macro.IsParameterList (list : Text) (parameters : List Text) : Prop :=
  ∃ places : List Text, places ≠ [] ∧ (∀ place ∈ places, ',' ∉ place) ∧
    list = Text.join [','] places ∧
    parameters = (places.map Text.trim).filter (fun place => !place.isEmpty) ∧
    ∀ parameter ∈ parameters, parameter.isIdentifier = true

/-- The argument of a `#define` line, with the name that stands in front and the macro that it
describes. -/
inductive Macro.IsWritten : Text → Text → Macro → Prop
  | bare {name : Text} (word : ∀ letter ∈ name, isWordCharacter letter = true) :
    IsWritten name name (.object [])
  | object {name body : Text} {blank : Char} (word : ∀ letter ∈ name, isWordCharacter letter = true)
    (isBlank : isBlank blank = true) : IsWritten (name ++ blank :: body) name (.object body.trim)
  | function {name list body : Text} {parameters : List Text}
    (word : ∀ letter ∈ name, isWordCharacter letter = true) (unclosed : ')' ∉ list)
    (listed : IsParameterList list parameters) :
    IsWritten (name ++ '(' :: (list ++ ')' :: body)) name (.function parameters body.trim)

namespace Macro

theorem parameters?_eq_some_iff {list : Text} {parameters : List Text} :
    parameters? list = some parameters ↔ IsParameterList list parameters := by
  unfold parameters? IsParameterList
  constructor
  · intro found
    simp only at found
    split at found
    · next identifiers =>
      cases found
      exact ⟨list.splitOn (· == ','), Text.splitOn_ne_nil _ _,
        fun _ => Text.not_mem_of_mem_splitOn, (Text.join_splitOn list ',').symm, rfl,
        List.all_eq_true.1 identifiers⟩
    · cases found
  · rintro ⟨places, filled, absent, rfl, rfl, identifiers⟩
    rw [Text.splitOn_join filled absent]
    exact if_pos (List.all_eq_true.2 identifiers)

/-- A definition that is read was written well. -/
theorem isWritten_of_parseDefinition {argument name : Text} {definition : Macro}
    (parsed : parseDefinition argument = .ok (name, definition)) :
    IsWritten argument name definition := by
  have whole := argument.leadingWord_append_afterWord
  have word : ∀ letter ∈ argument.leadingWord, isWordCharacter letter = true :=
    fun _ => List.mem_takeWhile_imp
  unfold parseDefinition at parsed
  generalize argument.leadingWord = front at whole word parsed
  split at parsed
  · next rest opening =>
    rw [opening] at whole
    split at parsed
    · cases parsed
    · next list body found =>
      split at parsed
      · cases parsed
      · next parameters listed =>
        cases parsed
        rcases Text.splitFirst?_singleton_eq_some_iff.1 found with ⟨rfl, unclosed⟩
        rw [← whole]
        exact .function word unclosed (parameters?_eq_some_iff.1 listed)
  · next ending =>
    cases parsed
    rw [ending, List.append_nil] at whole
    rw [← whole]
    exact .bare word
  · next first rest _ behind =>
    rw [behind] at whole
    split at parsed
    · next blank =>
      cases parsed
      rw [← whole]
      exact .object word blank
    · cases parsed

/-- A definition that is written well is read as it is written. -/
theorem IsWritten.parseDefinition_eq {argument name : Text} {definition : Macro}
    (written : IsWritten argument name definition) :
    parseDefinition argument = .ok (name, definition) := by
  unfold parseDefinition Text.leadingWord Text.afterWord
  cases written with
  | bare word =>
    have stops : ([] : Text).head?.any isWordCharacter = false := rfl
    have ends := Text.takeWhile_dropWhile_append word stops
    rw [List.append_nil] at ends
    rw [ends.1, ends.2]
  | @object name body mark word blank =>
    have stops : (mark :: body).head?.any isWordCharacter = false :=
      isWordCharacter_of_isBlank blank
    have ends := Text.takeWhile_dropWhile_append word stops
    rw [ends.1, ends.2]
    split
    · next same =>
      cases same
      cases blank
    · next same => cases same
    · next same =>
      cases same
      exact if_pos blank
  | @function name list body parameters word unclosed listed =>
    have stops : ('(' :: (list ++ ')' :: body)).head?.any isWordCharacter = false := rfl
    have ends := Text.takeWhile_dropWhile_append word stops
    have found : Text.splitFirst? (list ++ ')' :: body) [')'] = some (list, body) :=
      Text.splitFirst?_singleton_eq_some_iff.2 ⟨rfl, unclosed⟩
    simp only [ends.1, ends.2, found, parameters?_eq_some_iff.2 listed]

theorem parseDefinition_eq_ok_iff {argument name : Text} {definition : Macro} :
    parseDefinition argument = .ok (name, definition) ↔ IsWritten argument name definition :=
  ⟨isWritten_of_parseDefinition, IsWritten.parseDefinition_eq⟩

end Macro

/-! ## Tables -/

/-- A name that can be defined. -/
def IsDefinable (name : Text) : Prop :=
  name.isIdentifier = true ∧ name ∉ reservedNames

instance (name : Text) : Decidable (IsDefinable name) :=
  inferInstanceAs (Decidable (_ ∧ _))

namespace MacroTable

variable {table after : MacroTable} {name : Text}

theorem nameFault?_eq_none_iff : nameFault? name = none ↔ IsDefinable name := by
  unfold nameFault? IsDefinable isReserved
  rw [← List.contains_iff_mem, Bool.not_eq_true]
  cases name.isIdentifier <;> cases reservedNames.contains name <;> simp

/-- The table with one more definition in front. -/
theorem insert_eq_ok_iff {definition : Macro} :
    table.insert name definition = .ok after ↔
      (IsDefinable name ∧ table.get? name = none) ∧
        after = { table with definitions := (name, definition) :: table.definitions } := by
  rw [← nameFault?_eq_none_iff]
  unfold MacroTable.insert
  cases nameFault? name with
  | some fault => simp
  | none => cases table.get? name <;> simp [eq_comm]

theorem insert_of_isDefinable (definable : IsDefinable name) (free : table.get? name = none)
    (definition : Macro) : table.insert name definition =
      .ok { table with definitions := (name, definition) :: table.definitions } :=
  insert_eq_ok_iff.2 ⟨⟨definable, free⟩, rfl⟩

theorem define_eq_ok_iff {argument : Text} :
    table.define argument = .ok (name, after) ↔
      ∃ definition, Macro.IsWritten argument name definition ∧
        table.insert name definition = .ok after := by
  simp only [← Macro.parseDefinition_eq_ok_iff]
  unfold MacroTable.define
  cases Macro.parseDefinition argument with
  | error fault => simp
  | ok parsed =>
    rcases parsed with ⟨written, definition⟩
    cases inserted : table.insert written definition <;> grind

theorem remove_eq_ok_iff {existed : Bool} :
    table.remove name = .ok (existed, after) ↔
      IsDefinable name ∧ existed = (table.get? name).isSome ∧
        after = { table with
          definitions := table.definitions.filter fun entry => entry.1 != name } := by
  rw [← nameFault?_eq_none_iff]
  unfold MacroTable.remove
  cases nameFault? name <;> simp [eq_comm]

/-- What holds of a table without definitions, and still holds behind a predefined one that is
accepted, holds at the beginning of a run. -/
theorem ofEnvironment_induction {environment : Environment} {maxDepth : Nat}
    {motive : MacroTable → Prop} (bare : motive ⟨[], environment.builtins, maxDepth⟩)
    (insert : ∀ {table after : MacroTable} {name value : Text},
      (name, value) ∈ environment.predefined → table.insert name (.object value) = .ok after →
      motive table → motive after) :
    motive (ofEnvironment environment maxDepth) := by
  unfold ofEnvironment
  refine List.foldlRecOn environment.predefined _ bare ?_
  rintro current kept ⟨name, value⟩ member
  cases inserted : current.insert name (.object value) with
  | ok after =>
    simp only [inserted]
    exact insert member inserted kept
  | error fault =>
    simp only [inserted]
    exact kept

end MacroTable

end ScriptPreprocessor
