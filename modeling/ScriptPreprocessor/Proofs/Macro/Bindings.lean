import ScriptPreprocessor.Proofs.Macro.Edits
import ScriptPreprocessor.Proofs.Text.Entries

namespace ScriptPreprocessor

/-!
# Tables as finite maps

What is defined at some point of a run can be told from the environment and the edits alone, without
a table.  It is a finite map from names to macros.  At the beginning it holds the predefined macros
whose names are definable; a definition that is written well binds its name when the name is
definable and free, and a removal takes a definable name out.  Every other edit is rejected and
leaves the map as it is (`MacroMap.Leads`).

The map of a table is that map, whatever the edits are, and nothing else is in the table.  No edit
reaches the built-in macros (`MacroTable.isBehind_edited`).
-/

/-! ## Maps and edits -/

/-- What names are defined as. -/
abbrev MacroMap := Finmap fun _ : Text => Macro

namespace MacroMap

/-- Whether an edit is accepted where names are defined as the map says. -/
def Accepts (map : MacroMap) : MacroEdit → Prop
  | .define argument =>
    ∃ name definition, Macro.IsWritten argument name definition ∧ IsDefinable name ∧ name ∉ map
  | .remove name => IsDefinable name

/-- The map behind an edit. -/
inductive Step (map : MacroMap) : MacroEdit → MacroMap → Prop
  | define {argument name : Text} {definition : Macro}
    (written : Macro.IsWritten argument name definition) (definable : IsDefinable name)
    (free : name ∉ map) : Step map (.define argument) (map.insert name definition)
  | remove {name : Text} (definable : IsDefinable name) : Step map (.remove name) (map.erase name)
  | reject {edit : MacroEdit} (rejected : ¬ map.Accepts edit) : Step map edit map

/-- The map behind edits, one after another. -/
inductive Leads : MacroMap → List MacroEdit → MacroMap → Prop
  | nil {map : MacroMap} : Leads map [] map
  | cons {map next last : MacroMap} {edit : MacroEdit} {rest : List MacroEdit}
    (step : map.Step edit next) (further : Leads next rest last) : Leads map (edit :: rest) last

/-- Every edit leads somewhere. -/
theorem exists_step (map : MacroMap) (edit : MacroEdit) : ∃ next, map.Step edit next := by
  by_cases accepted : map.Accepts edit
  · cases edit with
    | define argument =>
      rcases accepted with ⟨name, definition, written, definable, free⟩
      exact ⟨_, .define written definable free⟩
    | remove name => exact ⟨_, .remove accepted⟩
  · exact ⟨map, .reject accepted⟩

end MacroMap

/-- The macros that are defined before the first line: the predefined ones whose names can be
defined. -/
def Environment.predefinedMap (environment : Environment) : MacroMap :=
  Entries.toMap ((environment.predefined.filter fun entry => IsDefinable entry.1).map
    fun entry => (entry.1, .object entry.2))

/-- The built-in macros with what they show on a line. -/
def Environment.builtinsAt (environment : Environment) (line : Origin) : List (Text × Text) :=
  (fileMacro, quoted line.unit) :: (lineMacro, Text.ofNat line.line) :: environment.builtins

namespace MacroTable

variable {environment : Environment} {table after : MacroTable} {name : Text}

/-- The map of a table. -/
def bindings (table : MacroTable) : MacroMap :=
  Entries.toMap table.definitions

theorem lookup_bindings (table : MacroTable) (name : Text) :
    table.bindings.lookup name = table.get? name :=
  Entries.lookup_toMap table.definitions name

theorem not_mem_bindings : name ∉ table.bindings ↔ table.get? name = none := by
  rw [← Finmap.lookup_eq_none, lookup_bindings]

/-- Whether a table rejects an edit. -/
def Rejects (table : MacroTable) : MacroEdit → Prop
  | .define argument => ∃ fault, table.define argument = .error fault
  | .remove name => ∃ fault, table.remove name = .error fault

theorem edit_of_rejects {edit : MacroEdit} (rejects : table.Rejects edit) :
    table.edit edit = table := by
  cases edit with
  | define argument =>
    rcases rejects with ⟨fault, rejected⟩
    simp only [MacroTable.edit, rejected]
  | remove name =>
    rcases rejects with ⟨fault, rejected⟩
    simp only [MacroTable.edit, rejected]

/-! ## One edit -/

/-- A table rejects what its map does not accept. -/
theorem rejects_iff {edit : MacroEdit} : table.Rejects edit ↔ ¬ table.bindings.Accepts edit := by
  cases edit with
  | define argument =>
    constructor
    · rintro ⟨fault, rejected⟩ ⟨name, definition, written, definable, free⟩
      have inserted := insert_of_isDefinable definable (not_mem_bindings.1 free) definition
      rw [define_eq_ok_iff.2 ⟨definition, written, inserted⟩] at rejected
      cases rejected
    · intro refused
      cases defined : table.define argument with
      | error fault => exact ⟨fault, defined⟩
      | ok pair =>
        rcases define_eq_ok_iff.1 defined with ⟨definition, written, inserted⟩
        rcases insert_eq_ok_iff.1 inserted with ⟨⟨definable, free⟩, _⟩
        exact absurd ⟨_, definition, written, definable, not_mem_bindings.2 free⟩ refused
  | remove name =>
    constructor
    · rintro ⟨fault, rejected⟩ definable
      rw [remove_eq_ok_iff.2 ⟨definable, rfl, rfl⟩] at rejected
      cases rejected
    · intro refused
      cases removed : table.remove name with
      | error fault => exact ⟨fault, removed⟩
      | ok pair => exact absurd (remove_eq_ok_iff.1 removed).1 refused

/-- The map of the table behind an edit is the only one that the edit leads to. -/
theorem step_bindings_iff {edit : MacroEdit} {next : MacroMap} :
    table.bindings.Step edit next ↔ next = (table.edit edit).bindings := by
  have only : ∀ {other}, table.bindings.Step edit other → other = (table.edit edit).bindings := by
    intro other step
    cases step with
    | @define argument name definition written definable free =>
      have inserted := insert_of_isDefinable definable (not_mem_bindings.1 free) definition
      simp only [MacroTable.edit, define_eq_ok_iff.2 ⟨_, written, inserted⟩]
      exact (Entries.toMap_cons _ _ _).symm
    | @remove name definable =>
      have removed : table.remove name = _ := remove_eq_ok_iff.2 ⟨definable, rfl, rfl⟩
      simp only [MacroTable.edit, removed]
      exact (Entries.toMap_filter_ne _ _).symm
    | reject rejected => rw [edit_of_rejects (rejects_iff.2 rejected)]
  constructor
  · exact only
  · rintro rfl
    rcases table.bindings.exists_step edit with ⟨other, step⟩
    exact only step ▸ step

/-! ## Edits in a row -/

theorem leads_bindings_iff {edits : List MacroEdit} {last : MacroMap} :
    MacroMap.Leads table.bindings edits last ↔ last = (table.edited edits).bindings := by
  induction edits generalizing table with
  | nil =>
    constructor
    · intro leads
      cases leads
      rfl
    · rintro rfl
      exact .nil
  | cons edit rest ih =>
    constructor
    · intro leads
      cases leads with
      | cons step further =>
        rw [step_bindings_iff.1 step] at further
        exact ih.1 further
    · intro same
      exact .cons (step_bindings_iff.2 rfl) (ih.2 same)

/-- What is predefined comes into the table when its name is definable and free. -/
theorem get?_foldl_insert (entries : List (Text × Text)) (table : MacroTable) (name : Text) :
    (entries.foldl (fun table (key, value) =>
        match table.insert key (.object value) with
        | .ok table => table
        | .error _ => table) table).get? name =
      (table.get? name).or
        (if IsDefinable name then (entries.lookup name).map .object else none) := by
  induction entries generalizing table with
  | nil => simp
  | cons entry rest ih =>
    rcases entry with ⟨key, value⟩
    rw [List.foldl_cons, ih, List.lookup_cons]
    cases inserted : table.insert key (.object value) with
    | ok after =>
      rcases insert_eq_ok_iff.1 inserted with ⟨⟨definable, free⟩, rfl⟩
      simp only [inserted, get?, List.lookup_cons]
      by_cases same : name = key
      · subst key
        have unbound : table.definitions.lookup name = none := free
        simp [definable, unbound]
      · simp only [beq_eq_false_iff_ne.2 same]
    | error fault =>
      simp only [inserted]
      by_cases same : name = key
      · subst key
        by_cases definable : IsDefinable name
        · cases known : table.get? name with
          | none =>
            rw [insert_of_isDefinable definable known] at inserted
            cases inserted
          | some definition => rw [Option.some_or, Option.some_or]
        · rw [if_neg definable, if_neg definable]
      · simp only [beq_eq_false_iff_ne.2 same]

theorem bindings_ofEnvironment (environment : Environment) (maxDepth : Nat) :
    (ofEnvironment environment maxDepth).bindings = environment.predefinedMap := by
  apply Finmap.ext_lookup
  intro name
  rw [lookup_bindings, Environment.predefinedMap, Entries.lookup_toMap, Entries.lookup_map,
    Entries.lookup_filter fun name => IsDefinable name]
  refine (get?_foldl_insert environment.predefined _ name).trans ?_
  by_cases definable : IsDefinable name <;> simp [get?, definable]

/-! ## Tables behind edits -/

/-- What a table is behind the edits of a run. -/
structure IsBehind (environment : Environment) (edits : List MacroEdit) (table : MacroTable) :
    Prop where
  /-- The map of the table is the one that the edits lead to. -/
  leads : ∀ map, MacroMap.Leads environment.predefinedMap edits map ↔ map = table.bindings
  /-- A look-up in the table is one in its map. -/
  get : ∀ name, table.get? name = table.bindings.lookup name
  /-- The table holds each bound name once. -/
  distinct : (table.definitions.map Prod.fst).Nodup
  definable : ∀ name ∈ table.bindings, IsDefinable name
  /-- The next edit is rejected exactly when the map does not accept it. -/
  rejects : ∀ edit, table.Rejects edit ↔ ¬ table.bindings.Accepts edit
  /-- A rejected edit leaves the whole table as it is. -/
  keeps : ∀ edit, table.Rejects edit → table.edit edit = table
  /-- The built-in macros are defined and show what they showed before any edit. -/
  builtins : ∀ line, ∀ entry ∈ environment.builtinsAt line,
    table.isDefined entry.1 = true ∧ table.replacement? line entry.1 = some (.builtin entry.2)

theorem IsLawful.replacement?_of_mem_builtinsAt (lawful : table.IsLawful environment)
    {line : Origin} {entry : Text × Text} (member : entry ∈ environment.builtinsAt line) :
    table.replacement? line entry.1 = some (.builtin entry.2) := by
  rcases List.mem_cons.1 member with rfl | member
  · rfl
  rcases List.mem_cons.1 member with rfl | member
  · rfl
  exact lawful.replacement?_of_mem_builtins member line

/-- Behind all definitions and removals the macros are the finite map that these lead to, and the
built-in macros are as at the beginning. -/
theorem isBehind_edited (environment : Environment) (maxDepth : Nat) (edits : List MacroEdit) :
    ((ofEnvironment environment maxDepth).edited edits).IsBehind environment edits := by
  have lawful := isLawful_edited environment maxDepth edits
  refine ⟨fun map => ?_, fun name => (lookup_bindings _ name).symm, lawful.distinct, ?_,
    fun _ => rejects_iff, fun _ => edit_of_rejects, fun line entry member => ?_⟩
  · rw [← bindings_ofEnvironment environment maxDepth]
    exact leads_bindings_iff
  · intro name bound
    have listed := mem_names_of_get? (Entries.mem_toMap.1 bound)
    exact nameFault?_eq_none_iff.1 (lawful.names name listed)
  · have shown := lawful.replacement?_of_mem_builtinsAt member
    rw [isDefined_eq_isSome _ line, shown]
    exact ⟨rfl, rfl⟩

/-- A second definition, the definition of a built-in macro and one that is not written well are
rejected; a name that is removed can be defined again. -/
example :
    let edits : List MacroEdit :=
      [.define "X 1".toList, .define "X 2".toList, .define "__LINE__ 3".toList,
        .define "F(1) 4".toList, .define "Y".toList, .remove "X".toList, .define "X(a) a".toList]
    ((ofEnvironment Environment.bare 32).edited edits).definitions =
      [("X".toList, .function ["a".toList] "a".toList), ("Y".toList, .object [])] := by
  decide

end MacroTable

end ScriptPreprocessor
