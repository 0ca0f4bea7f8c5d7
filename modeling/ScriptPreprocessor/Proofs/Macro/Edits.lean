import ScriptPreprocessor.Proofs.Macro.Answers
import ScriptPreprocessor.Proofs.Run.Course
import ScriptPreprocessor.Proofs.Run.Effects
import ScriptPreprocessor.Text.Names

namespace ScriptPreprocessor

/-!
# Edited tables

The macros of a run begin with those of its environment, and every `#define` and `#undef` line that
is read asks for an edit.  An edit that is rejected leaves the table as it was.

Whatever is asked for, the names of a table are identifiers that are not reserved, each of them is
defined once, and the built-in macros stay those of the environment (`MacroTable.isLawful_edited`).
-/

/-- What a `#define` or an `#undef` line asks for. -/
inductive MacroEdit where
  | define (argument : Text)
  | remove (name : Text)
  deriving DecidableEq, Repr

/-- The edit that a line asks for; a line of another kind asks for none. -/
def MacroEdit.ofLine? (line : Text) : Option MacroEdit :=
  match Directive.parse? line with
  | none => none
  | some directive =>
    match directive.kind with
    | .definition => some (.define directive.argument)
    | .removal => some (.remove directive.argument)
    | _ => none

/-- What stands behind the name of the directive that asks for an edit. -/
def MacroEdit.text : MacroEdit → Text
  | .define argument => argument
  | .remove name => name

theorem MacroEdit.text_subset_of_ofLine? {line : Text} {edit : MacroEdit}
    (asked : ofLine? line = some edit) : edit.text ⊆ line.withoutEnding := by
  unfold ofLine? at asked
  split at asked
  · cases asked
  · next directive parsed =>
    have inLine := Directive.argument_subset parsed
    split at asked
    · cases asked
      exact inLine
    · cases asked
      exact inLine
    · cases asked

namespace MacroTable

/-- The table behind an edit. -/
def edit (table : MacroTable) : MacroEdit → MacroTable
  | .define argument =>
    match table.define argument with
    | .ok (_, after) => after
    | .error _ => table
  | .remove name =>
    match table.remove name with
    | .ok (_, after) => after
    | .error _ => table

/-- The table behind edits, one after another. -/
def edited (table : MacroTable) (edits : List MacroEdit) : MacroTable :=
  edits.foldl edit table

/-- What holds of every table that edits lead to. -/
structure IsLawful (environment : Environment) (table : MacroTable) : Prop where
  builtins : table.builtins = environment.builtins
  names : ∀ name ∈ table.definitions.map Prod.fst, nameFault? name = none
  distinct : (table.definitions.map Prod.fst).Nodup

variable {environment : Environment} {table after : MacroTable}

/-! ## One edit -/

/-- Behind an edit stands the table that it was rejected from, or the one that a definition or a
removal leads to. -/
theorem edit_cases {edit : MacroEdit} {motive : MacroTable → Prop} (rejected : motive table)
    (defined : ∀ {argument name : Text} {after : MacroTable}, edit = .define argument →
      table.define argument = .ok (name, after) → motive after)
    (removed : ∀ {name : Text} {existed : Bool} {after : MacroTable}, edit = .remove name →
      table.remove name = .ok (existed, after) → motive after) :
    motive (table.edit edit) := by
  cases edit with
  | define argument =>
    simp only [MacroTable.edit]
    split
    · next accepted => exact defined rfl accepted
    · exact rejected
  | remove name =>
    simp only [MacroTable.edit]
    split
    · next accepted => exact removed rfl accepted
    · exact rejected

/-- A name that has no definition stands in no entry. -/
theorem not_mem_names_of_get? {name : Text} (undefined : table.get? name = none) :
    name ∉ table.definitions.map Prod.fst := by
  intro member
  rcases List.mem_map.1 member with ⟨entry, inTable, rfl⟩
  have differs := List.lookup_eq_none_iff.1 undefined entry inTable
  simp at differs

theorem IsLawful.insert (lawful : table.IsLawful environment) {name : Text} {definition : Macro}
    (inserted : table.insert name definition = .ok after) : after.IsLawful environment := by
  rcases insert_eq_ok_iff.1 inserted with ⟨⟨definable, free⟩, rfl⟩
  refine ⟨lawful.builtins, ?_, ?_⟩
  · exact List.forall_mem_cons.2 ⟨nameFault?_eq_none_iff.2 definable, lawful.names⟩
  · exact List.nodup_cons.2 ⟨not_mem_names_of_get? free, lawful.distinct⟩

theorem IsLawful.define (lawful : table.IsLawful environment) {argument name : Text}
    (defined : table.define argument = .ok (name, after)) : after.IsLawful environment := by
  rcases define_eq_ok_iff.1 defined with ⟨definition, _, inserted⟩
  exact lawful.insert inserted

theorem IsLawful.remove (lawful : table.IsLawful environment) {name : Text} {existed : Bool}
    (removed : table.remove name = .ok (existed, after)) : after.IsLawful environment := by
  rcases remove_eq_ok_iff.1 removed with ⟨_, _, rfl⟩
  have kept : (table.definitions.filter fun entry => entry.1 != name).map Prod.fst |>.Sublist
      (table.definitions.map Prod.fst) := List.filter_sublist.map Prod.fst
  exact ⟨lawful.builtins, fun other member => lawful.names other (kept.subset member),
    lawful.distinct.sublist kept⟩

theorem IsLawful.edit (lawful : table.IsLawful environment) (edit : MacroEdit) :
    (table.edit edit).IsLawful environment :=
  edit_cases lawful (fun _ defined => lawful.define defined) fun _ removed => lawful.remove removed

/-! ## Edits in a row -/

theorem IsLawful.edited (lawful : table.IsLawful environment) (edits : List MacroEdit) :
    (table.edited edits).IsLawful environment := by
  induction edits generalizing table with
  | nil => exact lawful
  | cons edit rest ih => exact ih (lawful.edit edit)

theorem isLawful_ofEnvironment (environment : Environment) (maxDepth : Nat) :
    (ofEnvironment environment maxDepth).IsLawful environment :=
  ofEnvironment_induction ⟨rfl, List.forall_mem_nil _, List.nodup_nil⟩
    fun _ inserted lawful => lawful.insert inserted

/-- The macros of a run are lawful behind all definitions and removals. -/
theorem isLawful_edited (environment : Environment) (maxDepth : Nat) (edits : List MacroEdit) :
    ((ofEnvironment environment maxDepth).edited edits).IsLawful environment :=
  (isLawful_ofEnvironment environment maxDepth).edited edits

/-! ## Looking up -/

section LookUp

variable {line : Origin} {name : Text}

/-- A name counts as defined exactly when it is replaced. -/
theorem isDefined_eq_isSome (table : MacroTable) (line : Origin) (name : Text) :
    table.isDefined name = (table.replacement? line name).isSome := by
  unfold isDefined replacement?
  by_cases isFile : name = fileMacro
  · simp [isFile]
  · by_cases isLine : name = lineMacro
    · simp only [if_neg isFile, if_pos isLine, beq_iff_eq.2 isLine, Bool.or_true]
      rfl
    · simp only [if_neg isFile, if_neg isLine, beq_eq_false_iff_ne.2 isFile,
        beq_eq_false_iff_ne.2 isLine, Bool.or_false]
      cases table.builtins.lookup name <;> simp

theorem mem_names_of_get? (known : (table.get? name).isSome = true) :
    name ∈ table.definitions.map Prod.fst := by
  rcases Option.isSome_iff_exists.1 known with ⟨definition, found⟩
  rcases List.lookup_eq_some_iff.1 found with ⟨earlier, later, shape, _⟩
  simp [shape]

theorem get?_of_replacement? {definition : Macro}
    (found : table.replacement? line name = some (.defined definition)) :
    table.get? name = some definition := by
  unfold replacement? at found
  split at found
  · cases found
  · split at found
    · cases found
    · split at found
      · cases found
      · rcases Option.map_eq_some_iff.1 found with ⟨_, known, same⟩
        cases same
        exact known

/-- The names of an environment's built-in macros are reserved words. -/
theorem reserved_of_mem_builtins {entry : Text × Text} (member : entry ∈ environment.builtins) :
    entry.1 ∈ reservedNames.drop 3 := by
  have names : environment.builtins.map Prod.fst = reservedNames.drop 3 := rfl
  exact names ▸ List.mem_map_of_mem member

/-- The built-in macros of the environment are never hidden. -/
theorem IsLawful.replacement?_of_mem_builtins (lawful : table.IsLawful environment)
    {entry : Text × Text} (member : entry ∈ environment.builtins) (line : Origin) :
    table.replacement? line entry.1 = some (.builtin entry.2) := by
  rw [replacement?, lawful.builtins]
  simp only [Environment.builtins, List.mem_cons, List.not_mem_nil, or_false] at member
  rcases member with rfl | rfl | rfl | rfl | rfl | rfl | rfl <;> rfl

/-- A defined name is replaced by its definition, and never by a built-in macro. -/
theorem IsLawful.replacement?_of_get? (lawful : table.IsLawful environment) {definition : Macro}
    (known : table.get? name = some definition) (line : Origin) :
    table.replacement? line name = some (.defined definition) := by
  have listed := mem_names_of_get? (Option.isSome_iff_exists.2 ⟨definition, known⟩)
  have free := (nameFault?_eq_none_iff.1 (lawful.names name listed)).2
  have differs {other : Text} (reserved : other ∈ reservedNames) : name ≠ other := by
    rintro rfl
    exact free reserved
  have unlisted : table.builtins.lookup name = none := by
    rw [lawful.builtins, List.lookup_eq_none_iff]
    intro entry member
    rw [bne_iff_ne]
    exact differs (List.mem_of_mem_drop (reserved_of_mem_builtins member))
  rw [replacement?, if_neg (differs (by decide)), if_neg (differs (by decide)), unlisted, known]
  rfl

/-- What a built-in macro shows: an answer of the environment or the name of the unit between
quotation marks, or a number. -/
theorem IsLawful.shown_of_builtin (lawful : table.IsLawful environment) {shown : Text}
    (found : table.replacement? line name = some (.builtin shown)) :
    (∃ answer ∈ line.unit :: environment.answers, shown = quoted answer) ∨
      ∃ number, shown = Text.ofNat number := by
  unfold replacement? at found
  split at found
  · cases found
    exact Or.inl ⟨line.unit, List.mem_cons_self, rfl⟩
  · split at found
    · cases found
      exact Or.inr ⟨line.line, rfl⟩
    · split at found
      · next known =>
        cases found
        rw [lawful.builtins] at known
        rcases List.lookup_eq_some_iff.1 known with ⟨earlier, later, shape, _⟩
        have member : (name, shown) ∈ environment.builtins := by simp [shape]
        rcases Environment.text_of_mem_builtins member with ⟨answer, isAnswer, same⟩ | number
        · exact Or.inl ⟨answer, List.mem_cons_of_mem _ isAnswer, same⟩
        · exact Or.inr ⟨environment.viewerNumber, number⟩
      · rcases Option.map_eq_some_iff.1 found with ⟨_, _, same⟩
        cases same

/-- Only identifiers are replaced. -/
theorem IsLawful.isIdentifier_of_replacement? (lawful : table.IsLawful environment)
    (known : (table.replacement? line name).isSome = true) : name.isIdentifier = true := by
  have listed := mem_names_of_replacement? known
  rw [lawful.builtins] at listed
  have reserved : ∀ other ∈ reservedNames, other.isIdentifier = true := by decide
  rcases List.mem_cons.1 listed with rfl | listed
  · decide
  rcases List.mem_cons.1 listed with rfl | listed
  · decide
  rcases List.mem_append.1 listed with isBuiltin | isDefined
  · rcases List.mem_map.1 isBuiltin with ⟨entry, member, rfl⟩
    exact reserved _ (List.mem_of_mem_drop (reserved_of_mem_builtins member))
  · exact (nameFault?_eq_none_iff.1 (lawful.names name isDefined)).1

end LookUp

/-! ## Active macros -/

/-- What the list of active macros is like: defined macros, and none of them twice. -/
structure IsStack (table : MacroTable) (active : List Text) : Prop where
  distinct : active.Nodup
  defined : ∀ name ∈ active, (table.get? name).isSome = true

namespace IsStack

variable {active : List Text} {name : Text}

theorem nil (table : MacroTable) : table.IsStack [] :=
  ⟨List.nodup_nil, by simp⟩

theorem push (stack : table.IsStack active) (fresh : name ∉ active)
    (known : (table.get? name).isSome = true) : table.IsStack (name :: active) :=
  ⟨List.nodup_cons.2 ⟨fresh, stack.distinct⟩, List.forall_mem_cons.2 ⟨known, stack.defined⟩⟩

/-- There are no more active macros than defined ones. -/
theorem length_le_size (stack : table.IsStack active) : active.length ≤ table.size := by
  have bound := Names.length_le_of_nodup stack.distinct fun other member =>
    mem_names_of_get? (stack.defined other member)
  rwa [List.length_map] at bound

end IsStack

/-! ## Edits on lines -/

theorem IsUnbroken.edit (unbroken : table.IsUnbroken) {edit : MacroEdit}
    (inText : '\n' ∉ edit.text) : (table.edit edit).IsUnbroken := by
  refine edit_cases unbroken ?defined ?removed
  case defined =>
    rintro argument name after rfl defined
    exact unbroken.define inText defined
  case removed =>
    rintro name existed after rfl removed
    exact unbroken.remove removed

/-- Edits that stand on lines bring no line feed into a table. -/
theorem IsUnbroken.edited (unbroken : table.IsUnbroken) {lines : List Text}
    (one : ∀ line ∈ lines, line.IsOneLine) :
    (table.edited (lines.filterMap MacroEdit.ofLine?)).IsUnbroken := by
  induction lines generalizing table with
  | nil => exact unbroken
  | cons line rest ih =>
    have later : ∀ other ∈ rest, other.IsOneLine := fun other member =>
      one other (List.mem_cons_of_mem _ member)
    cases asked : MacroEdit.ofLine? line with
    | none =>
      rw [List.filterMap_cons_none asked]
      exact ih unbroken later
    | some edit =>
      rw [List.filterMap_cons_some asked]
      have inText : '\n' ∉ edit.text := fun member =>
        Text.unbroken_withoutEnding (one line List.mem_cons_self)
          (MacroEdit.text_subset_of_ofLine? asked member)
      exact ih (unbroken.edit inText) later

end MacroTable

namespace LineState

variable (state : LineState)

/-- Reading a line edits the macros as the line asks for, unless the line is skipped or the
preprocessor is turned off. -/
theorem macros_read (origin : Origin) (line : Text) :
    (state.read origin line).state.macros =
      if state.enabled && state.isActive then
        state.macros.edited (MacroEdit.ofLine? line).toList
      else state.macros := by
  have reads := state.reads_read origin line
  generalize state.read origin line = effect at reads ⊢
  cases reads with
  | skip inactive => simp [inactive, LineState.skip]
  | copy off => simp [off, LineState.copy]
  | expand plain => simp [MacroEdit.ofLine?, plain, MacroTable.edited, expandLine]
  | @conditional directive parsed on kind =>
    rw [macros_of_readConditional]
    cases same : directive.kind with
    | ifDefined | ifNotDefined | ifTrue | elseIf | otherwise | endIf =>
      simp [MacroEdit.ofLine?, parsed, same, MacroTable.edited]
    | _ =>
      rw [same] at kind
      cases kind
  | pragma parsed heard kind =>
    rw [macros_of_readPragma]
    simp [MacroEdit.ofLine?, parsed, kind, MacroTable.edited]
  | definition obeys kind accepted | removal obeys kind accepted
  | rejectedDefinition obeys kind accepted | rejectedRemoval obeys kind accepted =>
    simp [MacroEdit.ofLine?, obeys.parsed, obeys.on, obeys.active, kind, MacroTable.edited,
      MacroTable.edit, accepted, report]
  | inclusion obeys kind | invalidInclusion obeys kind | warning obeys kind | error obeys kind
  | unknown obeys kind =>
    simp [MacroEdit.ofLine?, obeys.parsed, kind, MacroTable.edited, report, LineState.copy]

end LineState

/-! ## Edits of a run -/

/-- The edits that a reading makes. -/
def Reading.edits (reading : Reading) : List MacroEdit :=
  if reading.state.enabled && reading.state.isActive then
    (MacroEdit.ofLine? reading.line).toList
  else []

namespace Preprocessor

variable {start last : Preprocessor} {readings : List Reading}
  {Answers : IncludeRequest → IncludeOutcome → Prop}

theorem macros_of_move {preprocessor next : Preprocessor} {reading : Option Reading}
    (move : Move preprocessor reading next) :
    next.macros = preprocessor.macros.edited (reading.toList.flatMap Reading.edits) := by
  cases move with
  | leave => rfl
  | @read frame below line unread _ stack lines placement =>
    have step := (preprocessor.readingOf frame below line).state.macros_read
      (preprocessor.readingOf frame below line).origin line
    rw [placement.macros, Option.toList_some, List.flatMap_singleton, Reading.edits]
    refine step.trans ?_
    split <;> rfl

/-- The macros along a course are those of its start, edited by its readings one after another. -/
theorem Course.macros (course : Course Answers start readings last) :
    last.macros = start.macros.edited (readings.flatMap Reading.edits) := by
  refine course.keeps (fun readings last =>
    last.macros = start.macros.edited (readings.flatMap Reading.edits)) rfl ?_ ?_
  · intro readings preprocessor reading next _ earlier _ move
    rw [macros_of_move move, earlier, List.flatMap_append, MacroTable.edited, MacroTable.edited,
      MacroTable.edited, List.foldl_append]
  · intro readings preprocessor request outcome _ earlier _ _
    cases outcome <;> exact earlier

/-- Wherever a run gets to, its macros are lawful. -/
theorem Course.isLawful_macros {options : RunOptions} {environment : Environment}
    {main : SourceUnit}
    (course : Course Answers ((ofEnvironment options environment).enter main) readings last) :
    last.macros.IsLawful environment := by
  rw [course.macros]
  exact MacroTable.isLawful_edited environment options.maxExpansionDepth _

end Preprocessor

end ScriptPreprocessor
