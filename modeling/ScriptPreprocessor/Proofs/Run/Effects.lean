import ScriptPreprocessor.Proofs.Macro.Breaks
import ScriptPreprocessor.Run.Line

namespace ScriptPreprocessor

/-!
# What a line can do

Every line is copied, expanded, or left out (`emitted_of_read`), and a line that includes a unit is
left out.  The macros change by a definition or a removal that stands on the line
(`macros_of_read`).  So no line brings a line feed into the macros, nor into the name of a unit
that it asks for.
-/

namespace Directive

/-- The argument of a directive consists of characters of its line. -/
theorem argument_subset {line : Text} {directive : Directive}
    (parsed : parse? line = some directive) : directive.argument ⊆ line.withoutEnding := by
  have lead : line.withoutEnding.dropWhile isSpaceOrTab ⊆ line.withoutEnding :=
    (List.dropWhile_sublist isSpaceOrTab).subset
  unfold parse? at parsed
  split at parsed
  · next rest shape =>
    cases parsed
    rw [shape] at lead
    intro character member
    have inRest := ((Text.trim_sublist _).trans (List.dropWhile_sublist _)).subset member
    exact lead (List.mem_cons_of_mem _ ((List.dropWhile_sublist _).subset inRest))
  · cases parsed

theorem delimited_subset {opening closing : Char} {argument inner : Text}
    (found : delimited? opening closing argument = some inner) : inner ⊆ argument := by
  unfold delimited? at found
  rcases Option.bind_eq_some_iff.1 found with ⟨rest, begins, ends⟩
  rw [Text.afterStart?_eq_some_iff.1 begins, Text.beforeEnd?_eq_some_iff.1 ends]
  exact fun _ member => List.mem_append_right _ (List.mem_append_left _ member)

theorem includeTarget_subset {argument target : Text}
    (found : includeTarget? argument = some target) : target ⊆ argument := by
  unfold includeTarget? at found
  split at found
  · cases found
  · next inner delimited =>
    split at found
    · cases found
    · cases found
      have inside : inner ⊆ argument := by
        cases quoted : delimited? '"' '"' argument with
        | some text =>
          rw [quoted] at delimited
          cases delimited
          exact delimited_subset quoted
        | none =>
          rw [quoted] at delimited
          exact delimited_subset delimited
      exact List.Subset.trans (Text.trim_sublist _).subset inside

/-- The name that a line asks for has no line feed. -/
theorem unbroken_lineTarget {line target : Text} (one : line.IsOneLine)
    (asked : lineTarget? line = some target) : '\n' ∉ target := by
  unfold lineTarget? at asked
  rcases Option.bind_eq_some_iff.1 asked with ⟨directive, parsed, named⟩
  split at named
  · intro member
    have inLine := argument_subset parsed (includeTarget_subset named member)
    exact Text.unbroken_withoutEnding one inLine
  · cases named

end Directive

namespace LineState

variable {state : LineState} {origin : Origin} {line : Text}

/-! ## Contributions -/

theorem emitted_of_readConditional (state : LineState) (origin : Origin)
    (directive : Directive) : (state.readConditional origin directive).emitted = none := by
  rcases state.exists_readConditional origin directive with ⟨_, _, effect⟩
  rw [effect]

theorem emitted_of_readPragma (state : LineState) (argument : Text) :
    (state.readPragma argument).emitted = none := by
  rcases state.exists_readPragma argument with ⟨_, _, _, effect⟩
  rw [effect]

/-- A line that contributes to the expanded text includes nothing; it is copied or expanded. -/
theorem emitted_of_read {segments : List Segment}
    (emitted : (state.read origin line).emitted = some segments) :
    (state.read origin line).target = none ∧
      (segments = [.copied line] ∨ segments = (state.macros.expand origin line).segments) := by
  have reads := state.reads_read origin line
  generalize state.read origin line = effect at emitted reads ⊢
  cases reads with
  | copy | invalidInclusion | unknown =>
    cases emitted
    exact ⟨rfl, .inl rfl⟩
  | expand =>
    cases emitted
    exact ⟨rfl, .inr rfl⟩
  | conditional =>
    rw [emitted_of_readConditional] at emitted
    cases emitted
  | pragma =>
    rw [emitted_of_readPragma] at emitted
    cases emitted
  | _ => cases emitted

/-- What a line contributes stands for the whole line. -/
theorem source_of_emitted {segments : List Segment}
    (emitted : (state.read origin line).emitted = some segments) :
    segments.flatMap Segment.source = line := by
  rcases (emitted_of_read emitted).2 with rfl | rfl
  · simp [Segment.source]
  · exact MacroTable.source_expand _ _ line

/-- Only invocations of macros are replaced. -/
theorem isInvocation_of_emitted {segments : List Segment} {invocation replacement : Text}
    (emitted : (state.read origin line).emitted = some segments)
    (member : .replaced invocation replacement ∈ segments) :
    state.macros.IsInvocation origin invocation := by
  rcases (emitted_of_read emitted).2 with rfl | rfl
  · simp at member
  · exact MacroTable.isInvocation_of_mem_expand member

/-- An ended line contributes an ended line. -/
theorem ended_of_emitted {segments : List Segment}
    (emitted : (state.read origin line).emitted = some segments)
    (unbroken : state.macros.IsUnbroken) (inUnit : '\n' ∉ origin.unit) (ended : line.IsEndedLine) :
    Text.IsEndedLine (segments.flatMap Segment.expanded) := by
  rcases (emitted_of_read emitted).2 with rfl | rfl
  · simpa [Segment.expanded] using ended
  · exact MacroTable.ended_expand unbroken inUnit ended

/-- A line without a line feed contributes none. -/
theorem unbroken_of_emitted {segments : List Segment}
    (emitted : (state.read origin line).emitted = some segments)
    (unbroken : state.macros.IsUnbroken) (inUnit : '\n' ∉ origin.unit) (inLine : '\n' ∉ line) :
    '\n' ∉ segments.flatMap Segment.expanded := by
  rcases (emitted_of_read emitted).2 with rfl | rfl
  · simpa [Segment.expanded] using inLine
  · exact MacroTable.unbroken_expand unbroken inUnit inLine

/-- A line that includes a unit does nothing else. -/
theorem read_of_target {target : Text} (asked : (state.read origin line).target = some target) :
    state.read origin line = { state, target := some target } :=
  ((state.reads_read origin line).inclusion_of_target asked).2

/-! ## Macros -/

theorem macros_of_readConditional (state : LineState) (origin : Origin)
    (directive : Directive) :
    (state.readConditional origin directive).state.macros = state.macros := by
  rcases state.exists_readConditional origin directive with ⟨_, _, effect⟩
  rw [effect]

theorem macros_of_readPragma (state : LineState) (argument : Text) :
    (state.readPragma argument).state.macros = state.macros := by
  rcases state.exists_readPragma argument with ⟨_, _, _, effect⟩
  rw [effect]

/-- The macros behind a line are those before it, or a definition or a removal on the line has
changed them. -/
theorem macros_of_read {motive : MacroTable → Prop} (origin : Origin) (line : Text)
    (same : motive state.macros)
    (defined : ∀ {directive : Directive} {name : Text} {macros : MacroTable},
      Directive.parse? line = some directive →
        state.macros.define directive.argument = .ok (name, macros) → motive macros)
    (removed : ∀ {directive : Directive} {existed : Bool} {macros : MacroTable},
      Directive.parse? line = some directive →
        state.macros.remove directive.argument = .ok (existed, macros) → motive macros) :
    motive (state.read origin line).state.macros := by
  have reads := state.reads_read origin line
  generalize state.read origin line = effect at reads ⊢
  cases reads with
  | definition obeys kind accepted => exact defined obeys.parsed accepted
  | removal obeys kind accepted => exact removed obeys.parsed accepted
  | conditional => exact (macros_of_readConditional state origin _).symm ▸ same
  | pragma => exact (macros_of_readPragma state _).symm ▸ same
  | _ => exact same

/-- No line brings a line feed into the macros. -/
theorem isUnbroken_of_read (unbroken : state.macros.IsUnbroken) (one : line.IsOneLine) :
    (state.read origin line).state.macros.IsUnbroken := by
  have inArgument {directive : Directive} (parsed : Directive.parse? line = some directive) :
      '\n' ∉ directive.argument := fun member =>
    Text.unbroken_withoutEnding one (Directive.argument_subset parsed member)
  exact macros_of_read origin line unbroken
    (fun parsed defined => unbroken.define (inArgument parsed) defined)
    fun _ removed => unbroken.remove removed

end LineState

end ScriptPreprocessor
