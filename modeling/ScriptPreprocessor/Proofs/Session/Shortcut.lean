import ScriptPreprocessor.Proofs.Run.BlockReading
import ScriptPreprocessor.Proofs.Session.Ending
import ScriptPreprocessor.Proofs.Text.Search

namespace ScriptPreprocessor

/-!
# Texts that need no preprocessing

A script none of whose lines seems to need preprocessing is saved as it is.  Its session is done at
once, and the expanded text is what the lines contribute one by one, because no line changes the
state in which the next one is read (`Session.exists_start_of_needless`).

But a line can contribute something else than itself.  A first line that begins with `#!` and a
directive that continues or closes a block are left out, and a plain line is expanded when one of
its words is predefined.  If none is, the expanded text is the script exactly when no line is left
out (`Session.expanded_of_needless`).
-/

namespace MacroTable

/-- What a line contributes when no line has an effect of its own: a plain line what it is expanded
to, an unknown directive itself, and any other directive nothing. -/
def contribution (table : MacroTable) (origin : Origin) (line : Text) : Text :=
  match Directive.parse? line with
  | none => (table.expand origin line).text
  | some directive => if directive.kind = .unknown then line else []

/-- Whether no word of a text is the name of a defined macro. -/
def DefinesNoWordOf (table : MacroTable) (text : Text) : Prop :=
  ∀ name, .word name ∈ Piece.ofText text → table.get? name = none

end MacroTable

/-! ## Lines without an effect -/

/-- Every built-in name has a part by which lines that mention it are found. -/
theorem exists_marker_of_builtin {environment : Environment} {name : Text}
    (builtin : name ∈ fileMacro :: lineMacro :: environment.builtins.map Prod.fst) :
    ∃ marker ∈ builtinMarkers, marker <:+: name := by
  have marked : (reservedNames.tail.all fun name =>
      builtinMarkers.any fun marker => Text.contains name marker) = true := by decide +kernel
  have reserved : reservedNames.tail =
      fileMacro :: lineMacro :: environment.builtins.map Prod.fst := rfl
  rw [reserved, List.all_eq_true] at marked
  rcases List.any_eq_true.1 (marked name builtin) with ⟨marker, known, inName⟩
  exact ⟨marker, known, Text.contains_iff_occurs.1 inName⟩

section

variable {line : Text} (needless : lineNeedsPreprocessing line = false)

include needless

theorem kind_of_needless {directive : Directive} (parsed : Directive.parse? line = some directive) :
    directive.kind.hasEffect = false := by
  rw [lineNeedsPreprocessing, Bool.or_eq_false_iff, parsed] at needless
  exact needless.1

theorem lineTarget?_of_needless : Directive.lineTarget? line = none := by
  unfold Directive.lineTarget?
  cases parsed : Directive.parse? line with
  | none => rfl
  | some directive =>
    have noEffect := kind_of_needless needless parsed
    refine if_neg fun inclusion => ?_
    rw [inclusion] at noEffect
    cases noEffect

/-- No built-in name occurs in the line. -/
theorem not_infix_of_needless {environment : Environment} {name : Text}
    (builtin : name ∈ fileMacro :: lineMacro :: environment.builtins.map Prod.fst) :
    ¬ name <:+: line := by
  intro occurs
  rcases exists_marker_of_builtin builtin with ⟨marker, known, inName⟩
  rw [lineNeedsPreprocessing, Bool.or_eq_false_iff, List.any_eq_false] at needless
  exact needless.2 marker known (Text.contains_iff_occurs.2 (inName.trans occurs))

/-- No word of the line has a meaning but a defined macro. -/
theorem replacement?_of_needless {environment : Environment} {table : MacroTable}
    (builtins : table.builtins = environment.builtins) (undefined : table.DefinesNoWordOf line)
    (origin : Origin) {name : Text} (member : .word name ∈ Piece.ofText line) :
    table.replacement? origin name = none := by
  have notBuiltin : name ∉ fileMacro :: lineMacro :: environment.builtins.map Prod.fst :=
    fun builtin => not_infix_of_needless needless builtin (Piece.infix_of_word_mem member)
  simp only [List.mem_cons, not_or] at notBuiltin
  have unlisted : table.builtins.lookup name = none := by
    rw [builtins, List.lookup_eq_none_iff]
    intro entry known
    rw [bne_iff_ne]
    rintro rfl
    exact notBuiltin.2.2 (List.mem_map_of_mem known)
  rw [MacroTable.replacement?, if_neg notBuiltin.1, if_neg notBuiltin.2.1, unlisted,
    undefined name member]
  rfl

namespace LineState

variable {state : LineState} (outside : state.IsOutside) (origin : Origin)

include outside

/-- Outside of every block, the line leaves the state as it is and contributes what it stands
for. -/
theorem read_of_needless :
    (state.read origin line).state = state ∧
      (Passage.ofEffect origin (state.read origin line)).text =
        state.macros.contribution origin line := by
  rcases outside with ⟨blocks, on⟩
  have active : state.isActive = true := by
    rw [isActive, blocks]
    rfl
  unfold read MacroTable.contribution
  cases parsed : Directive.parse? line with
  | none =>
    simp only [readPlain, active, on]
    exact ⟨rfl, List.append_nil _⟩
  | some directive =>
    have noEffect := kind_of_needless needless parsed
    have reported (problem : Problem) :
        (state.report problem).state = state ∧
          (Passage.ofEffect origin (state.report problem)).text = [] := ⟨rfl, rfl⟩
    cases kind : directive.kind with
    | unknown =>
      simp only [on, kind, DirectiveKind.isConditional, active, readDirective]
      exact ⟨rfl, (List.append_nil _).trans (List.append_nil _)⟩
    | elseIf | otherwise | endIf =>
      simp only [on, kind, DirectiveKind.isConditional, readConditional, continueBlock, closeBlock,
        blocks]
      exact reported _
    | _ =>
      rw [kind] at noEffect
      cases noEffect

end LineState

end

/-- Lines without an effect contribute one by one. -/
theorem LineState.text_readLines_of_needless {state : LineState} (outside : state.IsOutside)
    (unit : Text) {lines : List PlacedLine}
    (needless : ∀ line ∈ lines, lineNeedsPreprocessing line.text = false) :
    (state.readLines unit lines).text =
      lines.flatMap fun line => state.macros.contribution ⟨unit, line.number⟩ line.text := by
  induction lines with
  | nil => rfl
  | cons line rest ih =>
    have first := read_of_needless (needless line List.mem_cons_self) outside ⟨unit, line.number⟩
    have later := ih fun other member => needless other (List.mem_cons_of_mem _ member)
    rw [readLines_cons, Passage.text_andThen, first.1, first.2, later, List.flatMap_cons]

/-! ## Lines of a main unit -/

namespace PlacedLine

/-- Whether a line is left out at the beginning of a main unit. -/
def isShebang (options : RunOptions) (line : PlacedLine) : Bool :=
  options.skipShebang && line.number == 1 && line.text.startsWith "#!".toList

/-- What a line of a main unit contributes when no line has an effect of its own. -/
def contribution (options : RunOptions) (table : MacroTable) (unit : Text) (line : PlacedLine) :
    Text :=
  if line.isShebang options then [] else table.contribution ⟨unit, line.number⟩ line.text

/-- Whether a line without an effect of its own is left out: it is a shebang, or a directive that
continues or closes a block. -/
def isDropped (options : RunOptions) (line : PlacedLine) : Bool :=
  line.isShebang options ||
    (Directive.parse? line.text).any fun directive => directive.kind != .unknown

theorem lt_number_of_mem_listFrom {before : Nat} {texts : List Text} {line : PlacedLine}
    (member : line ∈ listFrom before texts) : before < line.number := by
  induction texts generalizing before with
  | nil => cases member
  | cons text rest ih =>
    rcases List.mem_cons.1 member with rfl | later
    · exact Nat.lt_succ_self before
    · exact Nat.lt_of_succ_lt (ih later)

theorem isShebang_of_later {options : RunOptions} {before : Nat} {texts : List Text}
    {line : PlacedLine} (member : line ∈ listFrom (before + 1) texts) :
    line.isShebang options = false := by
  have later := lt_number_of_mem_listFrom member
  have notFirst : (line.number == 1) = false := by
    rw [beq_eq_false_iff_ne]
    omega
  rw [isShebang, notFirst, Bool.and_false, Bool.false_and]

/-- Without a shebang, the lines are all of them or all but the first one. -/
theorem filter_isShebang (options : RunOptions) (first : Text) (rest : List Text) :
    ((listFrom 0 (first :: rest)).filter fun line => !line.isShebang options) =
      if options.skipShebang && first.startsWith "#!".toList then listFrom 1 rest
      else listFrom 0 (first :: rest) := by
  have later : ((listFrom 1 rest).filter fun line => !line.isShebang options) =
      listFrom 1 rest := by
    rw [List.filter_eq_self]
    intro line member
    rw [isShebang_of_later member, Bool.not_false]
  have shebang : isShebang options ⟨1, first⟩ =
      (options.skipShebang && first.startsWith "#!".toList) := by
    rw [isShebang, beq_self_eq_true, Bool.and_true]
  rw [listFrom, List.filter_cons, shebang, later]
  cases options.skipShebang && first.startsWith "#!".toList <;> rfl

theorem flatMap_filter_isShebang (options : RunOptions) (contributes : PlacedLine → Text)
    (lines : List PlacedLine) :
    (lines.filter fun line => !line.isShebang options).flatMap contributes =
      lines.flatMap fun line => if line.isShebang options then [] else contributes line := by
  induction lines with
  | nil => rfl
  | cons line rest ih =>
    rw [List.flatMap_cons, ← ih, List.filter_cons]
    cases line.isShebang options <;> rfl

theorem length_flatMap_isDropped_le (options : RunOptions) (lines : List PlacedLine) :
    (lines.flatMap fun line => if line.isDropped options then [] else line.text).length ≤
      (lines.flatMap PlacedLine.text).length := by
  induction lines with
  | nil => exact Nat.le_refl 0
  | cons line rest ih =>
    rw [List.flatMap_cons, List.flatMap_cons, List.length_append, List.length_append]
    split
    · rw [List.length_nil, Nat.zero_add]
      exact Nat.le_add_left_of_le ih
    · exact Nat.add_le_add_left ih _

/-- Lines of which some are left out make up the same text exactly when none is left out. -/
theorem flatMap_isDropped_eq_iff (options : RunOptions) {lines : List PlacedLine}
    (filled : ∀ line ∈ lines, line.text ≠ []) :
    (lines.flatMap fun line => if line.isDropped options then [] else line.text) =
        lines.flatMap PlacedLine.text ↔
      ∀ line ∈ lines, line.isDropped options = false := by
  induction lines with
  | nil => simp
  | cons line rest ih =>
    have later := ih fun other member => filled other (List.mem_cons_of_mem _ member)
    rw [List.flatMap_cons, List.flatMap_cons, List.forall_mem_cons]
    cases dropped : line.isDropped options with
    | true =>
      -- The lines behind are too short to make up for the one that is left out.
      refine iff_of_false (fun same => ?_) (by simp)
      have positive := List.length_pos_iff.2 (filled line List.mem_cons_self)
      have lengths := congrArg List.length same
      have bound := length_flatMap_isDropped_le options rest
      simp only [if_true, List.nil_append, List.length_append] at lengths
      omega
    | false => simpa using later

theorem mem_of_mem_listFrom {before : Nat} {texts : List Text} {line : PlacedLine}
    (member : line ∈ listFrom before texts) : line.text ∈ texts := by
  rw [← map_text_listFrom before texts]
  exact List.mem_map_of_mem member

end PlacedLine

namespace Preprocessor

/-- A main unit is entered outside of every block, before its lines without a shebang. -/
structure IsMainFrame (options : RunOptions) (main : SourceUnit) (frame : Frame) : Prop where
  unit : frame.unit = main
  blocks : frame.blocks = []
  enabled : frame.enabled = true
  unread : frame.unread ⊆ main.lines
  lines : PlacedLine.listFrom frame.linesRead frame.unread =
    (PlacedLine.listFrom 0 main.lines).filter fun line => !line.isShebang options

theorem isMainFrame_mainFrame (options : RunOptions) (main : SourceUnit) :
    IsMainFrame options main (mainFrame options main) := by
  refine mainFrame_cases (fun kept => ⟨rfl, rfl, rfl, fun _ member => member, ?_⟩)
    fun {first rest} lines dropped => ?_
  · change PlacedLine.listFrom 0 main.lines = _
    cases lines : main.lines with
    | nil => rfl
    | cons first rest =>
      rw [PlacedLine.filter_isShebang, if_neg (Bool.eq_false_iff.1 (kept first rest lines))]
  · refine ⟨rfl, rfl, rfl, lines ▸ List.subset_cons_self first rest, ?_⟩
    rw [lines, PlacedLine.filter_isShebang, if_pos dropped]

end Preprocessor

namespace Session

section

variable {main : SourceUnit} (needless : needsPreprocessing main.text = false)

include needless

theorem needless_of_mem_lines {line : Text} (member : line ∈ main.lines) :
    lineNeedsPreprocessing line = false := by
  rw [needsPreprocessing, List.any_eq_false] at needless
  exact Bool.eq_false_iff.2 (needless line member)

/-- The session is done at once with what the lines contribute. -/
theorem exists_start_of_needless (sources : IncludeSources) (options : RunOptions)
    (environment : Environment) :
    ∃ stopped output,
      start sources options environment main = (⟨main, stopped, .done output⟩, sources) ∧
      output.expanded = (PlacedLine.listFrom 0 main.lines).flatMap
        (PlacedLine.contribution options
          (.ofEnvironment environment options.maxExpansionDepth) main.name) := by
  let preprocessor := (Preprocessor.ofEnvironment options environment).enter main
  let frame := Preprocessor.mainFrame options main
  have entered := Preprocessor.isMainFrame_mainFrame options main
  have stack : preprocessor.frames = [frame] := rfl
  have noTargets : ∀ line ∈ frame.unread, Directive.lineTarget? line = none := fun line member =>
    lineTarget?_of_needless (needless_of_mem_lines needless (entered.unread member))
  rcases Preprocessor.exists_output_of_lines stack noTargets with ⟨stopped, output, ran, expanded⟩
  refine ⟨stopped, output, drive_of_finished ran, ?_⟩
  have outside : (preprocessor.lineState frame).IsOutside := ⟨entered.blocks, entered.enabled⟩
  have placed : ∀ line ∈ PlacedLine.listFrom frame.linesRead frame.unread,
      lineNeedsPreprocessing line.text = false := fun line member =>
    needless_of_mem_lines needless (entered.unread (PlacedLine.mem_of_mem_listFrom member))
  rw [expanded, LineState.text_readLines_of_needless outside _ placed, entered.lines, entered.unit,
    PlacedLine.flatMap_filter_isShebang]
  rfl

/-- A line contributes itself unless it is left out, when it is no plain line or no word of it is a
macro. -/
theorem contribution_of_undefined (options : RunOptions) {environment : Environment}
    {table : MacroTable} (builtins : table.builtins = environment.builtins) {line : PlacedLine}
    (inMain : line.text ∈ main.lines)
    (undefined : Directive.parse? line.text = none → table.DefinesNoWordOf line.text) :
    line.contribution options table main.name =
      if line.isDropped options then [] else line.text := by
  have lineNeedless := needless_of_mem_lines needless inMain
  unfold PlacedLine.contribution PlacedLine.isDropped MacroTable.contribution
  cases shebang : line.isShebang options with
  | true => rfl
  | false =>
    cases parsed : Directive.parse? line.text with
    | some directive => by_cases kind : directive.kind = .unknown <;> simp [kind]
    | none =>
      exact MacroTable.text_expandActive_of_inert fun name =>
        replacement?_of_needless lineNeedless builtins (undefined parsed) _

/-- If no word of a plain line is a macro, what the lines of a main unit contribute is its text
exactly when none of them is left out. -/
theorem flatMap_contribution_eq_iff (options : RunOptions) {environment : Environment}
    {table : MacroTable} (builtins : table.builtins = environment.builtins)
    (undefined : ∀ line ∈ main.lines, Directive.parse? line = none →
      table.DefinesNoWordOf line) :
    (PlacedLine.listFrom 0 main.lines).flatMap
        (PlacedLine.contribution options table main.name) = main.text ↔
      ∀ line ∈ PlacedLine.listFrom 0 main.lines, line.isDropped options = false := by
  have inMain {line : PlacedLine} (member : line ∈ PlacedLine.listFrom 0 main.lines) :
      line.text ∈ main.lines := PlacedLine.mem_of_mem_listFrom member
  have text : (PlacedLine.listFrom 0 main.lines).flatMap PlacedLine.text = main.text := by
    rw [List.flatMap_def, PlacedLine.map_text_listFrom]
    exact Text.flatten_lines main.text
  have contributed := List.flatMap_congr fun line member =>
    contribution_of_undefined needless options builtins (inMain member)
      (undefined line.text (inMain member))
  rw [contributed, ← PlacedLine.flatMap_isDropped_eq_iff options fun line member =>
    (Text.isOneLine_of_mem_lines (inMain member)).1, text]

/-- The session over a text that needs no preprocessing is done at once, whatever sources are at
hand, and its output is what the lines contribute.  If no word of a plain line is predefined, that
is the text exactly when no line of it is left out. -/
theorem expanded_of_needless (sources : IncludeSources) (options : RunOptions)
    (environment : Environment) :
    ∃ stopped output,
      start sources options environment main = (⟨main, stopped, .done output⟩, sources) ∧
      output.expanded = (PlacedLine.listFrom 0 main.lines).flatMap
        (PlacedLine.contribution options
          (.ofEnvironment environment options.maxExpansionDepth) main.name) ∧
      ((∀ line ∈ main.lines, Directive.parse? line = none → MacroTable.DefinesNoWordOf
          (.ofEnvironment environment options.maxExpansionDepth) line) →
        (output.expanded = main.text ↔
          ∀ line ∈ PlacedLine.listFrom 0 main.lines, line.isDropped options = false)) := by
  rcases exists_start_of_needless needless sources options environment with
    ⟨stopped, output, started, expanded⟩
  refine ⟨stopped, output, started, expanded, fun undefined => ?_⟩
  rw [expanded]
  exact flatMap_contribution_eq_iff needless options
    (MacroTable.builtins_ofEnvironment environment options.maxExpansionDepth) undefined

end

/-- An unknown directive and a plain line stay as they are. -/
theorem expanded_of_needless_unknown :
    ∃ (main : SourceUnit) (stopped : Preprocessor) (output : RunOutput),
      main.text = "#region a\nx;\n".toList ∧ needsPreprocessing main.text = false ∧
      start {} {} .bare main = (⟨main, stopped, .done output⟩, {}) ∧
      output.expanded = main.text := by
  let main : SourceUnit := ⟨"m".toList, "#region a\nx;\n".toList, none⟩
  have needless : needsPreprocessing main.text = false := by decide +kernel
  rcases expanded_of_needless needless {} {} .bare with ⟨stopped, output, started, _, unchanged⟩
  refine ⟨main, stopped, output, rfl, needless, started, (unchanged ?_).2 ?_⟩
  · exact fun _ _ _ _ _ => rfl
  · decide +kernel

/-- A main unit seems to need no preprocessing, and its expanded text is another one. -/
def ChangesNeedless (environment : Environment) (main : SourceUnit) : Prop :=
  needsPreprocessing main.text = false ∧
    ∃ stopped output, start {} {} environment main = (⟨main, stopped, .done output⟩, {}) ∧
      output.expanded ≠ main.text

theorem changesNeedless_of_dropped {main : SourceUnit}
    (needless : needsPreprocessing main.text = false)
    (drops : ¬ ∀ line ∈ PlacedLine.listFrom 0 main.lines, line.isDropped {} = false) :
    ChangesNeedless .bare main := by
  have undefined : ∀ line ∈ main.lines, Directive.parse? line = none →
      (MacroTable.ofEnvironment .bare 32).DefinesNoWordOf line := fun _ _ _ _ _ => rfl
  have unchanged := flatMap_contribution_eq_iff needless {}
    (MacroTable.builtins_ofEnvironment .bare 32) undefined
  rcases exists_start_of_needless needless {} {} .bare with ⟨stopped, output, started, expanded⟩
  exact ⟨needless, stopped, output, started, fun same =>
    drops (unchanged.1 (expanded.symm.trans same))⟩

/-- A directive that closes no block is left out, a shebang is left out, and a predefined name is
replaced. -/
theorem changesNeedless_three_ways :
    ChangesNeedless .bare ⟨"m".toList, "x;\n#endif\n".toList, none⟩ ∧
      ChangesNeedless .bare ⟨"m".toList, "#!lslpp\nx;\n".toList, none⟩ ∧
      ChangesNeedless { Environment.bare with predefined := [("X".toList, "1".toList)] }
        ⟨"m".toList, "X;\n".toList, none⟩ := by
  refine ⟨changesNeedless_of_dropped (by decide +kernel) (by decide +kernel),
    changesNeedless_of_dropped (by decide +kernel) (by decide +kernel), ?_⟩
  let environment : Environment :=
    { Environment.bare with predefined := [("X".toList, "1".toList)] }
  let main : SourceUnit := ⟨"m".toList, "X;\n".toList, none⟩
  have needless : needsPreprocessing main.text = false := by decide +kernel
  rcases exists_start_of_needless needless {} {} environment with
    ⟨stopped, output, started, expanded⟩
  refine ⟨needless, stopped, output, started, fun same => ?_⟩
  have shape : Piece.first 'X' ";\n".toList = (.word "X".toList, ";\n".toList) := rfl
  have replaced : ((MacroTable.bareWith "X".toList "1".toList).expand ⟨"m".toList, 1⟩
      "X;\n".toList).text = "1;\n".toList := by
    refine (MacroTable.text_expandActive_of_object "X".toList "1".toList shape rfl (by decide)
      (by decide)).trans ?_
    rw [MacroTable.text_expandActive_of_absent (by decide),
      MacroTable.text_expandActive_of_absent (by decide)]
    rfl
  have contributed : output.expanded = "1;\n".toList :=
    expanded.trans ((List.append_nil _).trans replaced)
  rw [contributed] at same
  cases same

end Session

end ScriptPreprocessor
