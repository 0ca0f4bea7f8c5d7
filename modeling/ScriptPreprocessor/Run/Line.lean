import ScriptPreprocessor.Condition.Defined
import ScriptPreprocessor.Condition.Evaluation
import ScriptPreprocessor.Directive.Pragma
import ScriptPreprocessor.Run.Block

namespace ScriptPreprocessor

/-!
# The effect of a line

A line of a unit is read in a state: the macros and the include path of the whole run, and whether
preprocessing is on and which blocks are open in the unit.  Its effect is a new state, problems,
what it contributes to the expanded text, and the name of a unit to be spliced behind it.

While preprocessing is off, only a pragma can have an effect, and every other directive line is
copied.  While it is on, conditional directives always count, and everything else only on an
active line.  `LineState.Reads` says case by case what a line can do.
-/

/-- The state in which a line is read.  Everything that a line can depend on is here, besides its
place; the stack of units and the output so far are not. -/
structure LineState where
  macros : MacroTable
  searchPath : Option Text
  enabled : Bool
  blocks : List Block

/-- What a line does.  A line contributes at most one line of expanded text, and includes at most
one unit, never both. -/
structure LineEffect where
  state : LineState
  problems : List Problem := []
  /-- The segments that the line contributes to the expanded text, if it contributes a line. -/
  emitted : Option (List Segment) := none
  /-- The name of the unit that the line includes. -/
  target : Option Text := none

namespace LineState

def isActive (state : LineState) : Bool :=
  Block.isActive state.blocks

def skip (state : LineState) : LineEffect :=
  { state }

def report (state : LineState) (problem : Problem) : LineEffect :=
  { state, problems := [problem] }

/-- A line that is copied.  Copying is a single segment without an invocation, so that no column of
the line moves. -/
def copy (state : LineState) (line : Text) : LineEffect :=
  { state, emitted := some [.copied line] }

def issueProblems (state : LineState) (issues : List ExpansionIssue) : List Problem :=
  issues.map fun issue => .expansion issue state.macros.maxDepth

def expandLine (state : LineState) (origin : Origin) (line : Text) : LineEffect :=
  let expansion := state.macros.expand origin line
  { state
    problems := state.issueProblems expansion.issues
    emitted := some expansion.segments }

/-! ## Conditions -/

/-- Whether a condition holds, and what there is to say about it.  A condition that cannot be
evaluated does not hold.  Tests for definitions come first, then macros, then the names that are
left. -/
def conditionHolds (state : LineState) (origin : Origin) (condition : Text) :
    Bool × List Problem :=
  let replaced := replaceDefined state.macros.isDefined condition
  let expansion := state.macros.expand origin replaced
  let issues := state.issueProblems expansion.issues
  match evaluate expansion.text with
  | .ok evaluation =>
    (evaluation.value.isTrue,
      issues ++ evaluation.unknown.map fun name => .unknownName name condition)
  | .error fault => (false, issues ++ [.badCondition condition fault])

/-- Whether the branch behind an opening directive is taken.  The two tests of a name look at the
first word only, whatever follows it. -/
def opensTaken (state : LineState) (origin : Origin) (directive : Directive) :
    Bool × List Problem :=
  match directive.kind with
  | .ifDefined => (state.macros.isDefined directive.argument.firstWord, [])
  | .ifNotDefined => (!state.macros.isDefined directive.argument.firstWord, [])
  | _ => state.conditionHolds origin directive.argument

/-- The effect of a directive that opens a block.  On an inactive line its condition is not looked
at, so nothing is said about it either. -/
def openBlock (state : LineState) (origin : Origin) (directive : Directive) : LineEffect :=
  if state.isActive then
    let (taken, problems) := state.opensTaken origin directive
    let branch := Block.firstBranch taken
    { state := { state with blocks := Block.opening branch origin.line state.blocks }, problems }
  else
    { state := { state with blocks := Block.opening .finished origin.line state.blocks } }

def continuationName (isElse : Bool) : Text :=
  if isElse then "#else".toList else "#elif".toList

/-- The effect of a directive that continues a block.  The condition of an `#elif` is evaluated
only while no branch has been taken. -/
def continueBlock (state : LineState) (origin : Origin) (isElse : Bool) (condition : Text) :
    LineEffect :=
  match state.blocks with
  | [] => state.report (.unmatched (continuationName isElse))
  | block :: outer =>
    if block.elseSeen then
      state.report (.afterElse (continuationName isElse))
    else
      let (taken, problems) :=
        if isElse then (true, [])
        else if block.branch = .searching then state.conditionHolds origin condition
        else (false, [])
      let branch := Block.nextBranch block.branch taken
      { state := { state with blocks := ⟨branch, block.openedAt, isElse⟩ :: outer }, problems }

def closeBlock (state : LineState) : LineEffect :=
  match state.blocks with
  | [] => state.report (.unmatched "#endif".toList)
  | _ :: outer => { state := { state with blocks := outer } }

def readConditional (state : LineState) (origin : Origin) (directive : Directive) : LineEffect :=
  match directive.kind with
  | .elseIf => state.continueBlock origin false directive.argument
  | .otherwise => state.continueBlock origin true directive.argument
  | .endIf => state.closeBlock
  | _ => state.openBlock origin directive

/-! ## Other directives -/

/-- The effect of a pragma.  While preprocessing is off, only the one that switches it on has
one. -/
def readPragma (state : LineState) (argument : Text) : LineEffect :=
  match Pragma.parse argument with
  | .preprocessorOn => { state := { state with enabled := true } }
  | .preprocessorOff => { state := { state with enabled := false } }
  | .includeFrom path =>
    if state.enabled then { state := { state with searchPath := some path } } else state.skip
  | .other other => if state.enabled then state.report (.unknownPragma other) else state.skip

/-- The effect of an include.  An argument that names nothing is copied with its line. -/
def readInclude (state : LineState) (line argument : Text) : LineEffect :=
  match Directive.includeTarget? argument with
  | some target => { state, target := some target }
  | none => { state.copy line with problems := [.invalidInclude argument] }

/-- The effect of a definition.  The line contributes nothing to the expanded text, also when it is
rejected. -/
def readDefinition (state : LineState) (argument : Text) : LineEffect :=
  match state.macros.define argument with
  | .ok (_, macros) => { state := { state with macros } }
  | .error fault => state.report (.rejectedDefinition fault)

/-- The effect of a removal.  Removing a name that is not defined is no problem, as in C. -/
def readRemoval (state : LineState) (name : Text) : LineEffect :=
  match state.macros.remove name with
  | .ok (_, macros) => { state := { state with macros } }
  | .error _ => state.report (.rejectedRemoval name)

def readDirective (state : LineState) (line : Text) (directive : Directive) : LineEffect :=
  match directive.kind with
  | .inclusion => state.readInclude line directive.argument
  | .definition => state.readDefinition directive.argument
  | .removal => state.readRemoval directive.argument
  | .pragma => state.readPragma directive.argument
  | .warning => state.report (.warningLine directive.argument)
  | .error => state.report (.errorLine directive.argument)
  | .unknown => { state.copy line with problems := [.unknownDirective directive.name] }
  | _ => state.skip

def readPlain (state : LineState) (origin : Origin) (line : Text) : LineEffect :=
  if !state.isActive then state.skip
  else if state.enabled then state.expandLine origin line
  else state.copy line

/-- The effect of a line.  Whether preprocessing is on is asked before anything else, so that the
blocks stay as they were while it is off. -/
def read (state : LineState) (origin : Origin) (line : Text) : LineEffect :=
  match Directive.parse? line with
  | none => state.readPlain origin line
  | some directive =>
    if !state.enabled then
      if directive.kind = .pragma then state.readPragma directive.argument else state.copy line
    else if directive.kind.isConditional then state.readConditional origin directive
    else if state.isActive then state.readDirective line directive
    else state.skip

/-! ## What a line can do -/

/-- A conditional directive changes nothing but the blocks. -/
theorem exists_readConditional (state : LineState) (origin : Origin) (directive : Directive) :
    ∃ blocks problems, state.readConditional origin directive =
      { state := { state with blocks }, problems } := by
  have continued (isElse : Bool) (condition : Text) :
      ∃ blocks problems, state.continueBlock origin isElse condition =
        { state := { state with blocks }, problems } := by
    unfold continueBlock report
    split
    · exact ⟨_, _, rfl⟩
    · split <;> exact ⟨_, _, rfl⟩
  unfold readConditional
  split
  · exact continued false _
  · exact continued true _
  · unfold closeBlock report
    split <;> exact ⟨_, _, rfl⟩
  · unfold openBlock
    split <;> exact ⟨_, _, rfl⟩

/-- A pragma changes nothing but the include path and whether preprocessing is on. -/
theorem exists_readPragma (state : LineState) (argument : Text) :
    ∃ enabled searchPath problems, state.readPragma argument =
      { state := { state with enabled, searchPath }, problems } := by
  unfold readPragma skip report
  split
  · exact ⟨_, _, _, rfl⟩
  · exact ⟨_, _, _, rfl⟩
  · split <;> exact ⟨_, _, _, rfl⟩
  · split <;> exact ⟨_, _, _, rfl⟩

structure Obeys (state : LineState) (line : Text) (directive : Directive) : Prop where
  parsed : Directive.parse? line = some directive
  on : state.enabled = true
  active : state.isActive = true

/-- What a line does.  There is a case for every way of reading it, so that a fact about all lines
is proved by going through the cases once. -/
inductive Reads (state : LineState) (origin : Origin) (line : Text) : LineEffect → Prop
  | skip (inactive : state.isActive = false) : Reads state origin line state.skip
  /-- While preprocessing is off, a line without a pragma is copied. -/
  | copy (off : state.enabled = false)
      (noPragma : ∀ directive, Directive.parse? line = some directive → directive.kind ≠ .pragma) :
      Reads state origin line (state.copy line)
  | expand (plain : Directive.parse? line = none) (on : state.enabled = true)
      (active : state.isActive = true) : Reads state origin line (state.expandLine origin line)
  | conditional {directive : Directive} (parsed : Directive.parse? line = some directive)
      (on : state.enabled = true) (kind : directive.kind.isConditional = true) :
      Reads state origin line (state.readConditional origin directive)
  /-- A pragma is read on an active line, and on every line while preprocessing is off. -/
  | pragma {directive : Directive} (parsed : Directive.parse? line = some directive)
      (heard : state.enabled = true → state.isActive = true) (kind : directive.kind = .pragma) :
      Reads state origin line (state.readPragma directive.argument)
  | inclusion {directive : Directive} {target : Text} (obeys : state.Obeys line directive)
      (kind : directive.kind = .inclusion)
      (named : Directive.includeTarget? directive.argument = some target) :
      Reads state origin line { state, target := some target }
  | invalidInclusion {directive : Directive} (obeys : state.Obeys line directive)
      (kind : directive.kind = .inclusion)
      (unnamed : Directive.includeTarget? directive.argument = none) :
      Reads state origin line
        { state.copy line with problems := [.invalidInclude directive.argument] }
  | definition {directive : Directive} {name : Text} {macros : MacroTable}
      (obeys : state.Obeys line directive) (kind : directive.kind = .definition)
      (defined : state.macros.define directive.argument = .ok (name, macros)) :
      Reads state origin line { state := { state with macros } }
  | rejectedDefinition {directive : Directive} {fault : DefinitionFault}
      (obeys : state.Obeys line directive) (kind : directive.kind = .definition)
      (rejected : state.macros.define directive.argument = .error fault) :
      Reads state origin line (state.report (.rejectedDefinition fault))
  | removal {directive : Directive} {existed : Bool} {macros : MacroTable}
      (obeys : state.Obeys line directive) (kind : directive.kind = .removal)
      (removed : state.macros.remove directive.argument = .ok (existed, macros)) :
      Reads state origin line { state := { state with macros } }
  | rejectedRemoval {directive : Directive} {fault : DefinitionFault}
      (obeys : state.Obeys line directive) (kind : directive.kind = .removal)
      (rejected : state.macros.remove directive.argument = .error fault) :
      Reads state origin line (state.report (.rejectedRemoval directive.argument))
  | warning {directive : Directive} (obeys : state.Obeys line directive)
      (kind : directive.kind = .warning) :
      Reads state origin line (state.report (.warningLine directive.argument))
  | error {directive : Directive} (obeys : state.Obeys line directive)
      (kind : directive.kind = .error) :
      Reads state origin line (state.report (.errorLine directive.argument))
  | unknown {directive : Directive} (obeys : state.Obeys line directive)
      (kind : directive.kind = .unknown) :
      Reads state origin line
        { state.copy line with problems := [.unknownDirective directive.name] }

theorem reads_readDirective {state : LineState} {origin : Origin} {line : Text}
    {directive : Directive} (obeys : state.Obeys line directive)
    (notConditional : ¬ directive.kind.isConditional = true) :
    Reads state origin line (state.readDirective line directive) := by
  unfold readDirective
  cases kind : directive.kind with
  | inclusion =>
    simp only [readInclude]
    split
    · next named => exact .inclusion obeys kind named
    · next unnamed => exact .invalidInclusion obeys kind unnamed
  | definition =>
    simp only [readDefinition]
    split
    · next defined => exact .definition obeys kind defined
    · next rejected => exact .rejectedDefinition obeys kind rejected
  | removal =>
    simp only [readRemoval]
    split
    · next removed => exact .removal obeys kind removed
    · next rejected => exact .rejectedRemoval obeys kind rejected
  | pragma => exact .pragma obeys.parsed (fun _ => obeys.active) kind
  | warning => exact .warning obeys kind
  | error => exact .error obeys kind
  | unknown => exact .unknown obeys kind
  | ifDefined | ifNotDefined | ifTrue | elseIf | otherwise | endIf =>
    rw [kind] at notConditional
    exact absurd rfl notConditional

theorem reads_read (state : LineState) (origin : Origin) (line : Text) :
    Reads state origin line (state.read origin line) := by
  unfold read
  cases parsed : Directive.parse? line with
  | none =>
    simp only [readPlain]
    cases active : state.isActive with
    | false => exact .skip active
    | true =>
      cases on : state.enabled with
      | false => exact .copy on (by simp [parsed])
      | true => exact .expand parsed on active
  | some directive =>
    cases on : state.enabled with
    | false =>
      simp only [Bool.not_false, if_true]
      split
      · next kind => exact .pragma parsed (fun isOn => by simp [on] at isOn) kind
      · next otherKind => exact .copy on (by simpa [parsed] using otherKind)
    | true =>
      simp only [Bool.not_true, Bool.false_eq_true, if_false]
      split
      · next kind => exact .conditional parsed on kind
      · next notConditional =>
        split
        · next active => exact reads_readDirective ⟨parsed, on, active⟩ notConditional
        · next inactive => exact .skip (Bool.eq_false_iff.2 inactive)

/-- A line that includes a unit names it, and does nothing else. -/
theorem Reads.inclusion_of_target {state : LineState} {origin : Origin} {line target : Text}
    {effect : LineEffect} (reads : Reads state origin line effect)
    (asked : effect.target = some target) :
    Directive.lineTarget? line = some target ∧ effect = { state, target := some target } := by
  cases reads with
  | inclusion obeys kind named =>
    cases asked
    simp [Directive.lineTarget?, obeys.parsed, kind, named]
  | @conditional directive =>
    rcases state.exists_readConditional origin directive with ⟨_, _, effect⟩
    rw [effect] at asked
    cases asked
  | @pragma directive =>
    rcases state.exists_readPragma directive.argument with ⟨_, _, _, effect⟩
    rw [effect] at asked
    cases asked
  | _ => cases asked

/-- A line includes nothing but the unit it names. -/
theorem target_eq_of_read {state : LineState} {origin : Origin} {line target : Text}
    (asked : (state.read origin line).target = some target) :
    Directive.lineTarget? line = some target :=
  ((state.reads_read origin line).inclusion_of_target asked).1

end LineState

end ScriptPreprocessor
