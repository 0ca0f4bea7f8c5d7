import ScriptPreprocessor.Proofs.Condition.WholeTests
import ScriptPreprocessor.Proofs.Macro.Edits

namespace ScriptPreprocessor

/-!
# Lines that ask whether a name is defined

A block may be opened by asking whether one name is defined, in five ways (`OpeningForm`).
`#ifdef` and `#ifndef` look the name up; the condition of an `#if` is taken apart, expanded and
evaluated.  All of them come to the same: what is left of the condition is a digit, which no macro
replaces, whatever the name means (`LineState.opensTaken_eq`).

So a block that is opened in one of the ways is read like one that is opened in any other way with
the same question (`Preprocessor.run_of_openings`).
-/

/-- The ways to open a block with the question whether a name is defined. -/
inductive OpeningForm where
  /-- `#ifdef X` -/
  | ifDefined
  /-- `#if defined(X)` -/
  | ifCall
  /-- `#if defined X` -/
  | ifWord
  /-- `#ifndef X` -/
  | ifNotDefined
  /-- `#if !defined(X)` -/
  | ifNotCall
  deriving DecidableEq, Repr

namespace OpeningForm

/-- The name of the directive. -/
def keyword : OpeningForm → Text
  | .ifDefined => "ifdef".toList
  | .ifNotDefined => "ifndef".toList
  | .ifCall | .ifWord | .ifNotCall => "if".toList

/-- What stands behind the name of the directive. -/
def argument (name : Text) : OpeningForm → Text
  | .ifDefined | .ifNotDefined => name
  | .ifCall => definedWord ++ "(".toList ++ name ++ ")".toList
  | .ifWord => definedWord ++ " ".toList ++ name
  | .ifNotCall => "!".toList ++ definedWord ++ "(".toList ++ name ++ ")".toList

/-- Whether the branch is taken when the name is defined. -/
def asksDefined : OpeningForm → Bool
  | .ifDefined | .ifCall | .ifWord => true
  | .ifNotDefined | .ifNotCall => false

/-- The directive that a line of the form is read as. -/
def directive (form : OpeningForm) (name : Text) : Directive :=
  ⟨DirectiveKind.ofName form.keyword, form.keyword, form.argument name⟩

/-- A line of the form, with any blanks around its parts. -/
def IsWritten (form : OpeningForm) (name line : Text) : Prop :=
  ∃ indent gap between ending : Text,
    (∀ character ∈ indent ++ gap, isSpaceOrTab character = true) ∧
    (∀ character ∈ between ++ ending, isBlank character = true) ∧ between ≠ [] ∧
    line = indent ++ ['#'] ++ gap ++ form.keyword ++ between ++ form.argument name ++ ending

/-- A line of the form as it is usually written. -/
theorem isWritten_plain (form : OpeningForm) (name : Text) {ending : Text}
    (blank : ∀ character ∈ ending, isBlank character = true) :
    form.IsWritten name
      ("#".toList ++ form.keyword ++ " ".toList ++ form.argument name ++ ending) := by
  have between : ∀ character ∈ " ".toList, isBlank character = true :=
    List.all_eq_true.1 rfl
  exact ⟨[], [], " ".toList, ending, List.forall_mem_nil _,
    List.forall_mem_append.2 ⟨between, blank⟩, by decide, rfl⟩

end OpeningForm

/-! ## Reading the line -/

/-- A directive is read from its parts, whatever blanks stand around them. -/
theorem Directive.parse?_of_parts {indent gap keyword between argument ending : Text}
    (indentSpaces : ∀ character ∈ indent, isSpaceOrTab character = true)
    (gapSpaces : ∀ character ∈ gap, isSpaceOrTab character = true)
    (word : ∀ character ∈ keyword, (!isBlank character) = true) (wordFilled : keyword ≠ [])
    (betweenBlanks : ∀ character ∈ between, isBlank character = true)
    (betweenFilled : between ≠ [])
    (starts : argument.head?.any isBlank = false) (ends : argument.getLast?.any isBlank = false)
    (filled : argument ≠ []) (endingBlanks : ∀ character ∈ ending, isBlank character = true) :
    parse? (indent ++ ['#'] ++ gap ++ keyword ++ between ++ argument ++ ending) =
      some ⟨DirectiveKind.ofName keyword, keyword, argument⟩ := by
  have lineEnds : (indent ++ ['#'] ++ gap ++ keyword ++ between ++
      argument).getLast?.any isBlank = false := by
    rwa [List.getLast?_append_of_ne_nil _ filled]
  rcases Text.exists_withoutEnding lineEnds endingBlanks with ⟨kept, same, keptBlanks⟩
  have behindIndent : (indent ++ ['#'] ++ gap ++ keyword ++ between ++ argument ++
      kept).dropWhile isSpaceOrTab =
      '#' :: (gap ++ (keyword ++ (between ++ argument ++ kept))) := by
    simp only [List.append_assoc]
    exact (Text.takeWhile_dropWhile_append indentSpaces rfl).2
  have wordStarts : (keyword ++ (between ++ argument ++ kept)).head?.any isSpaceOrTab = false := by
    rcases List.exists_cons_of_ne_nil wordFilled with ⟨letter, letters, rfl⟩
    by_contra space
    have blank := isBlank_of_isSpaceOrTab (eq_true_of_ne_false space)
    simpa [blank] using word letter List.mem_cons_self
  have stops : (between ++ argument ++ kept).head?.any (fun character => !isBlank character) =
      false := by
    rcases List.exists_cons_of_ne_nil betweenFilled with ⟨blank, more, rfl⟩
    simp [betweenBlanks blank List.mem_cons_self]
  have behindGap := (Text.takeWhile_dropWhile_append gapSpaces wordStarts).2
  have split := Text.takeWhile_dropWhile_append word stops
  rw [parse?, same, behindIndent]
  simp only [behindGap, split.1, split.2, Text.trim_append betweenBlanks keptBlanks starts ends]

namespace OpeningForm

variable {form : OpeningForm} {name line : Text}

/-- What stands behind the name of the directive neither begins nor ends with a blank. -/
theorem argument_edges (form : OpeningForm) (identifier : name.isIdentifier = true) :
    (form.argument name).head?.any isBlank = false ∧
      (form.argument name).getLast?.any isBlank = false := by
  rcases Text.letters_of_isIdentifier identifier with ⟨filled, letters⟩
  rcases Text.edges_of_forall fun character member =>
    isBlank_of_isWordCharacter (letters character member) with ⟨starts, ends⟩
  have closed (front : Text) : (front ++ ")".toList).getLast?.any isBlank = false := by
    rw [show ")".toList = [')'] from rfl, List.getLast?_concat]
    rfl
  cases form with
  | ifDefined => exact ⟨starts, ends⟩
  | ifNotDefined => exact ⟨starts, ends⟩
  | ifCall => exact ⟨rfl, closed _⟩
  | ifNotCall => exact ⟨rfl, closed _⟩
  | ifWord =>
    refine ⟨rfl, ?_⟩
    rwa [argument, List.getLast?_append_of_ne_nil _ filled]

/-- A line of a form is read as its directive. -/
theorem parse?_of_isWritten (identifier : name.isIdentifier = true)
    (written : form.IsWritten name line) : Directive.parse? line = some (form.directive name) := by
  rcases written with ⟨indent, gap, between, ending, spaces, blanks, filled, rfl⟩
  rcases List.forall_mem_append.1 spaces with ⟨indentSpaces, gapSpaces⟩
  rcases List.forall_mem_append.1 blanks with ⟨betweenBlanks, endingBlanks⟩
  rcases form.argument_edges identifier with ⟨starts, ends⟩
  have argumentFilled : form.argument name ≠ [] := by
    have nameFilled := (Text.letters_of_isIdentifier identifier).1
    cases form <;> simp [argument, nameFilled]
  have keyword : (∀ character ∈ form.keyword, (!isBlank character) = true) ∧
      form.keyword ≠ [] := by
    cases form <;> exact ⟨List.all_eq_true.1 rfl, by decide⟩
  exact Directive.parse?_of_parts indentSpaces gapSpaces keyword.1 keyword.2 betweenBlanks filled
    starts ends argumentFilled endingBlanks

end OpeningForm

/-! ## Answering the question -/

section Answers

variable {name : Text}

theorem trimStart_identifier (identifier : name.isIdentifier = true) (rest : Text) :
    (name ++ rest).trimStart = name ++ rest := by
  rcases Text.letters_of_isIdentifier identifier with ⟨filled, letters⟩
  rcases List.exists_cons_of_ne_nil filled with ⟨character, more, rfl⟩
  exact Text.trimStart_eq_self (isBlank_of_isWordCharacter (letters _ List.mem_cons_self))

theorem definedTest?_word (identifier : name.isIdentifier = true) :
    definedTest? (definedWord ++ " ".toList ++ name) = some (name, []) := by
  have behind : Text.trimStart (" ".toList ++ name) = name := by
    have trimmed := trimStart_identifier identifier []
    rw [List.append_nil] at trimmed
    exact trimmed
  have named := identifier?_append identifier (Lexeme.stopsAt_nil (.word name))
  have noGroup := parenthesizedIdentifier?_of_word identifier []
  rw [List.append_nil] at named noGroup
  rw [List.append_assoc, definedTest?_append, behind, noGroup]
  exact named

theorem definedTest?_call (identifier : name.isIdentifier = true) :
    definedTest? (definedWord ++ "(".toList ++ name ++ ")".toList) = some (name, []) := by
  have stops : (Lexeme.word name).StopsAt ")".toList := rfl
  have named := identifier?_append identifier stops
  have group : parenthesizedIdentifier? ('(' :: (name ++ ")".toList)) = some (name, []) := by
    have begins : Text.afterStart? ('(' :: (name ++ ")".toList)) ['('] =
        some (name ++ ")".toList) := Text.afterStart?_eq_some_iff.2 rfl
    rw [parenthesizedIdentifier?, begins]
    simp only [Option.bind_eq_bind, Option.bind_some, trimStart_identifier identifier, named]
    rfl
  have behind : Text.trimStart ("(".toList ++ (name ++ ")".toList)) =
      '(' :: (name ++ ")".toList) := rfl
  rw [List.append_assoc, List.append_assoc, definedTest?_append, behind, group]
  rfl

theorem replaceDefined_of_test (isDefined : Text → Bool) {text : Text}
    (found : definedTest? text = some (name, [])) :
    replaceDefined isDefined text = [answerDigit (isDefined name)] :=
  (replaceDefined_test isDefined found).1

theorem replaceDefined_not (isDefined : Text → Bool) (text : Text) :
    replaceDefined isDefined ("!".toList ++ text) = '!' :: replaceDefined isDefined text := by
  have pieces : testPieces ("!".toList ++ text) = "!".toList.map .inl ++ testPieces text :=
    testPieces_marks (by decide) (by decide +kernel)
  rw [replaceDefined_eq, pieces, List.map_append, ← replaceDefined_eq]
  rfl

end Answers

namespace MacroTable

variable {environment : Environment} {table : MacroTable}

/-- No macro has a meaning for a digit. -/
theorem IsLawful.replacement?_digit (lawful : table.IsLawful environment) (line : Origin)
    (answer : Bool) : table.replacement? line [answerDigit answer] = none := by
  refine Option.not_isSome_iff_eq_none.1 fun known => ?_
  have identifier := lawful.isIdentifier_of_replacement? known
  cases answer <;> cases identifier

/-- The digit for a test, also behind a negation, is left as it is when macros are expanded. -/
theorem IsLawful.expand_digit (lawful : table.IsLawful environment) (line : Origin)
    (answer : Bool) {text : Text}
    (shape : text = [answerDigit answer] ∨ text = ['!', answerDigit answer]) :
    (table.expand line text).text = text ∧ (table.expand line text).issues = [] := by
  have digit : Piece.ofText [answerDigit answer] = [.word [answerDigit answer]] := by
    have first : Piece.first (answerDigit answer) [] = (.word [answerDigit answer], []) := by
      cases answer <;> rfl
    rw [Piece.ofText, first, Piece.ofText]
  have negated :
      Piece.ofText ['!', answerDigit answer] = [.mark '!', .word [answerDigit answer]] := by
    have first : Piece.first '!' [answerDigit answer] = (.mark '!', [answerDigit answer]) := rfl
    rw [Piece.ofText, first, digit]
  have inert : ∀ name, .word name ∈ Piece.ofText text → table.replacement? line name = none := by
    intro name member
    have same : name = [answerDigit answer] := by
      rcases shape with rfl | rfl
      · simpa [digit] using member
      · simpa [negated] using member
    rw [same]
    exact lawful.replacement?_digit line answer
  refine ⟨text_expandActive_of_inert inert, ?_⟩
  rw [expand, expandActive_of_inert inert]

end MacroTable

/-- The digit for a test is one or zero. -/
theorem evaluate_answerDigit (answer : Bool) :
    evaluate [answerDigit answer] = .ok ⟨Value.ofBool answer, []⟩ ∧
      evaluate ['!', answerDigit answer] = .ok ⟨Value.ofBool (!answer), []⟩ := by
  cases answer <;> exact ⟨rfl, rfl⟩

theorem isTrue_ofBool (condition : Bool) : (Value.ofBool condition).isTrue = condition := by
  cases condition <;> rfl

namespace LineState

variable {environment : Environment} {state : LineState} {name : Text}

/-- A condition of which a digit is left holds when the digit says so, and nothing is said about
it. -/
theorem conditionHolds_eq (lawful : state.macros.IsLawful environment) (origin : Origin)
    {condition : Text} {answer : Bool} (negated : Bool)
    (replaced : replaceDefined state.macros.isDefined condition =
      if negated then ['!', answerDigit answer] else [answerDigit answer]) :
    state.conditionHolds origin condition = (answer != negated, []) := by
  have shape : replaceDefined state.macros.isDefined condition = [answerDigit answer] ∨
      replaceDefined state.macros.isDefined condition = ['!', answerDigit answer] := by
    cases negated with
    | false => exact .inl replaced
    | true => exact .inr replaced
  rcases lawful.expand_digit origin answer shape with ⟨text, issues⟩
  have evaluated : evaluate (state.macros.expand origin
      (replaceDefined state.macros.isDefined condition)).text =
      .ok ⟨Value.ofBool (answer != negated), []⟩ := by
    rw [text, replaced]
    cases negated with
    | false =>
      rw [Bool.bne_false]
      exact (evaluate_answerDigit answer).1
    | true =>
      rw [Bool.bne_true]
      exact (evaluate_answerDigit answer).2
  simp only [conditionHolds, evaluated, issues, issueProblems, isTrue_ofBool, List.map_nil,
    List.append_nil]

theorem firstWord_of_isIdentifier (identifier : name.isIdentifier = true) :
    name.firstWord = name := by
  have trimmed := trimStart_identifier identifier []
  rw [List.append_nil] at trimmed
  rw [Text.firstWord, trimmed, List.takeWhile_eq_self_iff]
  intro character member
  rw [isBlank_of_isWordCharacter ((Text.letters_of_isIdentifier identifier).2 character member)]
  rfl

/-- In each of the forms the branch is taken when the name is defined, or when it is not, and
nothing is said about it. -/
theorem opensTaken_eq (lawful : state.macros.IsLawful environment) (origin : Origin)
    (identifier : name.isIdentifier = true) (form : OpeningForm) :
    state.opensTaken origin (form.directive name) =
      (state.macros.isDefined name == form.asksDefined, []) := by
  cases form with
  | ifDefined =>
    change (state.macros.isDefined name.firstWord, []) = _
    rw [firstWord_of_isIdentifier identifier, OpeningForm.asksDefined, beq_true]
  | ifNotDefined =>
    change (!state.macros.isDefined name.firstWord, []) = _
    rw [firstWord_of_isIdentifier identifier, OpeningForm.asksDefined, beq_false]
  | ifCall =>
    have replaced := replaceDefined_of_test state.macros.isDefined
      (definedTest?_call identifier)
    refine (state.conditionHolds_eq lawful origin false replaced).trans ?_
    rw [Bool.bne_false, OpeningForm.asksDefined, beq_true]
  | ifWord =>
    have replaced := replaceDefined_of_test state.macros.isDefined
      (definedTest?_word identifier)
    refine (state.conditionHolds_eq lawful origin false replaced).trans ?_
    rw [Bool.bne_false, OpeningForm.asksDefined, beq_true]
  | ifNotCall =>
    have argument : OpeningForm.ifNotCall.argument name =
        "!".toList ++ (definedWord ++ "(".toList ++ name ++ ")".toList) := by
      simp only [OpeningForm.argument, List.append_assoc]
    have replaced : replaceDefined state.macros.isDefined (OpeningForm.ifNotCall.argument name) =
        ['!', answerDigit (state.macros.isDefined name)] := by
      rw [argument, replaceDefined_not, replaceDefined_of_test _ (definedTest?_call identifier)]
    refine (state.conditionHolds_eq lawful origin true replaced).trans ?_
    rw [Bool.bne_true, OpeningForm.asksDefined, beq_false]

/-- The effect of a line of one of the forms: it opens a block, and nothing else. -/
theorem read_of_isWritten (state : LineState) (lawful : state.macros.IsLawful environment)
    (origin : Origin) (identifier : name.isIdentifier = true) {form : OpeningForm} {line : Text}
    (written : form.IsWritten name line) (on : state.enabled = true) :
    state.read origin line =
      { state := { state with
          blocks := Block.opening
            (if state.isActive then
              Block.firstBranch (state.macros.isDefined name == form.asksDefined)
            else .finished) origin.line state.blocks } } := by
  have opens : state.read origin line = state.openBlock origin (form.directive name) := by
    rw [read, OpeningForm.parse?_of_isWritten identifier written]
    simp only [on, Bool.not_true, Bool.false_eq_true, if_false]
    cases form <;> rfl
  rw [opens, openBlock]
  cases active : state.isActive with
  | true =>
    simp only [if_true, opensTaken_eq lawful origin identifier form]
  | false =>
    simp only [Bool.false_eq_true, if_false]

end LineState

namespace Preprocessor

variable {environment : Environment} {preprocessor : Preprocessor}

/-- The preprocessor with a line to be read next. -/
def facing (preprocessor : Preprocessor) (frame : Frame) (below : List Frame) (line : Text)
    (unread : List Text) : Preprocessor :=
  { preprocessor with frames := { frame with unread := line :: unread } :: below }

/-- The preprocessor behind a line that has opened a block, whose first branch is taken or not.  A
block in a branch that is skipped has no branch to be taken. -/
def opened (preprocessor : Preprocessor) (frame : Frame) (below : List Frame) (unread : List Text)
    (taken : Bool) : Preprocessor :=
  { preprocessor with
    frames :=
      { frame with
        unread
        linesRead := frame.linesRead + 1
        blocks := Block.opening
          (if Block.isActive frame.blocks then Block.firstBranch taken else .finished)
          (frame.linesRead + 1) frame.blocks } :: below }

/-- The preprocessor behind a line that was copied. -/
def copied (preprocessor : Preprocessor) (frame : Frame) (below : List Frame) (line : Text)
    (unread : List Text) : Preprocessor :=
  { preprocessor with
    frames := { frame with unread, linesRead := frame.linesRead + 1 } :: below
    emissions := preprocessor.emissions.push
      ⟨⟨frame.unit.name, frame.linesRead + 1⟩, [.copied line]⟩ }

theorem step_of_isWritten (lawful : preprocessor.macros.IsLawful environment) {frame : Frame}
    {name line : Text} (identifier : name.isIdentifier = true) {form : OpeningForm}
    (written : form.IsWritten name line) (on : frame.enabled = true) (below : List Frame)
    (unread : List Text) :
    (preprocessor.facing frame below line unread).step =
      .next (preprocessor.opened frame below unread
        (preprocessor.macros.isDefined name == form.asksDefined)) := by
  have read := (preprocessor.lineState frame).read_of_isWritten lawful
    ⟨frame.unit.name, frame.linesRead + 1⟩ identifier written on
  have effect : ((preprocessor.facing frame below line unread).readingOf
      { frame with unread := line :: unread } below line).effect = _ := read
  rw [step_of_line rfl rfl, effect, behind, effect]
  simp only [apply, advance, facing, opened, readingOf, lineState, LineState.isActive,
    List.map_nil, Array.append_empty]
  rfl

theorem step_of_off {frame : Frame} {name line : Text} (identifier : name.isIdentifier = true)
    {form : OpeningForm} (written : form.IsWritten name line) (off : frame.enabled = false)
    (preprocessor : Preprocessor) (below : List Frame) (unread : List Text) :
    (preprocessor.facing frame below line unread).step =
      .next (preprocessor.copied frame below line unread) := by
  have read : (preprocessor.lineState frame).read ⟨frame.unit.name, frame.linesRead + 1⟩ line =
      (preprocessor.lineState frame).copy line := by
    have off : (preprocessor.lineState frame).enabled = false := off
    rw [LineState.read, OpeningForm.parse?_of_isWritten identifier written]
    simp only [off, Bool.not_false, if_true]
    cases form <;> rfl
  have effect : ((preprocessor.facing frame below line unread).readingOf
      { frame with unread := line :: unread } below line).effect = _ := read
  rw [step_of_line rfl rfl, effect, behind, effect]
  simp only [apply, advance, facing, copied, readingOf, lineState, LineState.copy, List.map_nil,
    Array.append_empty]
  rfl

/-- On every line that opens a block with a question whether a name is defined, the run goes on with
the branch that answers it, and says nothing.  It is the same run for every form that asks the same.
While preprocessing is off, every form is copied. -/
theorem run_of_openings {maxDepth : Nat} {edits : List MacroEdit}
    (macros : preprocessor.macros = (MacroTable.ofEnvironment environment maxDepth).edited edits)
    (frame : Frame) (below : List Frame) (unread : List Text) {name : Text}
    (identifier : name.isIdentifier = true) :
    (frame.enabled = true →
      (∀ (form : OpeningForm) (line : Text), form.IsWritten name line →
        (preprocessor.facing frame below line unread).step =
          .next (preprocessor.opened frame below unread
            (preprocessor.macros.isDefined name == form.asksDefined))) ∧
      ∀ (form other : OpeningForm) (line otherLine : Text), form.IsWritten name line →
        other.IsWritten name otherLine → form.asksDefined = other.asksDefined →
          (preprocessor.facing frame below line unread).run =
            (preprocessor.facing frame below otherLine unread).run) ∧
    (frame.enabled = false → ∀ (form : OpeningForm) (line : Text), form.IsWritten name line →
      (preprocessor.facing frame below line unread).step =
        .next (preprocessor.copied frame below line unread)) := by
  have lawful : preprocessor.macros.IsLawful environment := by
    rw [macros]
    exact MacroTable.isLawful_edited environment maxDepth edits
  refine ⟨fun on => ⟨fun form line written => ?_, ?_⟩, fun off form line written => ?_⟩
  · exact step_of_isWritten lawful identifier written on below unread
  · intro form other line otherLine written otherWritten same
    rw [run_of_next (step_of_isWritten lawful identifier written on below unread),
      run_of_next (step_of_isWritten lawful identifier otherWritten on below unread), same]
  · exact step_of_off identifier written off preprocessor below unread

/-- A macro that reaches itself is defined like any other. -/
theorem run_of_openings_recursive :
    let preprocessor : Preprocessor :=
      { options := {}
        macros := (MacroTable.ofEnvironment .bare 32).edited [.define "X X + 1".toList] }
    let frame : Frame := { unit := ⟨"m".toList, [], none⟩, key := "m".toList, unread := [] }
    (preprocessor.facing frame [] "#if !defined(X)\n".toList ["#endif\n".toList]).step =
      .next (preprocessor.opened frame [] ["#endif\n".toList] false) ∧
    (preprocessor.facing frame [] "#ifdef X\n".toList ["#endif\n".toList]).run =
      (preprocessor.facing frame [] "#if defined X\r\n".toList ["#endif\n".toList]).run ∧
    (preprocessor.facing { frame with enabled := false } [] "#ifndef X".toList []).step =
      .next (preprocessor.copied { frame with enabled := false } [] "#ifndef X".toList []) := by
  intro preprocessor frame
  have newline : ∀ character ∈ "\n".toList, isBlank character = true := List.all_eq_true.1 rfl
  have returned : ∀ character ∈ "\r\n".toList, isBlank character = true :=
    List.all_eq_true.1 rfl
  have macros : preprocessor.macros = (MacroTable.ofEnvironment .bare 32).edited
      [.define "X X + 1".toList] := rfl
  have identifier : Text.isIdentifier "X".toList = true := rfl
  have onLines := (run_of_openings macros frame [] ["#endif\n".toList] identifier).1 rfl
  have offLines := (run_of_openings macros { frame with enabled := false } [] [] identifier).2 rfl
  refine ⟨?_, ?_, ?_⟩
  · exact onLines.1 .ifNotCall _ (OpeningForm.isWritten_plain .ifNotCall _ newline)
  · exact onLines.2 .ifDefined .ifWord _ _ (OpeningForm.isWritten_plain .ifDefined _ newline)
      (OpeningForm.isWritten_plain .ifWord _ returned) rfl
  · exact offLines .ifNotDefined _
      (OpeningForm.isWritten_plain .ifNotDefined _ (List.forall_mem_nil _))

end Preprocessor

end ScriptPreprocessor
