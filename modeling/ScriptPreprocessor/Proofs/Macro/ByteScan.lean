import ScriptPreprocessor.Proofs.Macro.ByteReaders
import ScriptPreprocessor.Proofs.Macro.Edits

namespace ScriptPreprocessor

/-!
# Expansion as a scan of bytes

The scanner goes through a text by byte columns, and calls itself for replacements and arguments.
It does so here with every step checked: a column that is looked at must lie in the text, a part
must begin and end between characters, a counter must not fall below zero, every turn must advance,
an argument must be shorter than the text in which its call stands, and the active macros must be
different ones, no more than may nest and no more than are defined.

The checks bound the recursion: the scan ends because an active macro takes one of the remaining
levels, an argument is shorter, and a turn leaves less of the text.  No check ever fails, and the
scan gives what the recursion on characters gives (`MacroTable.scan_edited`).
-/

open Utf8 (encode)

/-- What a scan has put out so far. -/
structure Scanned where
  text : Text := []
  spans : List MacroSpan := []
  issues : List ExpansionIssue := []
  deriving DecidableEq, Repr

namespace Scanned

/-- A part of the text is put out as it is. -/
def copy (done : Scanned) (part : Text) (issues : List ExpansionIssue) : Scanned :=
  ⟨done.text ++ part, done.spans, done.issues ++ issues⟩

/-- What stands between two columns is replaced. -/
def replace (done : Scanned) (start : Nat) (stop : Ahead start) (shown : Text)
    (issues : List ExpansionIssue) : Scanned :=
  let span : MacroSpan :=
    { expandedStart := done.text.width
      expandedEnd := done.text.width + shown.width
      sourceColumn := start
      sourceLength := stop - start }
  ⟨done.text ++ shown, done.spans ++ [span], done.issues ++ issues⟩

/-- An expansion is put out that begins at a column. -/
def append (done : Scanned) (column : Nat) (expansion : Expansion) : Scanned :=
  ⟨done.text ++ expansion.text,
    done.spans ++ Segment.spansFrom done.text.width column expansion.segments,
    done.issues ++ expansion.issues⟩

end Scanned

namespace MacroTable

/-- The active macros must be different, no more than may nest and no more than are defined. -/
def checkActive (table : MacroTable) (active : List Text) : Except ScanFault Unit :=
  if active.Nodup ∧ active.length ≤ min table.maxDepth table.size then .ok () else .error .active

/-- A text is scanned from a column on, behind what is done. -/
def scanFrom (table : MacroTable) (line : Origin) (active : List Text) (text : Text)
    (column : Nat) (done : Scanned) : Except ScanFault Scanned :=
  if column < text.width then do
    let byte ← byteAt (encode text) column
    let (part, stop) ← readRun text column
    let replacement :=
      if isAscii isWordCharacter byte && !isAscii Char.isDigit byte then
        table.replacement? line part
      else none
    match replacement with
    | none => table.scanFrom line active text stop (done.copy part [])
    | some replacement =>
      if part ∈ active then
        table.scanFrom line active text stop (done.copy part [.recursive part])
      else
        match replacement with
        | .builtin shown => table.scanFrom line active text stop (done.replace column stop shown [])
        | .defined (.object body) =>
          if active.length < table.maxDepth then
            table.checkActive (part :: active)
            let inner ← table.scanFrom line (part :: active) body 0 {}
            table.scanFrom line active text stop
              (done.replace column stop inner.text inner.issues)
          else
            table.scanFrom line active text stop (done.copy part [.tooDeep part])
        | .defined (.function parameters body) =>
          match ← readCall text stop with
          | none => table.scanFrom line active text stop (done.copy part [])
          | some (arguments, behind) =>
            let stop ← ahead column behind
            let count := argumentCount parameters arguments
            if count ≠ parameters.length then
              let source ← text.cut column stop
              table.scanFrom line active text stop
                (done.copy source [.argumentCount part parameters.length count])
            else if active.length < table.maxDepth then
              let expanded ← arguments.mapM fun argument =>
                if argument.width < text.width then table.scanFrom line active argument 0 {}
                else .error .argument
              let substituted ←
                substituteFrom parameters (expanded.map Scanned.text) body 0 []
              table.checkActive (part :: active)
              let inner ← table.scanFrom line (part :: active) substituted 0 {}
              table.scanFrom line active text stop
                (done.replace column stop inner.text
                  (expanded.flatMap Scanned.issues ++ inner.issues))
            else
              let source ← text.cut column stop
              table.scanFrom line active text stop (done.copy source [.tooDeep part])
  else
    return done
  termination_by (table.maxDepth - active.length, text.width, text.width - column)
  decreasing_by
    all_goals first
      | exact .left _ _ (by simp only [List.length_cons]; omega)
      | exact .right _ (.left _ _ ‹_›)
      | exact .right _ (.right _ (by omega))

/-- A line is scanned from its beginning on. -/
def scan (table : MacroTable) (line : Origin) (text : Text) : Except ScanFault Scanned :=
  table.scanFrom line [] text 0 {}

variable {environment : Environment} {table : MacroTable} {line : Origin} {active : List Text}
  {front rest after name : Text} {character : Char} {done : Scanned}

/-! ## Turns -/

theorem scanFrom_of_end (text : Text) :
    table.scanFrom line active text text.width done = .ok done := by
  rw [scanFrom, if_neg (Nat.lt_irrefl _)]
  rfl

/-- Nothing that is no word is replaced. -/
theorem scanFrom_of_run {part : Text} {stop : Ahead front.width}
    (run : readRun (front ++ character :: rest) front.width = .ok (part, stop))
    (noLetter : isWordCharacter character = false) :
    table.scanFrom line active (front ++ character :: rest) front.width done =
      table.scanFrom line active (front ++ character :: rest) stop (done.copy part []) := by
  rcases Utf8.byteAt_encode front rest character with ⟨byte, found, kinds, _⟩
  rw [scanFrom, if_pos (lt_width_append (List.cons_ne_nil _ _))]
  simp only [found, run, bind, Except.bind, kinds isWordCharacter isAsciiKind_isWordCharacter,
    noLetter, Bool.false_and, Bool.false_eq_true, if_false]

theorem scanFrom_of_mark (mark : isMark character = true) :
    table.scanFrom line active (front ++ character :: rest) front.width done =
      table.scanFrom line active (front ++ character :: rest) (front ++ [character]).width
        (done.copy [character] []) := by
  refine scan_mark_of_runs (table.scanFrom line active (front ++ character :: rest))
    (Scanned.copy · · []) ?_ ?_ (rfl : front ++ character :: rest = _) mark done
  · intro done first second
    simp [Scanned.copy]
  · intro front rest character done whole mark
    rw [← whole]
    exact scanFrom_of_run (readRun_of_mark mark) (not_isWordCharacter_of_isMark mark)

/-- A word is looked up in every case, since nothing that begins with a digit is found. -/
theorem exists_turn_of_word (lawful : table.IsLawful environment) (front : Text)
    (shape : Piece.first character rest = (.word name, after)) {replacement : Option Replacement}
    (known : table.replacement? line name = replacement) :
    ∃ byte, byteAt (encode (front ++ character :: rest)) front.width = .ok byte ∧
      readRun (front ++ character :: rest) front.width = .ok
        (name, ⟨(front ++ name).width, lt_width_append (text_ne_nil_of_first shape)⟩) ∧
      (if (isAscii isWordCharacter byte && !isAscii Char.isDigit byte) = true then
        table.replacement? line name else none) = replacement := by
  have letter := (isWordCharacter_of_first shape).2 ⟨name, rfl⟩
  have noMark : isMark character = false := by
    rw [isMark, letter, Bool.or_true, Bool.not_true]
  rcases Utf8.byteAt_encode front rest character with ⟨byte, found, kinds, _⟩
  refine ⟨byte, found, readRun_of_first shape noMark, ?_⟩
  rw [kinds _ isAsciiKind_isWordCharacter, kinds _ isAsciiKind_isDigit, letter, Bool.true_and]
  cases digit : character.isDigit with
  | false => exact known
  | true =>
    cases replacement with
    | none => rfl
    | some replacement =>
      have identifier := lawful.isIdentifier_of_replacement?
        (Option.isSome_iff_exists.2 ⟨replacement, known⟩)
      rcases List.exists_cons_of_ne_nil (text_ne_nil_of_first shape) with ⟨begins, more, same⟩
      have same : name = begins :: more := same
      have first := (List.cons.inj (same ▸ Piece.text_append_of_first shape)).1
      rw [same, Text.isIdentifier, first, isIdentifierStart_of_isDigit digit] at identifier
      cases identifier

/-! ## The scan and the expansion -/

section Resume

variable {part text : Text} {expansion : Expansion}

/-- Behind a copied part the scan goes on as the expansion does. -/
theorem scanFrom_copy (whole : part ++ after = text)
    (later : ∀ front done, table.scanFrom line active (front ++ after) front.width done =
      .ok (done.append front.width expansion)) (issues : List ExpansionIssue) :
    table.scanFrom line active (front ++ text) (front ++ part).width (done.copy part issues) =
      .ok (done.append front.width (expansion.prepend (.copied part) issues)) := by
  have next := later (front ++ part) (done.copy part issues)
  rw [List.append_assoc, whole] at next
  rw [next]
  simp [Scanned.append, Scanned.copy, Expansion.prepend, Expansion.text, Segment.expanded,
    Segment.spansFrom]

/-- Behind a replaced part the scan goes on as the expansion does. -/
theorem scanFrom_replace (whole : part ++ after = text)
    (later : ∀ front done, table.scanFrom line active (front ++ after) front.width done =
      .ok (done.append front.width expansion)) (advances : front.width < (front ++ part).width)
    (shown : Text) (issues : List ExpansionIssue) :
    table.scanFrom line active (front ++ text) (front ++ part).width
        (done.replace front.width ⟨(front ++ part).width, advances⟩ shown issues) =
      .ok (done.append front.width (expansion.prepend (.replaced part shown) issues)) := by
  have next := later (front ++ part)
    (done.replace front.width ⟨(front ++ part).width, advances⟩ shown issues)
  rw [List.append_assoc, whole] at next
  rw [next]
  simp [Scanned.append, Scanned.replace, Expansion.prepend, Expansion.text, Segment.expanded,
    Segment.spansFrom]

end Resume

theorem checkActive_of_stack (stack : table.IsStack active)
    (room : active.length ≤ table.maxDepth) : table.checkActive active = .ok () := by
  rw [checkActive, if_pos ⟨stack.distinct, Nat.le_min.2 ⟨room, stack.length_le_size⟩⟩]

/-! ## Calls -/

section Calls

variable {text : Text} {call : Call}

/-- The call behind a word ends at the column behind its source. -/
theorem readCall_of_word (whole : name ++ after = text) (front : Text) :
    readCall (front ++ text) (front ++ name).width =
      .ok ((Call.parse? after).map fun call =>
        (call.arguments, (front ++ (name ++ call.source)).width)) := by
  have read := readCall_append (front ++ name) after
  rw [List.append_assoc, whole] at read
  rw [read]
  cases found : Call.parse? after with
  | none => rfl
  | some call =>
    have behind : (front ++ text).width - call.after.width =
        (front ++ (name ++ call.source)).width := by
      rw [← whole, ← Call.source_append_after found]
      simp only [Text.width_append]
      omega
    rw [Option.map_some, Option.map_some, behind]

/-- A call is read, passed over and copied at columns between characters. -/
theorem exists_turn_of_call (shape : Piece.first character rest = (.word name, after))
    (parsed : Call.parse? after = some call) (front : Text) :
    ∃ advances : front.width < (front ++ (name ++ call.source)).width,
      readCall (front ++ character :: rest) (front ++ name).width =
        .ok (some (call.arguments, (front ++ (name ++ call.source)).width)) ∧
      ahead front.width (front ++ (name ++ call.source)).width = .ok ⟨_, advances⟩ ∧
      (front ++ character :: rest).cut front.width (front ++ (name ++ call.source)).width =
        .ok (name ++ call.source) := by
  have filled : name ++ call.source ≠ [] :=
    List.append_ne_nil_of_left_ne_nil (text_ne_nil_of_first shape) _
  have read := readCall_of_word (Piece.text_append_of_first shape) front
  rw [parsed] at read
  refine ⟨lt_width_append filled, read, ahead_of_lt _, ?_⟩
  rw [← Call.text_append_of_first shape parsed]
  exact Text.cut_append front (name ++ call.source) call.after

theorem width_le_of_sublist {left right : Text} (contained : left.Sublist right) :
    left.width ≤ right.width := by
  induction contained with
  | slnil => exact Nat.le_refl _
  | cons character _ ih => exact Nat.le_trans ih (Nat.le_add_left _ _)
  | cons_cons character _ ih => exact Nat.add_le_add_left ih _

/-- An argument is shorter than the call. -/
theorem width_argument_lt (found : Call.parse? text = some call) {argument : Text}
    (member : argument ∈ call.arguments) : argument.width < text.width := by
  rcases Call.exists_inside found with ⟨blanks, inside, source, arguments, whole⟩
  have bound := width_le_of_sublist (Call.sublist_of_mem_arguments (arguments ▸ member))
  have positive := Char.utf8Size_pos '('
  rw [← whole, source]
  simp only [Text.width_append, Text.width_cons]
  omega

/-- An argument is shorter than the text in which its call stands. -/
theorem width_argument_lt_text (shape : Piece.first character rest = (.word name, after))
    (parsed : Call.parse? after = some call) {argument : Text}
    (member : argument ∈ call.arguments) (front : Text) :
    argument.width < (front ++ character :: rest).width := by
  have bound := width_argument_lt parsed member
  rw [← Piece.text_append_of_first shape]
  simp only [Text.width_append]
  omega

end Calls

/-- A call that has the right number of arguments has an argument for every parameter. -/
theorem length_le_of_argumentCount {parameters arguments : List Text}
    (right : argumentCount parameters arguments = parameters.length) :
    parameters.length ≤ arguments.length := by
  unfold argumentCount at right
  split at right
  · omega
  · exact Nat.le_of_eq right.symm

theorem mapM_eq_ok {Source Result : Type} {read : Source → Except ScanFault Result}
    {result : Source → Result} {sources : List Source}
    (each : ∀ source ∈ sources, read source = .ok (result source)) :
    sources.mapM read = .ok (sources.map result) := by
  induction sources with
  | nil => rfl
  | cons source sources ih =>
    rcases List.forall_mem_cons.1 each with ⟨first, later⟩
    rw [List.mapM_cons, first, ih later]
    rfl

/-- A part that the expansion copies is copied by the scan, which goes on behind it. -/
theorem scanFrom_of_copies (lawful : table.IsLawful environment) {text part : Text}
    {issues : List ExpansionIssue} (copies : table.Copies line active text part issues after)
    (front : Text) (done : Scanned) :
    table.scanFrom line active (front ++ text) front.width done =
      table.scanFrom line active (front ++ text) (front ++ part).width
        (done.copy part issues) := by
  cases copies with
  | mark shape noWord =>
    next character rest piece =>
    have noLetter : isWordCharacter character = false := (Piece.head_of_mark shape noWord).2
    -- the scan copies a run of marks in one turn, of which the expansion copies only the first
    by_cases mark : isMark character = true
    · rw [first_of_isMark mark] at shape
      cases shape
      exact scanFrom_of_mark mark
    · exact scanFrom_of_run (readRun_of_first shape (eq_false_of_ne_true mark)) noLetter
  | unknown shape unknown =>
    rcases exists_turn_of_word lawful front shape unknown with ⟨byte, found, run, lookUp⟩
    rw [scanFrom, if_pos (lt_width_append (List.cons_ne_nil _ _))]
    simp only [found, run, bind, Except.bind, lookUp]
  | recursive shape known isActive =>
    rcases exists_turn_of_word lawful front shape known with ⟨byte, found, run, lookUp⟩
    rw [scanFrom, if_pos (lt_width_append (List.cons_ne_nil _ _))]
    simp only [found, run, bind, Except.bind, lookUp, isActive, if_true]
  | tooDeep shape known inactive full =>
    rcases exists_turn_of_word lawful front shape known with ⟨byte, found, run, lookUp⟩
    rw [scanFrom, if_pos (lt_width_append (List.cons_ne_nil _ _))]
    simp only [found, run, bind, Except.bind, lookUp, inactive, if_false, full]
  | uncalled shape known inactive notCalled =>
    have whole : part ++ after = _ := Piece.text_append_of_first shape
    have called := readCall_of_word whole front
    rw [notCalled] at called
    rcases exists_turn_of_word lawful front shape known with ⟨byte, found, run, lookUp⟩
    rw [scanFrom, if_pos (lt_width_append (List.cons_ne_nil _ _))]
    simp only [found, run, bind, Except.bind, lookUp, inactive, if_false, called, Option.map_none]
  | miscounted shape known inactive parsed wrong =>
    rcases exists_turn_of_word lawful front shape known with ⟨byte, found, run, lookUp⟩
    rcases exists_turn_of_call shape parsed front with ⟨advances, called, passed, source⟩
    rw [scanFrom, if_pos (lt_width_append (List.cons_ne_nil _ _))]
    simp only [found, run, bind, Except.bind, lookUp, inactive, if_false, called, passed,
      if_pos wrong, source]
  | callTooDeep shape known inactive parsed right full =>
    rcases exists_turn_of_word lawful front shape known with ⟨byte, found, run, lookUp⟩
    rcases exists_turn_of_call shape parsed front with ⟨advances, called, passed, source⟩
    rw [scanFrom, if_pos (lt_width_append (List.cons_ne_nil _ _))]
    simp only [found, run, bind, Except.bind, lookUp, inactive, if_false, called, passed,
      if_neg (not_not_intro right), full, source]

/-- A scan of what is left of a text goes as the expansion of it does. -/
theorem scanFrom_append (lawful : table.IsLawful environment) (line : Origin) (active : List Text)
    (text : Text) (stack : table.IsStack active) (front : Text) (done : Scanned) :
    table.scanFrom line active (front ++ text) front.width done =
      .ok (done.append front.width (table.expandActive line active text)) := by
  induction active, text using expandActive_induction table line generalizing front done with
  | nil active =>
    rw [List.append_nil, scanFrom_of_end, expandActive_nil]
    simp [Scanned.append, Expansion.text, Segment.spansFrom]
  | copy copies ih =>
    rw [expandActive_of_copies copies, scanFrom_of_copies lawful copies]
    exact scanFrom_copy copies.append_eq (ih stack) _
  | builtin shape known inactive ih =>
    rcases exists_turn_of_word lawful front shape known with ⟨byte, found, run, lookUp⟩
    rw [expandActive_of_builtin shape known inactive, scanFrom,
      if_pos (lt_width_append (List.cons_ne_nil _ _))]
    simp only [found, run, bind, Except.bind, lookUp, inactive, if_false]
    exact scanFrom_replace (Piece.text_append_of_first shape) (ih stack) _ _ []
  | object shape known inactive room innerIh ih =>
    have pushed := stack.push inactive
      (Option.isSome_iff_exists.2 ⟨_, get?_of_replacement? known⟩)
    have inner := innerIh pushed [] {}
    simp only [List.nil_append, Text.width_nil] at inner
    rcases exists_turn_of_word lawful front shape known with ⟨byte, found, run, lookUp⟩
    rw [expandActive_of_object shape known inactive room, scanFrom,
      if_pos (lt_width_append (List.cons_ne_nil _ _))]
    simp only [found, run, bind, Except.bind, lookUp, inactive, if_false, room, if_true,
      checkActive_of_stack pushed room, inner]
    exact scanFrom_replace (Piece.text_append_of_first shape) (ih stack) _ _ _
  | call shape known inactive parsed right room argumentsIh innerIh ih =>
    next active character rest name after parameters body call =>
    have expanded : (call.arguments.mapM fun argument =>
        if argument.width < (front ++ character :: rest).width then
          table.scanFrom line active argument 0 {}
        else .error .argument) =
        .ok (call.arguments.map fun argument =>
          Scanned.append {} 0 (table.expandActive line active argument)) := by
      refine mapM_eq_ok fun argument member => ?_
      rw [if_pos (width_argument_lt_text shape parsed member front)]
      exact argumentsIh argument member stack [] {}
    have substituted : substituteFrom parameters
        (call.arguments.map (Scanned.text ∘ fun argument =>
          Scanned.append {} 0 (table.expandActive line active argument))) body 0 [] =
        .ok (table.bodyOfCall line active parameters body call) := by
      refine substituteFrom_append ?_ [] body []
      rw [List.length_map]
      exact length_le_of_argumentCount right
    have pushed := stack.push inactive
      (Option.isSome_iff_exists.2 ⟨_, get?_of_replacement? known⟩)
    have inner := innerIh pushed [] {}
    simp only [List.nil_append, Text.width_nil] at inner
    rcases exists_turn_of_word lawful front shape known with ⟨byte, found, run, lookUp⟩
    rcases exists_turn_of_call shape parsed front with ⟨advances, called, passed, _⟩
    rw [expandActive_of_call shape known inactive parsed right room, scanFrom,
      if_pos (lt_width_append (List.cons_ne_nil _ _))]
    simp only [found, run, bind, Except.bind, lookUp, inactive, if_false, called, passed,
      if_neg (not_not_intro right), room, if_true, expanded, List.map_map, substituted,
      checkActive_of_stack pushed room, inner, List.flatMap_map]
    exact scanFrom_replace (Call.text_append_of_first shape parsed) (ih stack) advances _ _

/-- Behind all definitions and removals the scan of a line comes to an end without a fault, and it
gives the expansion of the line. -/
theorem scan_edited (environment : Environment) (maxDepth : Nat) (edits : List MacroEdit)
    (line : Origin) (text : Text) :
    let table := (ofEnvironment environment maxDepth).edited edits
    let expansion := table.expand line text
    table.scan line text = .ok ⟨expansion.text, expansion.spans, expansion.issues⟩ :=
  scanFrom_append (isLawful_edited environment maxDepth edits) line [] text (IsStack.nil _) [] {}

end MacroTable

end ScriptPreprocessor
