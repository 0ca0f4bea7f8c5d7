import ScriptPreprocessor.Proofs.Macro.ByteReaders
import ScriptPreprocessor.Proofs.Macro.Rescanning

namespace ScriptPreprocessor

/-!
# Arguments of calls

What a call is can be said without its reader, by counting parentheses.  Only what stands outside
literals counts (`Text.exposed`).  An argument closes all its literals and parentheses, closes no
parenthesis that it has not opened, and holds a comma in parentheses only (`Text.IsArgument`).

A call is read exactly where such arguments stand behind a parenthesis, with commas between them and
the closing parenthesis behind them (`Call.Begins`).  No call is read exactly where no parenthesis
follows, or where the text behind it stays within it to the end (`Text.LacksCall`).
-/

namespace Text

/-! ## What stands outside literals -/

/-- The characters outside literals of a text that is read in a mode.  The quotation marks belong
to the literals. -/
def exposedFrom (mode : LiteralMode) : Text → Text
  | [] => []
  | character :: rest =>
    if mode = .outside ∧ isQuote character = false then
      character :: exposedFrom (mode.next character) rest
    else exposedFrom (mode.next character) rest

/-- The characters of a text that stand outside its literals. -/
def exposed (text : Text) : Text :=
  exposedFrom .outside text

example : exposed "f(\")\", 'it\\'s') // don't".toList = "f(, ) // don".toList := by decide

/-- In no beginning are more parentheses closed than were opened or are open in front. -/
def StaysWithin (depth : Nat) (marks : Text) : Prop :=
  ∀ front, front <+: marks → front.count ')' ≤ front.count '(' + depth

/-- Every parenthesis that was opened or is open in front is closed. -/
def ClosesAll (depth : Nat) (marks : Text) : Prop :=
  marks.count ')' = marks.count '(' + depth

/-- Every comma stands in a parenthesis that was opened or is open in front. -/
def CommasWithin (depth : Nat) (marks : Text) : Prop :=
  ∀ front back, marks = front ++ ',' :: back → front.count ')' < front.count '(' + depth

/-- A text that can be an argument of a call. -/
structure IsArgument (argument : Text) : Prop where
  literals : argument.ClosesLiterals
  within : argument.exposed.StaysWithin 0
  parentheses : argument.exposed.ClosesAll 0
  commas : argument.exposed.CommasWithin 0

/-- A text at whose beginning no call stands: no parenthesis follows its blanks, or that parenthesis
is never closed. -/
inductive LacksCall : Text → Prop where
  | unopened {text : Text} (none : (text.dropWhile isSpaceOrTab).head? ≠ some '(') : LacksCall text
  | unclosed {blanks rest : Text} (spaced : ∀ blank ∈ blanks, isSpaceOrTab blank = true)
      (stays : rest.exposed.StaysWithin 0) : LacksCall (blanks ++ '(' :: rest)

/-! ## One character more -/

section Marks

variable {depth : Nat} {mode : LiteralMode} {character : Char} {marks : Text}

/-- The depth behind a character makes up for what the character adds to the counts. -/
theorem count_cons_nextDepth (inside : ¬ (character = ')' ∧ depth = 0)) (marks : Text) :
    (character :: marks).count '(' + depth + marks.count ')' =
      (character :: marks).count ')' + marks.count '(' + nextDepth depth .outside character := by
  by_cases opens : character = '('
  · subst opens
    rw [List.count_cons_self, List.count_cons_of_ne (by decide), nextDepth, if_pos (by decide)]
    omega
  by_cases closes : character = ')'
  · subst closes
    have deep : depth ≠ 0 := fun none => inside ⟨rfl, none⟩
    rw [List.count_cons_self, List.count_cons_of_ne (by decide), nextDepth, if_neg (by decide),
      if_pos (by decide)]
    omega
  · rw [List.count_cons_of_ne opens, List.count_cons_of_ne closes, nextDepth,
      if_neg (by simpa using opens), if_neg (by simpa using closes)]
    omega

theorem staysWithin_cons : StaysWithin depth (character :: marks) ↔
    ¬ (character = ')' ∧ depth = 0) ∧ StaysWithin (nextDepth depth .outside character) marks := by
  constructor
  · intro within
    have inside : ¬ (character = ')' ∧ depth = 0) := by
      rintro ⟨rfl, rfl⟩
      exact absurd (within [')'] (by simp)) (by decide)
    refine ⟨inside, fun front start => ?_⟩
    have longer := within (character :: front) (by simpa using start)
    have counts := count_cons_nextDepth inside front
    omega
  · rintro ⟨inside, within⟩ front start
    rcases List.prefix_cons_iff.1 start with rfl | ⟨rest, rfl, later⟩
    · simp
    · have shorter := within rest later
      have counts := count_cons_nextDepth inside rest
      omega

theorem closesAll_cons (inside : ¬ (character = ')' ∧ depth = 0)) :
    ClosesAll depth (character :: marks) ↔
      ClosesAll (nextDepth depth .outside character) marks := by
  have counts := count_cons_nextDepth inside marks
  unfold ClosesAll
  omega

theorem commasWithin_cons (inside : ¬ (character = ')' ∧ depth = 0)) :
    CommasWithin depth (character :: marks) ↔
      ¬ (character = ',' ∧ depth = 0) ∧
        CommasWithin (nextDepth depth .outside character) marks := by
  constructor
  · intro within
    refine ⟨?_, fun front back whole => ?_⟩
    · rintro ⟨rfl, rfl⟩
      exact absurd (within [] marks rfl) (by decide)
    · have longer := within (character :: front) back (by rw [whole, List.cons_append])
      have counts := count_cons_nextDepth inside front
      omega
  · rintro ⟨noComma, within⟩ front back whole
    cases front with
    | nil =>
      have comma := (List.cons.inj whole).1
      have deep : depth ≠ 0 := fun none => noComma ⟨comma, none⟩
      simpa using Nat.pos_of_ne_zero deep
    | cons first front =>
      rcases List.cons.inj whole with ⟨rfl, rest⟩
      have shorter := within front back rest
      have counts := count_cons_nextDepth inside front
      omega

/-! ## Readers by depth -/

theorem next_of_exposed (plain : isQuote character = false) :
    LiteralMode.outside.next character = .outside := by
  rw [LiteralMode.next, plain, if_neg (by simp)]

theorem exposedFrom_of_exposed (plain : isQuote character = false) (rest : Text) :
    exposedFrom .outside (character :: rest) = character :: exposedFrom .outside rest := by
  rw [exposedFrom, if_pos ⟨rfl, plain⟩, next_of_exposed plain]

theorem exposedFrom_of_hidden (hidden : ¬ (mode = .outside ∧ isQuote character = false))
    (rest : Text) :
    exposedFrom mode (character :: rest) = exposedFrom (mode.next character) rest := by
  rw [exposedFrom, if_neg hidden]

/-- A character of a literal neither opens, nor closes, nor separates anything. -/
theorem nextDepth_of_hidden (depth : Nat)
    (hidden : ¬ (mode = .outside ∧ isQuote character = false)) :
    nextDepth depth mode character = depth ∧
      ¬ (mode = .outside ∧ (character = ',' ∨ character = ')')) := by
  cases mode with
  | outside =>
    have quote : isQuote character = true := by simpa using hidden
    have noMark : character ≠ '(' ∧ character ≠ ')' ∧ character ≠ ',' := by
      refine ⟨?_, ?_, ?_⟩ <;> (rintro rfl; exact absurd quote (by decide))
    simp [nextDepth, noMark]
  | inside quote => simp [nextDepth]
  | escaped quote => simp [nextDepth]

/-- The test by depth is the count of parentheses and commas outside literals. -/
theorem isOneArgument_iff {text : Text} : text.isOneArgument depth mode = true ↔
    mode.behind text = .outside ∧ (exposedFrom mode text).StaysWithin depth ∧
      (exposedFrom mode text).ClosesAll depth ∧ (exposedFrom mode text).CommasWithin depth := by
  induction text generalizing depth mode with
  | nil =>
    have counts : ClosesAll depth [] ↔ depth = 0 := by simp [ClosesAll, eq_comm]
    simp [isOneArgument, exposedFrom, counts, StaysWithin, CommasWithin, and_comm]
  | cons character rest ih =>
    rw [isOneArgument_cons, ih, LiteralMode.behind_cons]
    -- Only outside literals the character counts; in one neither side takes notice of it.
    by_cases shown : mode = .outside ∧ isQuote character = false
    · rcases shown with ⟨rfl, plain⟩
      rw [exposedFrom_of_exposed plain, next_of_exposed plain, staysWithin_cons]
      by_cases closes : character = ')' ∧ depth = 0
      · simp [closes]
      · rw [closesAll_cons closes, commasWithin_cons closes]
        grind
    · rw [exposedFrom_of_hidden shown, (nextDepth_of_hidden depth shown).1]
      have noMark := (nextDepth_of_hidden depth shown).2
      grind

end Marks

theorem isArgument_iff {argument : Text} :
    argument.IsArgument ↔ argument.isOneArgument 0 .outside = true :=
  ⟨fun one => isOneArgument_iff.2 ⟨one.literals, one.within, one.parentheses, one.commas⟩,
    fun one =>
      have ⟨literals, within, parentheses, commas⟩ := isOneArgument_iff.1 one
      ⟨literals, within, parentheses, commas⟩⟩

instance : DecidablePred IsArgument := fun _ => decidable_of_iff' _ isArgument_iff

end Text

/-- A call has no end exactly when what stands behind its parenthesis stays within it. -/
theorem spanCall_eq_none_iff {depth : Nat} {mode : LiteralMode} {text : Text} :
    spanCall depth mode text = none ↔ (text.exposedFrom mode).StaysWithin depth := by
  induction text generalizing depth mode with
  | nil => simp [spanCall, Text.exposedFrom, Text.StaysWithin]
  | cons character rest ih =>
    by_cases shown : mode = .outside ∧ isQuote character = false
    · rcases shown with ⟨rfl, plain⟩
      rw [Text.exposedFrom_of_exposed plain, Text.staysWithin_cons, spanCall,
        Text.next_of_exposed plain]
      by_cases closes : character = ')' ∧ depth = 0
      · simp [closes]
      · rw [if_neg fun closing => closes closing.2, Option.map_eq_none_iff, ih]
        simp [closes]
    · have mark := Text.nextDepth_of_hidden depth shown
      have passes : ¬ (mode = .outside ∧ character = ')' ∧ depth = 0) := fun closing =>
        mark.2 ⟨closing.1, Or.inr closing.2.1⟩
      rw [Text.exposedFrom_of_hidden shown, spanCall, if_neg passes, Option.map_eq_none_iff, ih,
        mark.1]

/-! ## Arguments between commas -/

section Parts

variable {depth : Nat} {mode : LiteralMode}

/-- The parts of a text, with the separating commas between them, are the text. -/
theorem join_splitArguments (depth : Nat) (mode : LiteralMode) (text : Text) :
    Text.join [','] (splitArguments depth mode text) = text := by
  induction text generalizing depth mode with
  | nil => rfl
  | cons character rest ih =>
    unfold splitArguments
    split
    · next comma =>
      have later := ih depth mode
      cases shape : splitArguments depth mode rest with
      | nil => exact absurd shape (splitArguments_ne_nil depth mode rest)
      | cons part parts =>
        rw [shape] at later
        rw [Text.join, later, comma.2.1]
        rfl
    · have later := ih (nextDepth depth mode character) (mode.next character)
      cases shape : splitArguments (nextDepth depth mode character) (mode.next character) rest with
      | nil => exact absurd shape (splitArguments_ne_nil _ _ rest)
      | cons part parts =>
        rw [shape] at later
        rw [← later]
        cases parts <;> rfl

/-- Arguments with commas between them are read one by one. -/
theorem callParts_append_comma {argument : Text} (one : argument.isOneArgument depth mode = true)
    (rest : Text) :
    callParts depth mode (argument ++ ',' :: rest) =
      (callParts 0 .outside rest).map fun (parts, after) => (argument :: parts, after) := by
  induction argument generalizing depth mode with
  | nil =>
    simp only [Text.isOneArgument, Bool.and_eq_true, beq_iff_eq] at one
    rw [one.1, one.2, List.nil_append, callParts_of_comma]
  | cons character argument ih =>
    rcases Text.isOneArgument_cons.1 one with ⟨noMark, later⟩
    rw [List.cons_append, callParts_of_other
      (fun closing => noMark ⟨closing.1, closing.2.2, Or.inr closing.2.1⟩)
      (fun comma => noMark ⟨comma.1, comma.2.2, Or.inl comma.2.1⟩), ih later, Option.map_map]
    rfl

theorem callParts_join {arguments : List Text} (filled : arguments ≠ [])
    (each : ∀ argument ∈ arguments, argument.isOneArgument 0 .outside = true) (after : Text) :
    callParts 0 .outside (Text.join [','] arguments ++ ')' :: after) = some (arguments, after) := by
  induction arguments with
  | nil => exact absurd rfl filled
  | cons argument arguments ih =>
    rcases List.forall_mem_cons.1 each with ⟨one, later⟩
    cases arguments with
    | nil =>
      simp only [callParts, Text.join, spanCall_of_isOneArgument one, Option.map_some,
        splitArguments_of_isOneArgument one]
    | cons next arguments =>
      have read := ih (List.cons_ne_nil _ _) later
      rw [Text.join, List.append_assoc, List.append_assoc, List.singleton_append,
        callParts_append_comma one, read]
      rfl

/-- The parts with commas between them, the closing parenthesis and what follows it make up the
text. -/
theorem join_append_of_callParts {text after : Text} {parts : List Text}
    (read : callParts depth mode text = some (parts, after)) :
    Text.join [','] parts ++ ')' :: after = text := by
  rcases Option.map_eq_some_iff.1 read with ⟨⟨inside, behind⟩, found, shape⟩
  cases shape
  rw [join_splitArguments, spanCall_append found]

/-- What is read are arguments, of which the first may have begun in front of the text. -/
theorem isOneArgument_of_callParts {text after : Text} {parts : List Text}
    (read : callParts depth mode text = some (parts, after)) :
    ∃ first others, parts = first :: others ∧ first.isOneArgument depth mode = true ∧
      ∀ argument ∈ others, argument.isOneArgument 0 .outside = true := by
  induction text generalizing depth mode parts with
  | nil => cases read
  | cons character rest ih =>
    by_cases closes : mode = .outside ∧ character = ')' ∧ depth = 0
    · rcases closes with ⟨rfl, rfl, rfl⟩
      rw [callParts_of_close] at read
      cases read
      exact ⟨[], [], rfl, rfl, by simp⟩
    by_cases separates : mode = .outside ∧ character = ',' ∧ depth = 0
    · rcases separates with ⟨rfl, rfl, rfl⟩
      rw [callParts_of_comma] at read
      rcases Option.map_eq_some_iff.1 read with ⟨⟨later, _⟩, inner, shape⟩
      cases shape
      rcases ih inner with ⟨first, others, rfl, one, more⟩
      exact ⟨[], _, rfl, rfl, List.forall_mem_cons.2 ⟨one, more⟩⟩
    · rw [callParts_of_other closes separates] at read
      rcases Option.map_eq_some_iff.1 read with ⟨⟨later, _⟩, inner, shape⟩
      cases shape
      rcases ih inner with ⟨first, others, rfl, one, more⟩
      refine ⟨character :: first, others, rfl, Text.isOneArgument_cons.2 ⟨?_, one⟩, more⟩
      rintro ⟨outside, none, comma | closing⟩
      · exact separates ⟨outside, comma, none⟩
      · exact closes ⟨outside, closing, none⟩

end Parts

/-! ## Calls -/

namespace Call

/-- A call as it is written: blanks, and in parentheses the arguments with commas between them. -/
def written (blanks : Text) (arguments : List Text) : Text :=
  blanks ++ '(' :: Text.join [','] arguments ++ [')']

/-- A call that stands at the beginning of a text. -/
inductive Begins : Text → Call → Prop where
  | intro {blanks : Text} {arguments : List Text}
      (spaced : ∀ blank ∈ blanks, isSpaceOrTab blank = true) (filled : arguments ≠ [])
      (each : ∀ argument ∈ arguments, argument.IsArgument) (rest : Text) :
      Begins (written blanks arguments ++ rest)
        ⟨written blanks arguments, arguments.map Text.trim, rest⟩

theorem parse?_of_opening {blanks : Text} (spaced : ∀ blank ∈ blanks, isSpaceOrTab blank = true)
    (rest : Text) :
    parse? (blanks ++ '(' :: rest) =
      (callParts 0 .outside rest).map fun (parts, after) =>
        ⟨written blanks parts, parts.map Text.trim, after⟩ := by
  have split := Text.takeWhile_dropWhile_append spaced
    (show ('(' :: rest : Text).head?.any isSpaceOrTab = false from rfl)
  simp only [parse?, split, callParts, Option.map_map]
  congr 1
  funext found
  simp only [Function.comp_apply, written, join_splitArguments]

theorem parse?_of_unopened {text : Text}
    (unopened : (text.dropWhile isSpaceOrTab).head? ≠ some '(') : parse? text = none := by
  unfold parse?
  simp only
  split
  · next rest opening => exact absurd (by rw [opening]; rfl) unopened
  · rfl

theorem exists_opening {text : Text} (opens : (text.dropWhile isSpaceOrTab).head? = some '(') :
    ∃ blanks rest : Text, (∀ blank ∈ blanks, isSpaceOrTab blank = true) ∧
      text = blanks ++ '(' :: rest := by
  rcases List.head?_eq_some_iff.1 opens with ⟨rest, behind⟩
  refine ⟨text.takeWhile isSpaceOrTab, rest, fun blank => List.mem_takeWhile_imp, ?_⟩
  rw [← behind, List.takeWhile_append_dropWhile]

/-- A call is read exactly where arguments stand in parentheses. -/
theorem parse?_eq_some_iff {text : Text} {call : Call} :
    parse? text = some call ↔ call.Begins text := by
  constructor
  · intro found
    by_cases opens : (text.dropWhile isSpaceOrTab).head? = some '('
    · rcases exists_opening opens with ⟨blanks, rest, spaced, rfl⟩
      rw [parse?_of_opening spaced] at found
      rcases Option.map_eq_some_iff.1 found with ⟨⟨parts, after⟩, read, rfl⟩
      rcases isOneArgument_of_callParts read with ⟨first, others, rfl, one, more⟩
      have each : ∀ argument ∈ first :: others, argument.IsArgument := by
        intro argument member
        rcases List.mem_cons.1 member with rfl | later
        · exact Text.isArgument_iff.2 one
        · exact Text.isArgument_iff.2 (more argument later)
      rw [← join_append_of_callParts read]
      simpa [written] using Begins.intro spaced (List.cons_ne_nil first others) each after
    · rw [parse?_of_unopened opens] at found
      cases found
  · rintro ⟨spaced, filled, each, rest⟩
    have read := callParts_join filled (fun argument member =>
      Text.isArgument_iff.1 (each argument member)) rest
    simp [written, parse?_of_opening spaced, read]

theorem parse?_of_opening_eq_none_iff {blanks : Text}
    (spaced : ∀ blank ∈ blanks, isSpaceOrTab blank = true) {rest : Text} :
    parse? (blanks ++ '(' :: rest) = none ↔ rest.exposed.StaysWithin 0 := by
  rw [parse?_of_opening spaced, Option.map_eq_none_iff, callParts, Option.map_eq_none_iff,
    spanCall_eq_none_iff, Text.exposed]

/-- No call is read exactly where no parenthesis follows or the one that does is never closed. -/
theorem parse?_eq_none_iff {text : Text} : parse? text = none ↔ text.LacksCall := by
  constructor
  · intro missing
    by_cases opens : (text.dropWhile isSpaceOrTab).head? = some '('
    · rcases exists_opening opens with ⟨blanks, rest, spaced, rfl⟩
      exact .unclosed spaced ((parse?_of_opening_eq_none_iff spaced).1 missing)
    · exact .unopened opens
  · intro lacks
    cases lacks with
    | unopened none => exact parse?_of_unopened none
    | unclosed spaced stays => exact (parse?_of_opening_eq_none_iff spaced).2 stays

/-- The reader by byte columns finds the call with the column behind it, or that there is none. -/
theorem readCall_eq (name text : Text) :
    readCall (name ++ text) name.width = .ok ((parse? text).map fun call =>
      (call.arguments, (name ++ call.source).width)) := by
  rw [readCall_append]
  congr 1
  refine Option.map_congr fun call found => ?_
  have whole := congrArg Text.width (source_append_after found)
  simp only [Text.width_append] at whole ⊢
  congr 1
  omega

/-- Behind a name a call is read exactly where arguments stand in parentheses, with the column just
past its closing parenthesis; and nothing is read exactly where no parenthesis follows or the one
that does is never closed. -/
theorem reads_arguments (name text : Text) :
    (∀ call, parse? text = some call ↔ call.Begins text) ∧
      (parse? text = none ↔ text.LacksCall) ∧
      (∀ arguments column,
        readCall (name ++ text) name.width = .ok (some (arguments, column)) ↔
          ∃ call : Call, call.Begins text ∧ call.arguments = arguments ∧
            (name ++ call.source).width = column) ∧
      (readCall (name ++ text) name.width = .ok none ↔ text.LacksCall) := by
  refine ⟨fun call => parse?_eq_some_iff, parse?_eq_none_iff, fun arguments column => ?_, ?_⟩
  · rw [readCall_eq, Except.ok.injEq, Option.map_eq_some_iff]
    refine exists_congr fun call => and_congr parse?_eq_some_iff ?_
    rw [Prod.mk.injEq]
  · rw [readCall_eq, Except.ok.injEq, Option.map_eq_none_iff, parse?_eq_none_iff]

example : parse? " (f(a, \")\"), 'x,' ))+1".toList =
    some ⟨" (f(a, \")\"), 'x,' )".toList, ["f(a, \")\")".toList, "'x,'".toList], ")+1".toList⟩ := by
  decide

example : parse? "(a, ')'".toList = none := by decide

end Call

end ScriptPreprocessor
