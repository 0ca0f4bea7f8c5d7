import ScriptPreprocessor.Proofs.Macro.Cycles

namespace ScriptPreprocessor

/-!
# Arguments that are read twice

An argument is expanded before it is put into the body of its macro, and the body is expanded with
the argument in it.  Even when the body is nothing but the parameter, what the first expansion left
is therefore read once more, with the called macro active instead of those that were active before
(`MacroTable.text_expand_identity`).

So a call shows its argument as the line would when nothing is left in it that has a meaning.  A
name that was left because its macro reached itself has a meaning: the second reading replaces it.
-/

/-- Whether a text can stand as one argument behind some open parentheses: all its literals and
parentheses are closed in it, and every comma outside literals stands in parentheses. -/
def Text.isOneArgument (depth : Nat) (mode : LiteralMode) : Text → Bool
  | [] => depth == 0 && mode == .outside
  | character :: rest =>
    !(mode == .outside && depth == 0 && (character == ',' || character == ')')) &&
      isOneArgument (nextDepth depth mode character) (mode.next character) rest

theorem Text.isOneArgument_cons {depth : Nat} {mode : LiteralMode} {character : Char}
    {rest : Text} :
    isOneArgument depth mode (character :: rest) = true ↔
      ¬ (mode = .outside ∧ depth = 0 ∧ (character = ',' ∨ character = ')')) ∧
        isOneArgument (nextDepth depth mode character) (mode.next character) rest = true := by
  rw [isOneArgument, Bool.and_eq_true]
  refine and_congr_left' ?_
  simp only [Bool.not_eq_true', Bool.and_eq_false_imp, Bool.or_eq_false_iff, Bool.and_eq_true,
    beq_iff_eq, beq_eq_false_iff_ne, ne_eq, not_and, not_or]
  exact ⟨fun noMark outside none => noMark ⟨outside, none⟩,
    fun noMark place => noMark place.1 place.2⟩

section Calls

variable {argument : Text}

/-- A closing parenthesis behind an argument is the one that closes the call. -/
theorem spanCall_of_isOneArgument {depth : Nat} {mode : LiteralMode}
    (one : argument.isOneArgument depth mode = true) (behind : Text) :
    spanCall depth mode (argument ++ ')' :: behind) = some (argument, behind) := by
  induction argument generalizing depth mode with
  | nil =>
    simp only [Text.isOneArgument, Bool.and_eq_true, beq_iff_eq] at one
    rw [List.nil_append, spanCall, if_pos ⟨one.2, rfl, one.1⟩]
  | cons character rest ih =>
    rcases Text.isOneArgument_cons.1 one with ⟨noMark, later⟩
    have inside : ¬ (mode = .outside ∧ character = ')' ∧ depth = 0) := fun closing =>
      noMark ⟨closing.1, closing.2.2, Or.inr closing.2.1⟩
    rw [List.cons_append, spanCall, if_neg inside, ih later]
    rfl

/-- An argument is not split. -/
theorem splitArguments_of_isOneArgument {depth : Nat} {mode : LiteralMode}
    (one : argument.isOneArgument depth mode = true) :
    splitArguments depth mode argument = [argument] := by
  induction argument generalizing depth mode with
  | nil => rfl
  | cons character rest ih =>
    rcases Text.isOneArgument_cons.1 one with ⟨noMark, later⟩
    have inside : ¬ (mode = .outside ∧ character = ',' ∧ depth = 0) := fun separating =>
      noMark ⟨separating.1, separating.2.2, Or.inl separating.2.1⟩
    rw [splitArguments, if_neg inside, ih later]

theorem Call.parse?_of_isOneArgument (one : argument.isOneArgument 0 .outside = true)
    (behind : Text) :
    Call.parse? ('(' :: argument ++ ')' :: behind) =
      some ⟨'(' :: argument ++ [')'], [argument.trim], behind⟩ := by
  rw [List.cons_append, parse?, List.dropWhile_cons_of_neg (by decide),
    List.takeWhile_cons_of_neg (by decide)]
  simp only [spanCall_of_isOneArgument one behind, Option.map_some,
    splitArguments_of_isOneArgument one, List.map_singleton]
  rfl

end Calls

/-- A body that is nothing but the parameter becomes the argument. -/
theorem Piece.substitute_parameter {parameter : Text} (identifier : parameter.isIdentifier = true)
    (argument : Text) : substitute [parameter] [argument] parameter = argument := by
  rcases Text.letters_of_isIdentifier identifier with ⟨filled, letters⟩
  simp [substitute, ofText_of_letters filled letters]

namespace MacroTable

variable {environment : Environment} {table : MacroTable} {line : Origin}

/-- What the first reading leaves of an argument is read again with the called macro active. -/
theorem text_expand_of_identity {name parameter argument : Text}
    (isName : name.isIdentifier = true) (isParameter : parameter.isIdentifier = true)
    (known : table.replacement? line name =
      some (.defined (.function [parameter] parameter)))
    (one : argument.isOneArgument 0 .outside = true) (trimmed : argument.trim = argument)
    (room : 0 < table.maxDepth) :
    (table.expand line (name ++ '(' :: argument ++ [')'])).text =
      (table.expandActive line [name] (table.expand line argument).text).text := by
  rcases Text.letters_of_isIdentifier isName with ⟨filled, letters⟩
  rcases List.exists_cons_of_ne_nil filled with ⟨character, rest, rfl⟩
  have seam : Text.IsSeam (character :: rest) ('(' :: argument ++ [')']) :=
    Text.isSeam_mark_right (by decide)
  have shape := Piece.first_of_word rfl letters seam
  have called := text_expandActive_of_call shape known List.not_mem_nil
    (Call.parse?_of_isOneArgument one []) rfl room
  simp only [bodyOfCall, List.map_singleton, trimmed, Piece.substitute_parameter isParameter,
    text_expandActive_nil, List.append_nil] at called
  rw [List.append_assoc]
  exact called

/-- The call of a macro whose body is its parameter shows its argument as it was left, read again
with the macro active.  That is the argument's own expansion when nothing with a meaning is left in
it; and when the argument leads to macros without parameters only, nothing is left unless an issue
is reported. -/
theorem text_expand_identity {maxDepth : Nat} {edits : List MacroEdit}
    (reached : table = (ofEnvironment environment maxDepth).edited edits)
    {name parameter argument : Text}
    (identity : table.get? name = some (.function [parameter] parameter))
    (isParameter : parameter.isIdentifier = true)
    (one : argument.isOneArgument 0 .outside = true) (trimmed : argument.trim = argument)
    (room : 0 < table.maxDepth) (line : Origin) :
    (table.expand line (name ++ '(' :: argument ++ [')'])).text =
        (table.expandActive line [name] (table.expand line argument).text).text ∧
      (table.IsSettled line (table.expand line argument).text →
        (table.expand line (name ++ '(' :: argument ++ [')'])).text =
          (table.expand line argument).text) ∧
      ((∀ text ∈ environment.texts, text.IsQuotable) → line.unit.IsQuotable →
        table.LeadsToPlain argument → (table.expand line argument).issues = [] →
        (table.expand line (name ++ '(' :: argument ++ [')'])).text =
          (table.expand line argument).text) := by
  have lawful : table.IsLawful environment := reached ▸ isLawful_edited environment maxDepth edits
  have known := lawful.replacement?_of_get? identity line
  have isName := lawful.isIdentifier_of_replacement? (Option.isSome_iff_exists.2 ⟨_, known⟩)
  have again := text_expand_of_identity isName isParameter known one trimmed room
  have settled (left : table.IsSettled line (table.expand line argument).text) :
      (table.expand line (name ++ '(' :: argument ++ [')'])).text =
        (table.expand line argument).text :=
    again.trans (text_expandActive_of_inert left)
  refine ⟨again, settled, fun quotable inUnit plain quiet => settled ?_⟩
  exact (plainExpansion_expandActive plain).settled (lawful.isTransparent quotable inUnit) quiet

/-- An argument with a macro whose body is a number. -/
theorem text_expand_identity_number :
    let edits : List MacroEdit := [.define "LIMIT 4".toList, .define "ID(x) x".toList]
    let table := (ofEnvironment Environment.bare 32).edited edits
    let line : Origin := ⟨"main".toList, 3⟩
    let parameter : Text := "x".toList
    let argument : Text := "LIMIT+1".toList
    table.get? "ID".toList = some (.function [parameter] parameter) ∧
      parameter.isIdentifier = true ∧ argument.isOneArgument 0 .outside = true ∧
      argument.trim = argument ∧ 0 < table.maxDepth ∧
      (table.expand line "ID(LIMIT+1)".toList).text = "4+1".toList := by
  intro edits table line parameter argument
  have left : (table.expand line argument).text = "4+1".toList := by
    have limit : table.replacement? line "LIMIT".toList = some (.defined (.object "4".toList)) :=
      rfl
    have body : (table.expandActive line ["LIMIT".toList] "4".toList).text = "4".toList :=
      text_expandActive_of_absent (by decide)
    have behind : (table.expandActive line [] "+1".toList).text = "+1".toList :=
      text_expandActive_of_absent (by decide)
    have shape : Piece.first 'L' "IMIT+1".toList = (.word "LIMIT".toList, "+1".toList) := rfl
    refine (text_expandActive_of_object _ _ shape limit (by decide) (by decide)).trans ?_
    rw [body, behind]
    rfl
  have settled : table.IsSettled line (table.expand line argument).text :=
    left ▸ inert_of_absent (by decide)
  have identity : table.get? "ID".toList = some (.function [parameter] parameter) := rfl
  have one : argument.isOneArgument 0 .outside = true := by decide
  have trimmed : argument.trim = argument := by decide
  have called := text_expand_identity rfl identity (by decide) one trimmed (by decide) line
  exact ⟨identity, by decide, one, trimmed, by decide, (called.2.1 settled).trans left⟩

/-- A macro that mentions itself is replaced once more in the argument of a call. -/
theorem text_expand_identity_ne :
    let edits : List MacroEdit := [.define "LOOP LOOP + 1".toList, .define "ID(x) x".toList]
    let table := (ofEnvironment Environment.bare 32).edited edits
    let line : Origin := ⟨"main".toList, 3⟩
    let argument : Text := "LOOP".toList
    table.get? "ID".toList = some (.function ["x".toList] "x".toList) ∧
      argument.isOneArgument 0 .outside = true ∧ argument.trim = argument ∧
      ¬ Relation.ReflTransGen table.Mentions argument "ID".toList ∧
      (table.expand line argument).text = "LOOP + 1".toList ∧
      (table.expand line "ID(LOOP)".toList).text = "LOOP + 1 + 1".toList := by
  intro edits table line argument
  have known : table.get? "LOOP".toList = some (.object "LOOP + 1".toList) := rfl
  have object : table.replacement? line "LOOP".toList =
      some (.defined (.object "LOOP + 1".toList)) := rfl
  have shape : Piece.first 'L' "OOP + 1".toList = (.word "LOOP".toList, " + 1".toList) := rfl
  have inert : table.IsSettled line " + 1".toList := inert_of_absent (by decide)
  -- Inside of its own body the name is left as it is.
  have within (active : List Text) (isActive : "LOOP".toList ∈ active) :
      (table.expandActive line active "LOOP + 1".toList).text = "LOOP + 1".toList := by
    refine (text_expandActive_of_copies (.recursive shape object isActive)).trans ?_
    rw [text_expandActive_of_inert inert]
    rfl
  have alone : (table.expand line argument).text = "LOOP + 1".toList := by
    have last : Piece.first 'L' "OOP".toList = (.word "LOOP".toList, []) := rfl
    refine (text_expandActive_of_object _ _ last object (by decide) (by decide)).trans ?_
    rw [within _ List.mem_cons_self, text_expandActive_nil, List.append_nil]
  have one : argument.isOneArgument 0 .outside = true := by decide
  have trimmed : argument.trim = argument := by decide
  have called : (table.expand line "ID(LOOP)".toList).text = "LOOP + 1 + 1".toList := by
    have again := text_expand_of_identity (by decide) (by decide)
      (rfl : table.replacement? line "ID".toList =
        some (.defined (.function ["x".toList] "x".toList))) one trimmed (by decide)
    rw [alone] at again
    refine again.trans ((text_expandActive_of_object _ _ shape object (by decide)
      (by decide)).trans ?_)
    rw [within _ List.mem_cons_self, text_expandActive_of_inert inert]
    rfl
  have leads : ∀ name, Relation.ReflTransGen table.Mentions argument name → name = argument := by
    intro name path
    induction path with
    | refl => rfl
    | @tail _ next _ mention same =>
      subst same
      rcases mention with ⟨definition, found, inBody, isDefined⟩
      have pieces := Piece.ofText_of_first shape
      rw [← Option.some.inj (known.symm.trans found)] at inBody
      rcases List.mem_cons.1 (pieces ▸ inBody) with first | later
      · cases first
        rfl
      · have meaning := isDefined_eq_isSome table line next
        simp [MacroTable.isDefined, isDefined, inert next later] at meaning
  exact ⟨rfl, one, trimmed, fun path => absurd (leads _ path) (by decide), alone, called⟩

end MacroTable

end ScriptPreprocessor
