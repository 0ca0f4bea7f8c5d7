import ScriptPreprocessor.Condition.Evaluation
import ScriptPreprocessor.Proofs.Condition.Expressions

namespace ScriptPreprocessor

/-!
# Reading of expressions

The reader of a condition does at once what the tokens so far decide, and keeps the rest pending.
In front of the tokens of a printed tree, whatever is pending and whatever follows, it ends up
holding the value of the tree, provided that what is pending asks for no tighter operand and that
what follows binds no tighter than the tree (`Expression.IsReadAs`,
`Expression.Prints.exists_isReadAs`).

A text that prints a tree is therefore evaluated to the value of the tree, or to its first fault
(`Expression.IsPrinting.evaluate_eq`).
-/

/-! ## Pending operations -/

/-- What is pending lets an operand be printed at a level: operators in front of it ask for the
tightest one, and an operator between two operands asks for one that binds more tightly. -/
def PendingOperation.Admits (level : Nat) : List PendingOperation → Prop
  | .unary _ :: _ => level = Expression.tightest
  | .binary _ sign :: _ => sign.precedence?.getD 0 < level
  | .group :: _ | [] => True

/-- Everything that can be pending admits the tightest operand. -/
theorem PendingOperation.admits_tightest (pending : List PendingOperation) :
    Admits Expression.tightest pending := by
  cases pending with
  | nil => trivial
  | cons operation pending =>
    cases operation with
    | unary sign => rfl
    | group => trivial
    | binary left sign => exact Expression.level_lt_tightest sign

/-- What admits an operand also admits a tighter one. -/
theorem PendingOperation.Admits.mono {low high : Nat} {pending : List PendingOperation}
    (admits : Admits low pending) (tighter : low ≤ high) (bound : high ≤ Expression.tightest) :
    Admits high pending := by
  cases pending with
  | nil => trivial
  | cons operation pending =>
    cases operation with
    | unary sign => exact bound.antisymm (tighter.trans' admits.ge)
    | group => trivial
    | binary left sign => exact admits.trans_le tighter

namespace ConditionReader

open PendingOperation (Admits)

variable {value : Value} {pending : List PendingOperation} {seen : List Text}

/-- What a reader makes of the tokens that are left. -/
def complete (reader : ConditionReader) (tokens : List ConditionToken) :
    Except ConditionFault Evaluation :=
  match reader.readAll tokens with
  | .ok reader => reader.finish
  | .error fault => .error fault

theorem complete_cons {reader next : ConditionReader} {token : ConditionToken}
    (read : reader.read token = .ok next) (tokens : List ConditionToken) :
    reader.complete (token :: tokens) = next.complete tokens := by
  rw [complete, readAll, read]
  rfl

theorem evaluateTokens_eq {tokens : List ConditionToken} (filled : tokens ≠ []) :
    evaluateTokens tokens = complete {} tokens := by
  rw [evaluateTokens, if_neg (by simpa using filled)]
  rfl

/-! ## Settling -/

/-- Nothing is done with an operand when what is pending admits a looser one. -/
theorem settle_of_admits {level : Nat} (loose : level < Expression.tightest)
    (admits : Admits level pending) : settle level value pending = .ok (value, pending) := by
  cases pending with
  | nil => rfl
  | cons operation pending =>
    cases operation with
    | unary sign => exact absurd admits loose.ne
    | group => rfl
    | binary left sign => rw [settle, if_neg (Nat.not_le.2 admits)]

theorem levelOf_of_mem_ofLevel {sign : Operator} {own : Nat} (binds : sign ∈ Operator.ofLevel own) :
    levelOf (.operator sign) = own := by
  rw [levelOf, Operator.mem_ofLevel_iff.1 binds, Option.getD_some]

/-- An operator that binds more tightly than what is pending becomes pending itself. -/
theorem read_operator {sign : Operator} {own : Nat} (binds : sign ∈ Operator.ofLevel own)
    (admits : Admits own pending) :
    read ⟨.holding value pending, seen⟩ (.operator sign) =
      .ok ⟨.wanting (.binary value sign :: pending), seen⟩ := by
  have isBinary := Operator.isBinary_iff.1 ⟨own, binds⟩
  simp only [read, readOperator, levelOf_of_mem_ofLevel binds,
    settle_of_admits (Expression.own_lt_tightest binds) admits, isBinary, if_true]

/-- The tokens that follow an operand do not bind it more tightly than a level. -/
def EndsAt (level : Nat) (tokens : List ConditionToken) : Prop :=
  ∀ token ∈ tokens.head?, levelOf token ≤ level

theorem endsAt_tightest (tokens : List ConditionToken) : EndsAt Expression.tightest tokens := by
  intro token _
  cases token with
  | operator sign => exact (Expression.level_lt_tightest sign).le
  | _ => exact Nat.zero_le _

/-- Operands that are settled alike are completed alike. -/
theorem complete_congr {level : Nat} {tokens : List ConditionToken} {other : Value}
    {otherPending : List PendingOperation} (ends : EndsAt level tokens)
    (same : ∀ lower ≤ level, settle lower value pending = settle lower other otherPending) :
    complete ⟨.holding value pending, seen⟩ tokens =
      complete ⟨.holding other otherPending, seen⟩ tokens := by
  cases tokens with
  | nil =>
    simp only [complete, readAll, finish, same 0 (Nat.zero_le level)]
  | cons token tokens =>
    simp only [complete, readAll, read, readOperator, same (levelOf token) (ends token rfl)]

/-- An operand that cannot be settled is a fault. -/
theorem complete_of_fault {level : Nat} {tokens : List ConditionToken} {fault : ArithmeticFault}
    (ends : EndsAt level tokens)
    (faulty : ∀ lower ≤ level, settle lower value pending = .error fault) :
    complete ⟨.holding value pending, seen⟩ tokens = .error (.arithmetic fault) := by
  cases tokens with
  | nil =>
    simp only [complete, readAll, finish, faulty 0 (Nat.zero_le level)]
  | cons token tokens =>
    simp only [complete, readAll, read, readOperator, faulty (levelOf token) (ends token rfl)]

/-- Noting a name keeps every name once, in the order of first occurrence. -/
theorem note_eraseDups (name : Text) (seen : List Text) :
    note name seen.eraseDups = (seen ++ [name]).eraseDups := by
  rw [note, List.eraseDups_append]
  have single : [name].eraseDups = [name] := rfl
  by_cases known : name ∈ seen <;> simp [List.removeAll, known, single]

end ConditionReader

/-! ## Words -/

namespace Expression

open ConditionReader PendingOperation

/-- The word of 64 bits that stands for the value of a tree. -/
def word (expression : Expression) : Int64 :=
  Int64.ofInt expression.value

/-- The value of a tree whose operators have results fits into 64 bits. -/
theorem toInt_word {expression : Expression} (sound : expression.fault? = none) :
    expression.word.toInt = expression.value := by
  -- a value that some word has is the value of the word made from it
  have exact (expression : Expression) (result : Int64)
      (same : result.toInt = expression.value) : expression.word.toInt = expression.value := by
    rw [word, ← same, Int64.ofInt_toInt]
  induction expression with
  | integer number fits =>
    have bound : number < 2 ^ 63 := fits
    exact Int64.toInt_ofInt_of_le (by simp only [value]; omega) (by simp only [value]; omega)
  | truth value => exact Value.toInt_truthNumber value
  | name => rfl
  | unary sign isUnary operand ih =>
    rcases Value.applyUnary_eq (Operator.mem_ofFront_iff.1 isUnary) operand.word with
      ⟨result, same, _⟩
    exact exact _ result (by rw [same, ih sound, value])
  | binary sign isBinary left right onLeft onRight =>
    rw [fault?, Option.or_eq_none_iff, Option.or_eq_none_iff] at sound
    rcases sound with ⟨⟨leftSound, rightSound⟩, sound⟩
    rw [← onLeft leftSound, ← onRight rightSound] at sound
    rcases Value.applyIntegers_of_sound (Operator.isBinary_iff.1 isBinary) sound with
      ⟨result, same, _⟩
    exact exact _ result (by rw [same, onLeft leftSound, onRight rightSound, value])

theorem applyUnary_word {sign : Operator} (isUnary : sign ∈ Operator.ofFront)
    {operand : Expression} (sound : operand.fault? = none) :
    Value.applyUnary sign (.integer operand.word) =
      .ok (.integer (unary sign isUnary operand).word) := by
  rcases Value.applyUnary_eq (Operator.mem_ofFront_iff.1 isUnary) operand.word with
    ⟨result, same, applied⟩
  rw [applied, word, value, ← toInt_word sound, ← same, Int64.ofInt_toInt]

theorem applyBinary_word {sign : Operator} (isBinary : sign.IsBinary)
    {left right : Expression} (sound : (binary sign isBinary left right).fault? = none) :
    Value.applyBinary sign (.integer left.word) (.integer right.word) =
      .ok (.integer (binary sign isBinary left right).word) := by
  rw [fault?, Option.or_eq_none_iff, Option.or_eq_none_iff] at sound
  rcases sound with ⟨⟨leftSound, rightSound⟩, sound⟩
  rw [← toInt_word leftSound, ← toInt_word rightSound] at sound
  rcases Value.applyIntegers_of_sound (Operator.isBinary_iff.1 isBinary) sound with
    ⟨result, same, applied⟩
  rw [Value.applyBinary, applied, word, value, ← toInt_word leftSound, ← toInt_word rightSound,
    ← same, Int64.ofInt_toInt]

theorem applyBinary_of_fault {sign : Operator} {left right : Expression} {fault : ArithmeticFault}
    (leftSound : left.fault? = none) (rightSound : right.fault? = none)
    (faulty : sign.fault? left.value right.value = some fault) :
    Value.applyBinary sign (.integer left.word) (.integer right.word) = .error fault := by
  rw [← toInt_word leftSound, ← toInt_word rightSound] at faulty
  exact Value.applyIntegers_of_fault faulty

/-! ## Reading what was printed -/

/-- What comes of a tree behind pending operations and in front of more tokens: its fault, or what
comes of a reader that holds its value. -/
def outcome (expression : Expression) (pending : List PendingOperation) (seen : List Text)
    (rest : List ConditionToken) : Except ConditionFault Evaluation :=
  match expression.fault? with
  | some fault => .error (.arithmetic fault)
  | none =>
    complete ⟨.holding (.integer expression.word) pending,
      (seen ++ expression.names).eraseDups⟩ rest

theorem outcome_of_sound {expression : Expression} (sound : expression.fault? = none)
    (pending : List PendingOperation) (seen : List Text) (rest : List ConditionToken) :
    expression.outcome pending seen rest =
      complete ⟨.holding (.integer expression.word) pending,
        (seen ++ expression.names).eraseDups⟩ rest := by
  rw [outcome, sound]

theorem outcome_of_fault {expression : Expression} {fault : ArithmeticFault}
    (faulty : expression.fault? = some fault)
    (pending : List PendingOperation) (seen : List Text) (rest : List ConditionToken) :
    expression.outcome pending seen rest = .error (.arithmetic fault) := by
  rw [outcome, faulty]

/-- An operator in front of a tree is done with the value of the tree. -/
theorem outcome_unary {sign : Operator} (isUnary : sign ∈ Operator.ofFront) (operand : Expression)
    (pending : List PendingOperation) (seen : List Text) (rest : List ConditionToken) :
    operand.outcome (.unary sign :: pending) seen rest =
      (unary sign isUnary operand).outcome pending seen rest := by
  cases faulty : operand.fault? with
  | some fault => rw [outcome_of_fault faulty, outcome_of_fault (by rw [fault?, faulty])]
  | none =>
    rw [outcome_of_sound faulty, outcome_of_sound (by rw [fault?, faulty])]
    refine complete_congr (endsAt_tightest rest) fun lower _ => ?_
    rw [settle, applyUnary_word isUnary faulty]

/-- An operator between two trees is done with both values, in front of anything that does not bind
more tightly. -/
theorem outcome_binary {sign : Operator} {own : Nat} (isBinary : sign.IsBinary)
    (binds : sign ∈ Operator.ofLevel own) {left right : Expression}
    (leftSound : left.fault? = none) {rest : List ConditionToken} (ends : EndsAt own rest)
    (pending : List PendingOperation) (seen : List Text) :
    right.outcome (.binary (.integer left.word) sign :: pending) (seen ++ left.names) rest =
      (binary sign isBinary left right).outcome pending seen rest := by
  have admitted {lower : Nat} (below : lower ≤ own) : lower ≤ sign.precedence?.getD 0 := by
    rwa [Operator.mem_ofLevel_iff.1 binds]
  cases rightFault : right.fault? with
  | some fault =>
    rw [outcome_of_fault rightFault,
      outcome_of_fault (by rw [fault?, leftSound, rightFault]; rfl)]
  | none =>
    rw [outcome_of_sound rightFault, List.append_assoc]
    cases faulty : sign.fault? left.value right.value with
    | some fault =>
      rw [outcome_of_fault (by rw [fault?, leftSound, rightFault, faulty]; rfl)]
      refine complete_of_fault ends fun lower below => ?_
      rw [settle, if_pos (admitted below), applyBinary_of_fault leftSound rightFault faulty]
    | none =>
      have sound : (binary sign isBinary left right).fault? = none := by
        rw [fault?, leftSound, rightFault, faulty]
        rfl
      rw [outcome_of_sound sound]
      refine complete_congr ends fun lower below => ?_
      rw [settle, if_pos (admitted below), applyBinary_word isBinary sound]

/-- Tokens are read as a tree at a level: a reader that wants an operand ends up with the outcome of
the tree when what is pending admits the level and what follows does not bind more tightly. -/
def IsReadAs (tokens : List ConditionToken) (expression : Expression) (level : Nat) : Prop :=
  ∀ pending seen rest, Admits level pending → EndsAt level rest →
    complete ⟨.wanting pending, seen.eraseDups⟩ (tokens ++ rest) =
      expression.outcome pending seen rest

/-- A leaf is held as soon as its token is read. -/
theorem isReadAs_leaf {leaf : Expression} {token : ConditionToken} (sound : leaf.fault? = none)
    (read : ∀ pending seen, readOperand pending seen.eraseDups token =
      .ok ⟨.holding (.integer leaf.word) pending, (seen ++ leaf.names).eraseDups⟩) (level : Nat) :
    IsReadAs [token] leaf level := by
  intro pending seen rest _ _
  rw [outcome_of_sound sound]
  have next : ConditionReader.read ⟨.wanting pending, seen.eraseDups⟩ token =
      .ok ⟨.holding (.integer leaf.word) pending, (seen ++ leaf.names).eraseDups⟩ :=
    read pending seen
  exact complete_cons next rest

namespace IsReadAs

variable {tokens leftTokens rightTokens : List ConditionToken} {operand left right : Expression}
  {sign : Operator}

theorem behindSign (reads : IsReadAs tokens operand tightest) (isUnary : sign ∈ Operator.ofFront)
    (level : Nat) : IsReadAs (.operator sign :: tokens) (unary sign isUnary operand) level := by
  intro pending seen rest _ _
  have next : ConditionReader.read ⟨.wanting pending, seen.eraseDups⟩ (.operator sign) =
      .ok ⟨.wanting (.unary sign :: pending), seen.eraseDups⟩ :=
    if_pos (Operator.mem_ofFront_iff.1 isUnary)
  rw [List.cons_append, complete_cons next,
    reads (.unary sign :: pending) seen rest rfl (endsAt_tightest rest), outcome_unary isUnary]

/-- To the left of an operator stands what binds as tightly, to its right what binds more
tightly. -/
theorem around {level own : Nat} (onLeft : IsReadAs leftTokens left own)
    (onRight : IsReadAs rightTokens right (own + 1)) (isBinary : sign.IsBinary)
    (binds : sign ∈ Operator.ofLevel own) (allowed : level ≤ own) :
    IsReadAs (leftTokens ++ .operator sign :: rightTokens) (binary sign isBinary left right)
      level := by
  intro pending seen rest admits ends
  have admitsOwn : Admits own pending := admits.mono allowed (own_lt_tightest binds).le
  have signEnds : EndsAt own (.operator sign :: (rightTokens ++ rest)) := by
    intro token isToken
    cases isToken
    exact (levelOf_of_mem_ofLevel binds).le
  rw [List.append_assoc, List.cons_append, onLeft pending seen _ admitsOwn signEnds]
  cases leftFault : left.fault? with
  | some fault =>
    rw [outcome_of_fault leftFault, outcome_of_fault (by rw [fault?, leftFault]; rfl)]
  | none =>
    have admitsRight : Admits (own + 1) (.binary (.integer left.word) sign :: pending) := by
      rw [Admits, Operator.mem_ofLevel_iff.1 binds, Option.getD_some]
      exact Nat.lt_succ_self own
    have endsOwn : EndsAt own rest := fun token isToken => (ends token isToken).trans allowed
    rw [outcome_of_sound leftFault, complete_cons (read_operator binds admitsOwn),
      onRight _ _ rest admitsRight fun token isToken =>
        (endsOwn token isToken).trans (Nat.le_succ own),
      outcome_binary isBinary binds leftFault endsOwn]

theorem grouped (reads : IsReadAs tokens operand 0) (level : Nat) :
    IsReadAs (.opening :: tokens ++ [.closing]) operand level := by
  intro pending seen rest _ _
  have opened : ConditionReader.read ⟨.wanting pending, seen.eraseDups⟩ .opening =
      .ok ⟨.wanting (.group :: pending), seen.eraseDups⟩ := rfl
  have closingEnds : EndsAt 0 (.closing :: rest) := by
    intro token isToken
    cases isToken
    exact le_rfl
  rw [List.cons_append, List.cons_append, List.append_assoc, complete_cons opened,
    List.singleton_append, reads (.group :: pending) seen _ trivial closingEnds]
  cases faulty : operand.fault? with
  | some fault => rw [outcome_of_fault faulty, outcome_of_fault faulty]
  | none =>
    have closed : ConditionReader.read ⟨.holding (.integer operand.word) (.group :: pending),
        (seen ++ operand.names).eraseDups⟩ .closing =
        .ok ⟨.holding (.integer operand.word) pending,
          (seen ++ operand.names).eraseDups⟩ := rfl
    rw [outcome_of_sound faulty, outcome_of_sound faulty, complete_cons closed]

end IsReadAs

theorem ofWord_of_mem_truthWords {value : Bool} {text : Text} (word : text ∈ truthWords value) :
    ConditionToken.ofWord text = .number (.integer (truth value).word) := by
  cases value <;> rcases List.mem_pair.1 word with rfl | rfl <;> rfl

theorem ofWord_of_free {text : Text} (free : ∀ value, text ∉ truthWords value) :
    ConditionToken.ofWord text = .name text := by
  have noTrue := free true
  have noFalse := free false
  simp only [truthWords, if_true, Bool.false_eq_true, if_false, List.mem_cons,
    List.not_mem_nil, or_false] at noTrue noFalse
  simp only [ConditionToken.ofWord, Bool.or_eq_true, beq_iff_eq, if_neg noTrue, if_neg noFalse]

/-- The tokens of a printed tree are read as the tree. -/
theorem Prints.exists_isReadAs {level : Nat} {expression : Expression} {lexemes : List Lexeme}
    (prints : expression.Prints level lexemes) :
    ∃ tokens, lexemes.mapM Lexeme.token = .ok tokens ∧ IsReadAs tokens expression level := by
  induction prints with
  | @integer level number fits text literal =>
    have token := ConditionToken.number?_of_literal literal fits
    refine ⟨[.number (.integer (Int64.ofNat number))], ?_,
      isReadAs_leaf rfl (fun pending seen => ?_) level⟩
    · rw [List.mapM_cons, Lexeme.token, token]
      rfl
    · rw [names, List.append_nil]
      rfl
  | @truth level value text word =>
    refine ⟨[ConditionToken.ofWord text], rfl, isReadAs_leaf rfl (fun pending seen => ?_) level⟩
    rw [ofWord_of_mem_truthWords word, names, List.append_nil]
    rfl
  | @name level text identifier free =>
    refine ⟨[ConditionToken.ofWord text], rfl, isReadAs_leaf rfl (fun pending seen => ?_) level⟩
    rw [ofWord_of_free free, readOperand, note_eraseDups]
    rfl
  | @unary level sign isUnary operand lexemes inner ih =>
    rcases ih with ⟨tokens, tokenized, reads⟩
    refine ⟨.operator sign :: tokens, ?_, reads.behindSign isUnary level⟩
    rw [List.mapM_cons, tokenized]
    rfl
  | @binary level own sign isBinary left right leftLexemes rightLexemes binds allowed _ _ onLeft
      onRight =>
    rcases onLeft with ⟨leftTokens, leftTokenized, readsLeft⟩
    rcases onRight with ⟨rightTokens, rightTokenized, readsRight⟩
    refine ⟨leftTokens ++ .operator sign :: rightTokens, ?_,
      readsLeft.around readsRight isBinary binds allowed⟩
    rw [List.mapM_append, List.mapM_cons, leftTokenized, rightTokenized]
    rfl
  | @group level expression lexemes inner ih =>
    rcases ih with ⟨tokens, tokenized, reads⟩
    refine ⟨.opening :: tokens ++ [.closing], ?_, reads.grouped level⟩
    rw [List.mapM_append, List.mapM_cons, tokenized]
    rfl

/-- A text that prints a tree is evaluated to the first fault of the tree, or to its value and its
names. -/
theorem IsPrinting.evaluate_eq {expression : Expression} {text : Text}
    (printing : expression.IsPrinting text) :
    evaluate text =
      match expression.fault? with
      | some fault => .error (.arithmetic fault)
      | none => .ok ⟨.integer expression.word, expression.names.eraseDups⟩ := by
  rcases printing with ⟨lexemes, prints, spaced⟩
  rcases prints.exists_isReadAs with ⟨tokens, tokenized, reads⟩
  have completed := reads [] [] [] trivial fun _ isToken => by cases isToken
  rw [List.append_nil] at completed
  have filled : tokens ≠ [] := by
    rintro rfl
    rw [outcome] at completed
    cases faulty : expression.fault? <;> rw [faulty] at completed <;> cases completed
  rw [evaluate, ConditionToken.tokenize_eq, prints.lexemes_eq spaced, tokenized]
  refine (evaluateTokens_eq filled).trans (completed.trans ?_)
  rw [outcome, List.nil_append]
  cases expression.fault? <;> rfl

/-- A condition that prints a tree has an evaluation exactly when the tree has no fault. -/
theorem IsPrinting.sound_of_evaluate {expression : Expression} {text : Text}
    {evaluation : Evaluation} (printing : expression.IsPrinting text)
    (evaluated : evaluate text = .ok evaluation) :
    expression.fault? = none ∧
      evaluation = ⟨.integer expression.word, expression.names.eraseDups⟩ := by
  rw [printing.evaluate_eq] at evaluated
  cases faulty : expression.fault? with
  | some fault =>
    rw [faulty] at evaluated
    cases evaluated
  | none =>
    rw [faulty] at evaluated
    exact ⟨rfl, (Except.ok.inj evaluated).symm⟩

end Expression

end ScriptPreprocessor
