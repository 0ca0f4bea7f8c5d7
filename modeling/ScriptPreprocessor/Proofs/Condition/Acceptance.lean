import ScriptPreprocessor.Proofs.Condition.Readings

namespace ScriptPreprocessor

/-!
# Conditions that are accepted

Whatever a reader of a condition has accepted so far is a row of pending operations, each behind the
operand that it asks for (`ConditionReader.Reads`).  One more token keeps it so, and when everything
was accepted, the lexemes print one tree (`ConditionReader.Reads.exists_prints`).

Conditions on integers are thus evaluated exactly when they print a tree, and to the value of that
tree.
-/

/-- Lexemes leave operations pending: each operator between two operands stands behind the printed
tree of its left operand, and binds it more tightly than what is pending in front of that. -/
inductive Lexeme.Pends : List PendingOperation → List Lexeme → Prop
  | nil : Pends [] []
  | group {pending : List PendingOperation} {lexemes : List Lexeme}
      (front : Pends pending lexemes) : Pends (.group :: pending) (lexemes ++ [.opening])
  | unary {pending : List PendingOperation} {lexemes : List Lexeme} {sign : Operator}
      (isUnary : sign ∈ Operator.ofFront) (front : Pends pending lexemes) :
      Pends (.unary sign :: pending) (lexemes ++ [.operator sign])
  | binary {pending : List PendingOperation} {lexemes leftLexemes : List Lexeme} {own : Nat}
      {sign : Operator} {value : Value} {left : Expression} (binds : sign ∈ Operator.ofLevel own)
      (front : Pends pending lexemes) (admits : PendingOperation.Admits own pending)
      (onLeft : left.Prints own leftLexemes) :
      Pends (.binary value sign :: pending) (lexemes ++ leftLexemes ++ [.operator sign])

namespace ConditionReader

open PendingOperation (Admits)
open Lexeme (Pends)

/-- Lexemes lead a reader to where it is. -/
def Reads (reader : ConditionReader) (lexemes : List Lexeme) : Prop :=
  match reader.state with
  | .wanting pending => Pends pending lexemes
  | .holding _ pending =>
    ∃ front operand, ∃ expression : Expression, lexemes = front ++ operand ∧
      Pends pending front ∧ expression.Prints Expression.tightest operand

/-- Settling an operand makes one tree of it and of what it is settled with. -/
theorem exists_settled {level own : Nat} {value settled : Value}
    {pending left : List PendingOperation} {front operand : List Lexeme} {expression : Expression}
    (done : settle level value pending = .ok (settled, left)) (pends : Pends pending front)
    (prints : expression.Prints own operand) (admits : Admits own pending) (tight : level ≤ own) :
    ∃ newFront newOperand, ∃ tree : Expression, front ++ operand = newFront ++ newOperand ∧
      Pends left newFront ∧ tree.Prints level newOperand ∧
      (level < Expression.tightest → Admits level left) := by
  induction pends generalizing own value operand expression with
  | nil =>
    cases done
    exact ⟨[], operand, expression, rfl, .nil, prints.mono tight, fun _ => trivial⟩
  | group front =>
    cases done
    exact ⟨_, operand, expression, rfl, .group front, prints.mono tight, fun _ => trivial⟩
  | @unary pending lexemes sign isUnary front ih =>
    rw [settle] at done
    cases applied : value.applyUnary sign with
    | error fault =>
      rw [applied] at done
      cases done
    | ok value =>
      rw [applied] at done
      subst admits
      have inner : (Expression.unary sign isUnary expression).Prints Expression.tightest
          (.operator sign :: operand) := .unary prints
      rcases ih done inner (PendingOperation.admits_tightest _) tight with
        ⟨newFront, newOperand, tree, same, found⟩
      exact ⟨newFront, newOperand, tree, by rw [← same, List.append_assoc]; rfl, found⟩
  | @binary pending lexemes leftLexemes lower sign leftValue leftTree binds front admitsLeft onLeft
      ih =>
    have bindsAt := Operator.mem_ofLevel_iff.1 binds
    rw [Admits, bindsAt, Option.getD_some] at admits
    rw [settle, bindsAt, Option.getD_some] at done
    by_cases within : level ≤ lower
    · rw [if_pos within] at done
      cases applied : Value.applyBinary sign leftValue value with
      | error fault =>
        rw [applied] at done
        cases done
      | ok value =>
        rw [applied] at done
        have inner : (Expression.binary sign ⟨lower, binds⟩ leftTree expression).Prints lower
            (leftLexemes ++ .operator sign :: operand) :=
          .binary binds le_rfl onLeft (prints.mono admits)
        rcases ih done inner admitsLeft within with ⟨newFront, newOperand, tree, same, found⟩
        refine ⟨newFront, newOperand, tree, ?_, found⟩
        rw [← same, List.append_assoc, List.append_assoc]
        rfl
    · rw [if_neg within] at done
      cases done
      refine ⟨_, operand, expression, rfl, .binary binds front admitsLeft onLeft,
        prints.mono tight, fun _ => ?_⟩
      rw [Admits, bindsAt, Option.getD_some]
      exact Nat.lt_of_not_le within

/-- A reader that wants an operand takes a leaf, an operator in front, or a parenthesis. -/
theorem reads_of_readOperand {pending : List PendingOperation} {seen : List Text}
    {lexemes : List Lexeme} {lexeme : Lexeme} {token : ConditionToken} {next : ConditionReader}
    (pends : Pends pending lexemes) (whole : lexeme.IsWhole)
    (integral : lexeme.isFraction = false) (tokenized : lexeme.token = .ok token)
    (read : readOperand pending seen token = .ok next) : next.Reads (lexemes ++ [lexeme]) := by
  cases lexeme with
  | number text =>
    rw [Lexeme.token] at tokenized
    cases parsed : ConditionToken.number? text with
    | none =>
      rw [parsed] at tokenized
      cases tokenized
    | some value =>
      rw [parsed] at tokenized
      cases tokenized
      cases read
      rcases ConditionToken.exists_literal
        (fun _ member => Lexeme.isAlphanum_of_integral whole integral member) parsed with
        ⟨number, literal, fits, rfl⟩
      exact ⟨lexemes, _, .integer number fits, rfl, pends, .integer literal⟩
  | word text =>
    cases tokenized
    by_cases free : ∀ value, text ∉ truthWords value
    · rw [Expression.ofWord_of_free free] at read
      cases read
      exact ⟨lexemes, _, .name text whole free, rfl, pends, .name⟩
    · rcases not_forall_not.1 free with ⟨value, word⟩
      rw [Expression.ofWord_of_mem_truthWords word] at read
      cases read
      exact ⟨lexemes, _, .truth value, rfl, pends, .truth word⟩
  | operator sign =>
    cases tokenized
    rw [readOperand] at read
    split at read
    · next isUnary =>
      cases read
      exact .unary (Operator.mem_ofFront_iff.2 isUnary) pends
    · cases read
  | opening =>
    cases tokenized
    cases read
    exact .group pends
  | closing =>
    cases tokenized
    cases read
  | stray character => cases tokenized

/-- Only an operator and a closing parenthesis have their tokens. -/
theorem eq_of_token {lexeme : Lexeme} {token : ConditionToken}
    (tokenized : lexeme.token = .ok token) :
    (∀ sign, token = .operator sign → lexeme = .operator sign) ∧
      (token = .closing → lexeme = .closing) := by
  cases lexeme with
  | number text =>
    rw [Lexeme.token] at tokenized
    cases parsed : ConditionToken.number? text <;> rw [parsed] at tokenized <;> cases tokenized
    exact ⟨fun _ => ConditionToken.noConfusion, ConditionToken.noConfusion⟩
  | word text =>
    cases tokenized
    by_cases free : ∀ value, text ∉ truthWords value
    · rw [Expression.ofWord_of_free free]
      exact ⟨fun _ => ConditionToken.noConfusion, ConditionToken.noConfusion⟩
    · rcases not_forall_not.1 free with ⟨value, word⟩
      rw [Expression.ofWord_of_mem_truthWords word]
      exact ⟨fun _ => ConditionToken.noConfusion, ConditionToken.noConfusion⟩
  | operator sign =>
    cases tokenized
    exact ⟨fun other same => by rw [ConditionToken.operator.inj same], ConditionToken.noConfusion⟩
  | opening =>
    cases tokenized
    exact ⟨fun _ => ConditionToken.noConfusion, ConditionToken.noConfusion⟩
  | closing =>
    cases tokenized
    exact ⟨fun _ => ConditionToken.noConfusion, fun _ => rfl⟩
  | stray character => cases tokenized

/-- A reader that holds a value takes an operator between two operands, or a parenthesis. -/
theorem reads_of_readOperator {value : Value} {pending : List PendingOperation} {seen : List Text}
    {front operand : List Lexeme} {expression : Expression} {lexeme : Lexeme}
    {token : ConditionToken} {next : ConditionReader} (pends : Pends pending front)
    (prints : expression.Prints Expression.tightest operand) (tokenized : lexeme.token = .ok token)
    (read : readOperator value pending seen token = .ok next) :
    next.Reads (front ++ operand ++ [lexeme]) := by
  rw [readOperator] at read
  cases done : settle (levelOf token) value pending with
  | error fault =>
    rw [done] at read
    cases read
  | ok found =>
    rcases found with ⟨settled, left⟩
    rw [done] at read
    rcases exists_settled done pends prints (PendingOperation.admits_tightest _)
      (endsAt_tightest [token] token rfl) with
      ⟨newFront, newOperand, tree, same, newPends, newPrints, admits⟩
    rw [same]
    cases token with
    | operator sign =>
      cases (eq_of_token tokenized).1 sign rfl
      cases bindsAt : sign.precedence? with
      | none => simp [bindsAt] at read
      | some own =>
        simp only [bindsAt, Option.isSome_some, if_true, Except.ok.injEq] at read
        rw [← read]
        have binds := Operator.mem_ofLevel_iff.2 bindsAt
        rw [levelOf_of_mem_ofLevel binds] at newPrints admits
        exact .binary binds newPends (admits (Expression.own_lt_tightest binds)) newPrints
    | closing =>
      cases (eq_of_token tokenized).2 rfl
      cases newPends with
      | @group pending lexemes outer =>
        cases read
        refine ⟨lexemes, .opening :: newOperand ++ [.closing], tree, ?_, outer, .group newPrints⟩
        simp
      | _ => cases read
    | _ => cases read

/-- What lexemes lead a reader to, one more lexeme leads it on from. -/
theorem Reads.read {reader next : ConditionReader} {lexemes : List Lexeme} {lexeme : Lexeme}
    {token : ConditionToken} (reads : reader.Reads lexemes) (whole : lexeme.IsWhole)
    (integral : lexeme.isFraction = false) (tokenized : lexeme.token = .ok token)
    (read : reader.read token = .ok next) : next.Reads (lexemes ++ [lexeme]) := by
  rcases reader with ⟨_ | _, seen⟩
  · exact reads_of_readOperand reads whole integral tokenized read
  · rcases reads with ⟨front, operand, expression, rfl, pends, prints⟩
    exact reads_of_readOperator pends prints tokenized read

theorem Reads.readAll {reader last : ConditionReader} {front lexemes : List Lexeme}
    {tokens : List ConditionToken} (reads : reader.Reads front)
    (whole : ∀ lexeme ∈ lexemes, lexeme.IsWhole)
    (integral : ∀ lexeme ∈ lexemes, lexeme.isFraction = false)
    (tokenized : lexemes.mapM Lexeme.token = .ok tokens) (read : reader.readAll tokens = .ok last) :
    last.Reads (front ++ lexemes) := by
  induction lexemes generalizing reader front tokens with
  | nil =>
    cases tokenized
    cases read
    rwa [List.append_nil]
  | cons lexeme lexemes ih =>
    rcases Lexeme.exists_of_mapM_cons tokenized with ⟨token, more, first, later, rfl⟩
    rw [ConditionReader.readAll] at read
    cases step : reader.read token with
    | error fault =>
      rw [step] at read
      cases read
    | ok next =>
      rw [step] at read
      have reached := reads.read (whole lexeme List.mem_cons_self)
        (integral lexeme List.mem_cons_self) first step
      have run := ih reached (fun _ member => whole _ (List.mem_cons_of_mem _ member))
        (fun _ member => integral _ (List.mem_cons_of_mem _ member)) later read
      rwa [List.append_assoc] at run

end ConditionReader

end ScriptPreprocessor
