import ScriptPreprocessor.Proofs.Text.Lines

namespace ScriptPreprocessor

/-!
# Carriage returns in front of line feeds

`Text.withReturns` puts a carriage return in front of every line feed.  The lines of a text are then
the same lines, each with the other ending, and what is read of a line without its ending is the
same.
-/

namespace Text

/-- A text with a carriage return in front of every line feed. -/
def withReturns (text : Text) : Text :=
  text.flatMap fun character => if character = '\n' then ['\r', '\n'] else [character]

@[simp] theorem withReturns_append (front rest : Text) :
    (front ++ rest).withReturns = front.withReturns ++ rest.withReturns :=
  List.flatMap_append

theorem withReturns_of_unbroken {text : Text} (unbroken : '\n' ∉ text) :
    text.withReturns = text := by
  induction text with
  | nil => rfl
  | cons character rest ih =>
    rcases not_or.1 (mt List.mem_cons.2 unbroken) with ⟨notFeed, inRest⟩
    have later : withReturns rest = rest := ih inRest
    unfold withReturns at later ⊢
    rw [List.flatMap_cons, if_neg (Ne.symm notFeed), later, List.singleton_append]

/-- Only the ending of an ended line changes. -/
theorem withReturns_of_ended {body : Text} (unbroken : '\n' ∉ body) :
    withReturns (body ++ ['\n']) = body ++ ['\r', '\n'] := by
  rw [withReturns_append, withReturns_of_unbroken unbroken]
  rfl

theorem IsEndedLine.withReturns {line : Text} (ended : line.IsEndedLine) :
    line.withReturns.IsEndedLine := by
  rcases ended with ⟨body, unbroken, rfl⟩
  refine ⟨body ++ ['\r'], by simp [unbroken], ?_⟩
  rw [withReturns_of_ended unbroken, List.append_assoc]
  rfl

theorem withReturns_flatten (pieces : List Text) :
    withReturns pieces.flatten = (pieces.map withReturns).flatten := by
  induction pieces with
  | nil => rfl
  | cons piece more ih => rw [List.flatten_cons, withReturns_append, ih, List.map_cons,
      List.flatten_cons]

/-- The lines are the same lines, each with the other ending. -/
theorem lines_withReturns (text : Text) :
    lines text.withReturns = (lines text).map withReturns := by
  rcases exists_ended_append text with ⟨ended, rest, allEnded, unbroken, rfl⟩
  have allReturned : ∀ line ∈ ended.map withReturns, line.IsEndedLine := by
    intro line member
    rcases List.mem_map.1 member with ⟨other, inEnded, rfl⟩
    exact (allEnded other inEnded).withReturns
  have same : (lines rest).map withReturns = lines rest := by
    by_cases none : rest = []
    · rw [none]
      rfl
    · rw [lines_of_unbroken unbroken none, List.map_singleton, withReturns_of_unbroken unbroken]
  rw [withReturns_append, withReturns_flatten, withReturns_of_unbroken unbroken,
    lines_flatten_append allReturned, lines_flatten_append allEnded, List.map_append, same]

/-- A text that ends its last line still does. -/
theorem ends_withReturns {text : Text} (ends : text = [] ∨ text.getLast? = some '\n') :
    text.withReturns = [] ∨ text.withReturns.getLast? = some '\n' := by
  rcases ends with rfl | feed
  · exact Or.inl rfl
  · rcases List.getLast?_eq_some_iff.1 feed with ⟨front, rfl⟩
    refine Or.inr ?_
    rw [withReturns_append]
    exact List.getLast?_append_of_ne_nil _ (List.cons_ne_nil _ _)

/-! ## Without the ending -/

theorem withoutEnding_of_ended {body : Text} (noReturn : '\r' ∉ body) :
    withoutEnding (body ++ ['\n']) = body ∧ withoutEnding (body ++ ['\r', '\n']) = body := by
  have feed : beforeEnd? (body ++ ['\n']) ['\n'] = some body := beforeEnd?_eq_some_iff.2 rfl
  have both : beforeEnd? (body ++ ['\r', '\n']) ['\n'] = some (body ++ ['\r']) :=
    beforeEnd?_eq_some_iff.2 (List.append_assoc body ['\r'] ['\n']).symm
  have final : beforeEnd? (body ++ ['\r']) ['\r'] = some body := beforeEnd?_eq_some_iff.2 rfl
  have none : body.beforeEnd? ['\r'] = none :=
    beforeEnd?_of_last_ne fun last => noReturn (List.mem_of_getLast? last)
  constructor
  · simp only [withoutEnding, feed, none, Option.getD_some, Option.getD_none]
  · simp only [withoutEnding, both, final, Option.getD_some]

/-- A line of which only the ending has changed begins as before. -/
theorem startsWith_withReturns {line : Text} (start : Text) (ended : line.IsEndedLine)
    (inStart : '\n' ∉ start ∧ '\r' ∉ start) :
    line.withReturns.startsWith start = line.startsWith start := by
  rcases ended with ⟨body, unbroken, rfl⟩
  rw [withReturns_of_ended unbroken]
  unfold startsWith
  clear unbroken
  induction start generalizing body with
  | nil => cases body <;> rfl
  | cons character start ih =>
    rcases not_or.1 (mt List.mem_cons.2 inStart.1) with ⟨notFeed, noFeed⟩
    rcases not_or.1 (mt List.mem_cons.2 inStart.2) with ⟨notReturn, noReturn⟩
    cases body with
    | nil =>
      simp [List.isPrefixOf, beq_eq_false_iff_ne.2 (Ne.symm notFeed),
        beq_eq_false_iff_ne.2 (Ne.symm notReturn)]
    | cons first body =>
      have later := ih ⟨noFeed, noReturn⟩ body
      simp only [List.cons_append, List.isPrefixOf, later]

end Text

end ScriptPreprocessor
