import ScriptPreprocessor.Macro.Expansion

namespace ScriptPreprocessor

/-!
# The turns of an expansion

An expansion goes through its text from the front.  At every turn a part of the text is copied, for
one of the reasons in `MacroTable.Copies`, or it is replaced: the name of a built-in macro, the name
of a macro without parameters, or a call.  Each of these turns has an equation, and nothing else
happens: `MacroTable.expandActive_induction` has a case for each of them.
-/

/-! ## First pieces -/

/-- How a text is divided at its first piece: behind a literal, behind the letters of a word, or
behind a single character. -/
inductive Piece.IsFirst (character : Char) (rest : Text) : Piece → Text → Prop
  | literal (quote : isQuote character = true) :
    IsFirst character rest (.literal (character :: (spanLiteral (.inside character) rest).1))
      (spanLiteral (.inside character) rest).2
  | word (noQuote : isQuote character = false) (letter : isWordCharacter character = true) :
    IsFirst character rest (.word (character :: rest.takeWhile isWordCharacter))
      (rest.dropWhile isWordCharacter)
  | mark (noQuote : isQuote character = false) (noLetter : isWordCharacter character = false) :
    IsFirst character rest (.mark character) rest

theorem Piece.isFirst_of_first {character : Char} {rest after : Text} {piece : Piece}
    (shape : first character rest = (piece, after)) : IsFirst character rest piece after := by
  unfold first at shape
  split at shape
  · next quote =>
    cases shape
    exact .literal quote
  · next noQuote =>
    split at shape
    · next letter =>
      cases shape
      exact .word (eq_false_of_ne_true noQuote) letter
    · next noLetter =>
      cases shape
      exact .mark (eq_false_of_ne_true noQuote) (eq_false_of_ne_true noLetter)

/-- A piece and the text behind it are the text that was read. -/
theorem Piece.text_append_of_first {character : Char} {rest after : Text} {piece : Piece}
    (shape : first character rest = (piece, after)) :
    piece.text ++ after = character :: rest := by
  have whole := text_first_append character rest
  rwa [shape] at whole

/-- A word, the call behind it and the text behind the call are the text that was read. -/
theorem Call.text_append_of_first {character : Char} {rest name after : Text} {call : Call}
    (shape : Piece.first character rest = (.word name, after)) (parsed : parse? after = some call) :
    (name ++ call.source) ++ call.after = character :: rest := by
  rw [List.append_assoc, source_append_after parsed]
  exact Piece.text_append_of_first shape

namespace MacroTable

variable {table : MacroTable} {line : Origin}

section Turns

variable {active : List Text} {character : Char} {rest name after : Text}

/-! ## Texts that begin with a word -/

theorem expandActive_nil (table : MacroTable) (line : Origin) (active : List Text) :
    table.expandActive line active [] = {} := by
  rw [expandActive]

/-- The expansion of a text that begins with a word. -/
theorem expandActive_of_word (shape : Piece.first character rest = (.word name, after)) :
    table.expandActive line active (character :: rest) =
      match table.replacement? line name with
      | none => (table.expandActive line active after).prepend (.copied name) []
      | some replacement =>
        if name ∈ active then
          (table.expandActive line active after).prepend (.copied name) [.recursive name]
        else
          match replacement with
          | .builtin text =>
            (table.expandActive line active after).prepend (.replaced name text) []
          | .defined (.object body) =>
            if active.length < table.maxDepth then
              (table.expandActive line active after).prepend
                (.replaced name (table.expandActive line (name :: active) body).text)
                (table.expandActive line (name :: active) body).issues
            else
              (table.expandActive line active after).prepend (.copied name) [.tooDeep name]
          | .defined (.function parameters body) =>
            match Call.parse? after with
            | none => (table.expandActive line active after).prepend (.copied name) []
            | some call =>
              if argumentCount parameters call.arguments ≠ parameters.length then
                (table.expandActive line active call.after).prepend
                  (.copied (name ++ call.source))
                  [.argumentCount name parameters.length
                    (argumentCount parameters call.arguments)]
              else if active.length < table.maxDepth then
                let arguments := call.arguments.map (table.expandActive line active)
                let inner := table.expandActive line (name :: active)
                  (Piece.substitute parameters (arguments.map Expansion.text) body)
                (table.expandActive line active call.after).prepend
                  (.replaced (name ++ call.source) inner.text)
                  (arguments.flatMap Expansion.issues ++ inner.issues)
              else
                (table.expandActive line active call.after).prepend
                  (.copied (name ++ call.source)) [.tooDeep name] := by
  rw [expandActive]
  split
  · next found same =>
    rw [shape] at same
    cases same
    rcases table.replacement? line name with _ | (text | (body | ⟨parameters, body⟩))
    · rfl
    · rfl
    · rfl
    · by_cases isActive : name ∈ active
      · simp only [if_pos isActive]
      · simp only [if_neg isActive, List.attach_map_val]
        split
        · next missing => rw [missing]
        · next call found => rw [found]
  · next noWord same =>
    rw [shape] at same
    cases same
    exact absurd rfl (noWord name)

/-! ## Parts that are copied -/

/-- A part that is copied from the front of a text, with what is noticed there and the text behind
it. -/
inductive Copies (table : MacroTable) (line : Origin) (active : List Text) :
    Text → Text → List ExpansionIssue → Text → Prop
  /-- A literal, or a character that belongs to no word. -/
  | mark {character : Char} {rest after : Text} {piece : Piece}
      (shape : Piece.first character rest = (piece, after)) (noWord : ∀ name, piece ≠ .word name) :
      Copies table line active (character :: rest) piece.text [] after
  /-- A word without a meaning. -/
  | unknown {character : Char} {rest name after : Text}
      (shape : Piece.first character rest = (.word name, after))
      (unknown : table.replacement? line name = none) :
      Copies table line active (character :: rest) name [] after
  /-- A macro inside of its own expansion. -/
  | recursive {character : Char} {rest name after : Text} {replacement : Replacement}
      (shape : Piece.first character rest = (.word name, after))
      (known : table.replacement? line name = some replacement) (isActive : name ∈ active) :
      Copies table line active (character :: rest) name [.recursive name] after
  /-- A macro without parameters for which there is no room. -/
  | tooDeep {character : Char} {rest name after body : Text}
      (shape : Piece.first character rest = (.word name, after))
      (known : table.replacement? line name = some (.defined (.object body)))
      (inactive : name ∉ active) (full : ¬ active.length < table.maxDepth) :
      Copies table line active (character :: rest) name [.tooDeep name] after
  /-- A macro with parameters that is not called. -/
  | uncalled {character : Char} {rest name after body : Text} {parameters : List Text}
      (shape : Piece.first character rest = (.word name, after))
      (known : table.replacement? line name = some (.defined (.function parameters body)))
      (inactive : name ∉ active) (notCalled : Call.parse? after = none) :
      Copies table line active (character :: rest) name [] after
  /-- A call with a wrong number of arguments. -/
  | miscounted {character : Char} {rest name after body : Text} {parameters : List Text}
      {call : Call} (shape : Piece.first character rest = (.word name, after))
      (known : table.replacement? line name = some (.defined (.function parameters body)))
      (inactive : name ∉ active) (parsed : Call.parse? after = some call)
      (wrong : argumentCount parameters call.arguments ≠ parameters.length) :
      Copies table line active (character :: rest) (name ++ call.source)
        [.argumentCount name parameters.length (argumentCount parameters call.arguments)]
        call.after
  /-- A call for which there is no room. -/
  | callTooDeep {character : Char} {rest name after body : Text} {parameters : List Text}
      {call : Call} (shape : Piece.first character rest = (.word name, after))
      (known : table.replacement? line name = some (.defined (.function parameters body)))
      (inactive : name ∉ active) (parsed : Call.parse? after = some call)
      (right : argumentCount parameters call.arguments = parameters.length)
      (full : ¬ active.length < table.maxDepth) :
      Copies table line active (character :: rest) (name ++ call.source) [.tooDeep name] call.after

theorem Copies.append_eq {text part : Text} {issues : List ExpansionIssue}
    (copies : table.Copies line active text part issues after) : part ++ after = text := by
  cases copies with
  | mark shape _ | unknown shape _ | recursive shape _ _ | tooDeep shape _ _ _
  | uncalled shape _ _ _ =>
    exact Piece.text_append_of_first shape
  | miscounted shape _ _ parsed _ | callTooDeep shape _ _ parsed _ _ =>
    exact Call.text_append_of_first shape parsed

theorem expandActive_of_copies {text part : Text} {issues : List ExpansionIssue}
    (copies : table.Copies line active text part issues after) :
    table.expandActive line active text =
      (table.expandActive line active after).prepend (.copied part) issues := by
  cases copies with
  | mark shape noWord =>
    rw [expandActive]
    split
    · next name found same =>
      rw [shape] at same
      cases same
      exact absurd rfl (noWord name)
    · next same =>
      rw [shape] at same
      cases same
      rfl
  | unknown shape unknown => simp only [expandActive_of_word shape, unknown]
  | recursive shape known isActive =>
    simp only [expandActive_of_word shape, known, if_pos isActive]
  | tooDeep shape known inactive full =>
    simp only [expandActive_of_word shape, known, if_neg inactive, if_neg full]
  | uncalled shape known inactive notCalled =>
    simp only [expandActive_of_word shape, known, if_neg inactive, notCalled]
  | miscounted shape known inactive parsed wrong =>
    simp only [expandActive_of_word shape, known, if_neg inactive, parsed, if_pos wrong]
  | callTooDeep shape known inactive parsed right full =>
    simp only [expandActive_of_word shape, known, if_neg inactive, parsed, ne_eq, right,
      not_true_eq_false, if_false, if_neg full]

/-! ## Parts that are replaced -/

theorem expandActive_of_builtin {shown : Text}
    (shape : Piece.first character rest = (.word name, after))
    (known : table.replacement? line name = some (.builtin shown)) (inactive : name ∉ active) :
    table.expandActive line active (character :: rest) =
      (table.expandActive line active after).prepend (.replaced name shown) [] := by
  simp only [expandActive_of_word shape, known, if_neg inactive]

/-- The name of a macro without parameters is replaced by what its body is expanded to. -/
theorem expandActive_of_object {body : Text}
    (shape : Piece.first character rest = (.word name, after))
    (known : table.replacement? line name = some (.defined (.object body)))
    (inactive : name ∉ active) (room : active.length < table.maxDepth) :
    table.expandActive line active (character :: rest) =
      (table.expandActive line active after).prepend
        (.replaced name (table.expandActive line (name :: active) body).text)
        (table.expandActive line (name :: active) body).issues := by
  simp only [expandActive_of_word shape, known, if_neg inactive, if_pos room]

/-- The body of a macro with the expanded arguments of a call in place of the parameters. -/
def bodyOfCall (table : MacroTable) (line : Origin) (active parameters : List Text) (body : Text)
    (call : Call) : Text :=
  Piece.substitute parameters
    (call.arguments.map fun argument => (table.expandActive line active argument).text) body

/-- A call is replaced by what the body is expanded to when the expanded arguments are put in. -/
theorem expandActive_of_call {body : Text} {parameters : List Text} {call : Call}
    (shape : Piece.first character rest = (.word name, after))
    (known : table.replacement? line name = some (.defined (.function parameters body)))
    (inactive : name ∉ active) (parsed : Call.parse? after = some call)
    (right : argumentCount parameters call.arguments = parameters.length)
    (room : active.length < table.maxDepth) :
    table.expandActive line active (character :: rest) =
      (table.expandActive line active call.after).prepend
        (.replaced (name ++ call.source) (table.expandActive line (name :: active)
          (table.bodyOfCall line active parameters body call)).text)
        ((call.arguments.flatMap fun argument =>
            (table.expandActive line active argument).issues) ++
          (table.expandActive line (name :: active)
            (table.bodyOfCall line active parameters body call)).issues) := by
  simp only [expandActive_of_word shape, known, if_neg inactive, parsed, ne_eq, right,
    not_true_eq_false, if_false, if_pos room, List.map_map, List.flatMap_map]
  rfl

/-! ## The expanded text -/

theorem text_expandActive_nil (active : List Text) :
    (table.expandActive line active []).text = [] := by
  rw [expandActive_nil]
  rfl

theorem text_expandActive_of_copies {text part : Text} {issues : List ExpansionIssue}
    (copies : table.Copies line active text part issues after) :
    (table.expandActive line active text).text =
      part ++ (table.expandActive line active after).text := by
  rw [expandActive_of_copies copies, Expansion.text_prepend]
  rfl

theorem text_expandActive_of_builtin {shown : Text}
    (shape : Piece.first character rest = (.word name, after))
    (known : table.replacement? line name = some (.builtin shown)) (inactive : name ∉ active) :
    (table.expandActive line active (character :: rest)).text =
      shown ++ (table.expandActive line active after).text := by
  rw [expandActive_of_builtin shape known inactive, Expansion.text_prepend]
  rfl

theorem text_expandActive_of_object (name body : Text)
    (shape : Piece.first character rest = (.word name, after))
    (known : table.replacement? line name = some (.defined (.object body)))
    (inactive : name ∉ active) (room : active.length < table.maxDepth) :
    (table.expandActive line active (character :: rest)).text =
      (table.expandActive line (name :: active) body).text ++
        (table.expandActive line active after).text := by
  rw [expandActive_of_object shape known inactive room, Expansion.text_prepend]
  rfl

theorem text_expandActive_of_call {body : Text} {parameters : List Text} {call : Call}
    (shape : Piece.first character rest = (.word name, after))
    (known : table.replacement? line name = some (.defined (.function parameters body)))
    (inactive : name ∉ active) (parsed : Call.parse? after = some call)
    (right : argumentCount parameters call.arguments = parameters.length)
    (room : active.length < table.maxDepth) :
    (table.expandActive line active (character :: rest)).text =
      (table.expandActive line (name :: active)
        (table.bodyOfCall line active parameters body call)).text ++
        (table.expandActive line active call.after).text := by
  rw [expandActive_of_call shape known inactive parsed right room, Expansion.text_prepend]
  rfl

end Turns

/-! ## Induction -/

/-- What is kept by every turn holds of every text that is expanded.  A replacement is expanded with
its macro active, and the arguments of a call are expanded like the text around it. -/
@[elab_as_elim]
theorem expandActive_induction (table : MacroTable) (line : Origin)
    {motive : List Text → Text → Prop} (nil : ∀ active, motive active [])
    (copy : ∀ {active text part issues after}, table.Copies line active text part issues after →
      motive active after → motive active text)
    (builtin : ∀ {active character rest name after shown},
      Piece.first character rest = (.word name, after) →
      table.replacement? line name = some (.builtin shown) → name ∉ active →
      motive active after → motive active (character :: rest))
    (object : ∀ {active character rest name after body},
      Piece.first character rest = (.word name, after) →
      table.replacement? line name = some (.defined (.object body)) → name ∉ active →
      active.length < table.maxDepth → motive (name :: active) body →
      motive active after → motive active (character :: rest))
    (call : ∀ {active character rest name after parameters body call},
      Piece.first character rest = (.word name, after) →
      table.replacement? line name = some (.defined (.function parameters body)) →
      name ∉ active → Call.parse? after = some call →
      argumentCount parameters call.arguments = parameters.length →
      active.length < table.maxDepth → (∀ argument ∈ call.arguments, motive active argument) →
      motive (name :: active) (table.bodyOfCall line active parameters body call) →
      motive active call.after → motive active (character :: rest))
    (active : List Text) (text : Text) : motive active text := by
  induction active, text using expandActive.induct table line with
  | case1 active => exact nil active
  | case2 _ _ _ _ _ shape unknown ih => exact copy (.unknown shape unknown) ih
  | case3 _ _ _ _ _ shape _ known isActive ih => exact copy (.recursive shape known isActive) ih
  | case4 _ _ _ _ _ shape inactive _ known ih => exact builtin shape known inactive ih
  | case5 _ _ _ _ _ shape inactive _ room known innerIh ih =>
    exact object shape known inactive room innerIh ih
  | case6 _ _ _ _ _ shape inactive _ full known ih =>
    exact copy (.tooDeep shape known inactive full) ih
  | case7 _ _ _ _ _ shape inactive _ _ notCalled known ih =>
    exact copy (.uncalled shape known inactive notCalled) ih
  | case8 _ _ _ _ _ shape inactive _ _ _ parsed _ wrong known ih =>
    exact copy (.miscounted shape known inactive parsed wrong) ih
  | case9 active _ _ _ _ shape inactive parameters body found parsed _ right room arguments known
      argumentsIh innerIh ih =>
    have given : arguments.map Expansion.text =
        found.arguments.map fun argument => (table.expandActive line active argument).text := by
      simp only [arguments, List.attach_map_val, List.map_map]
      rfl
    rw [given] at innerIh
    exact call shape known inactive parsed (Decidable.of_not_not right) room
      (fun argument member => argumentsIh ⟨argument, member⟩) innerIh ih
  | case10 _ _ _ _ _ shape inactive _ _ _ parsed _ right full known ih =>
    exact copy (.callTooDeep shape known inactive parsed (Decidable.of_not_not right) full) ih
  | case11 _ _ _ _ _ noWord shape ih => exact copy (.mark shape noWord) ih

end MacroTable

end ScriptPreprocessor
