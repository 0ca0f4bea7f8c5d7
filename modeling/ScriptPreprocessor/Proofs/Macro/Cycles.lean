import Mathlib.Logic.Relation
import ScriptPreprocessor.Proofs.Macro.Edits
import ScriptPreprocessor.Proofs.Macro.Pieces

namespace ScriptPreprocessor

/-!
# Cycles of macros

Among macros without parameters whose bodies close their literals, expansion is a search in depth:
it enters the body of every defined word, and the active macros are the way on which it got there.
So an issue is reported exactly when a word of the line leads into a cycle of macros that mention
each other; and when none is reported, nothing is left that could be replaced
(`MacroTable.issues_expand_iff_leadsToCycle`).
-/

/-- A macro without parameters whose body closes the literals it opens. -/
def Macro.IsPlain : Macro → Prop
  | .object body => body.ClosesLiterals
  | .function _ _ => False

instance : DecidablePred Macro.IsPlain
  | .object body => inferInstanceAs (Decidable body.ClosesLiterals)
  | .function _ _ => .isFalse id

/-- A text that stays within quotation marks when it is put between them. -/
def Text.IsQuotable (text : Text) : Prop :=
  '"' ∉ text ∧ '\\' ∉ text

instance : DecidablePred Text.IsQuotable := fun text =>
  inferInstanceAs (Decidable ('"' ∉ text ∧ '\\' ∉ text))

/-! ## What built-in macros show -/

namespace Text.IsQuotable

variable {text : Text}

theorem next_inside (quotable : IsQuotable text) {character : Char} (member : character ∈ text) :
    (LiteralMode.inside '"').next character = .inside '"' := by
  have noSlash : character ≠ '\\' := fun same => quotable.2 (same ▸ member)
  have noQuote : character ≠ '"' := fun same => quotable.1 (same ▸ member)
  simp [LiteralMode.next, noSlash, noQuote]

theorem tail {character : Char} (quotable : IsQuotable (character :: text)) : IsQuotable text :=
  ⟨fun member => quotable.1 (List.mem_cons_of_mem _ member),
    fun member => quotable.2 (List.mem_cons_of_mem _ member)⟩

theorem spanLiteral_inside (quotable : IsQuotable text) (behind : Text) :
    spanLiteral (.inside '"') (text ++ '"' :: behind) = (text ++ ['"'], behind) := by
  induction text with
  | nil => rfl
  | cons character rest ih =>
    rw [List.cons_append, spanLiteral, quotable.next_inside List.mem_cons_self]
    simp only [ih quotable.tail]
    rfl

theorem first_quoted (quotable : IsQuotable text) (behind : Text) :
    Piece.first '"' (text ++ '"' :: behind) = (.literal (quoted text), behind) := by
  rw [Piece.first, if_pos (by decide), quotable.spanLiteral_inside behind]
  rfl

theorem closesLiterals_quoted (quotable : IsQuotable text) : (quoted text).ClosesLiterals := by
  -- A literal that does not close leaves nothing behind it.
  rcases Piece.closes_of_first (quotable.first_quoted ['"']) with closes | ⟨none, _⟩
  · exact closes
  · cases none

theorem ofText_quoted (quotable : IsQuotable text) :
    Piece.ofText (quoted text) = [.literal (quoted text)] := by
  rw [show quoted text = '"' :: (text ++ ['"']) from rfl,
    Piece.ofText_of_first (quotable.first_quoted []), Piece.ofText]
  rfl

end Text.IsQuotable

theorem letters_ofNat (number : Nat) :
    ∀ letter ∈ Text.ofNat number, isWordCharacter letter = true := by
  intro letter member
  simp [isWordCharacter, Char.isAlphanum, Text.isDigit_of_mem_ofNat member]

theorem ofNat_ne_nil (number : Nat) : Text.ofNat number ≠ [] :=
  Nat.toDigits_ne_nil

/-- A number is no identifier. -/
theorem not_isIdentifier_ofNat (number : Nat) : (Text.ofNat number).isIdentifier = false := by
  rcases List.exists_cons_of_ne_nil (ofNat_ne_nil number) with ⟨digit, rest, same⟩
  have noStart := isIdentifierStart_of_isDigit
    (Text.isDigit_of_mem_ofNat (same ▸ List.mem_cons_self : digit ∈ Text.ofNat number))
  rw [same, Text.isIdentifier, noStart, Bool.false_and]

namespace MacroTable

variable {environment : Environment} {table : MacroTable} {line : Origin}

/-- No word of a text has a meaning on a line. -/
def IsSettled (table : MacroTable) (line : Origin) (text : Text) : Prop :=
  ∀ name, .word name ∈ Piece.ofText text → table.replacement? line name = none

/-- Built-in macros show no names. -/
theorem IsLawful.settled_of_builtin (lawful : table.IsLawful environment)
    (quotable : ∀ text ∈ environment.texts, text.IsQuotable) (inUnit : line.unit.IsQuotable)
    {name shown : Text} (found : table.replacement? line name = some (.builtin shown)) :
    shown.ClosesLiterals ∧ table.IsSettled line shown := by
  have answers : ∀ answer ∈ line.unit :: environment.answers, answer.IsQuotable := by
    have noQuote : ∀ answer ∈ environment.answers, '"' ∉ answer :=
      (Environment.forall_not_mem_answers_iff (by decide) environment).2 fun text member =>
        (quotable text member).1
    have noSlash : ∀ answer ∈ environment.answers, '\\' ∉ answer :=
      (Environment.forall_not_mem_answers_iff (by decide) environment).2 fun text member =>
        (quotable text member).2
    exact List.forall_mem_cons.2
      ⟨inUnit, fun answer member => ⟨noQuote answer member, noSlash answer member⟩⟩
  rcases lawful.shown_of_builtin found with ⟨answer, isAnswer, rfl⟩ | ⟨number, rfl⟩
  · have ofAnswer := answers answer isAnswer
    refine ⟨ofAnswer.closesLiterals_quoted, fun word member => ?_⟩
    rw [ofAnswer.ofText_quoted, List.mem_singleton] at member
    cases member
  · refine ⟨closesLiterals_of_letters (letters_ofNat number), fun word member => ?_⟩
    rw [Piece.ofText_of_letters (ofNat_ne_nil number) (letters_ofNat number),
      List.mem_singleton] at member
    cases member
    by_contra known
    have identifier := lawful.isIdentifier_of_replacement? (Option.isSome_iff_ne_none.2 known)
    rw [not_isIdentifier_ofNat] at identifier
    cases identifier

/-! ## Cycles -/

/-- The body of one macro has the name of another outside its literals. -/
def Mentions (table : MacroTable) (first second : Text) : Prop :=
  ∃ definition, table.get? first = some definition ∧
    .word second ∈ Piece.ofText definition.body ∧ (table.get? second).isSome = true

/-- A cycle of macros that mention each other is reached from a name. -/
def LeadsToCycle (table : MacroTable) (name : Text) : Prop :=
  ∃ repeated, Relation.ReflTransGen table.Mentions name repeated ∧
    Relation.TransGen table.Mentions repeated repeated

theorem LeadsToCycle.of_mentions {name next : Text} (leads : table.LeadsToCycle next)
    (mention : table.Mentions name next) : table.LeadsToCycle name := by
  rcases leads with ⟨repeated, path, cycle⟩
  exact ⟨repeated, path.head mention, cycle⟩

/-- A way into a cycle goes on, be it on the way or in the cycle. -/
theorem LeadsToCycle.exists_mentions {name : Text} (leads : table.LeadsToCycle name) :
    ∃ next, table.Mentions name next ∧ table.LeadsToCycle next := by
  rcases leads with ⟨repeated, path, cycle⟩
  rcases path.cases_head with rfl | ⟨next, mention, path⟩
  · rcases Relation.TransGen.head'_iff.1 cycle with ⟨next, mention, path⟩
    exact ⟨next, mention, name, path, cycle⟩
  · exact ⟨next, mention, repeated, path, cycle⟩

theorem LeadsToCycle.get? {name : Text} (leads : table.LeadsToCycle name) :
    ∃ definition, table.get? name = some definition ∧
      ∃ next, .word next ∈ Piece.ofText definition.body ∧ table.LeadsToCycle next := by
  rcases leads.exists_mentions with ⟨next, ⟨definition, known, inBody, _⟩, later⟩
  exact ⟨definition, known, next, inBody, later⟩

/-! ## Texts that lead to macros without parameters only -/

/-- Every macro to which the words of a text lead is plain. -/
def LeadsToPlain (table : MacroTable) (text : Text) : Prop :=
  ∀ name, .word name ∈ Piece.ofText text → ∀ next,
    Relation.ReflTransGen table.Mentions name next →
    ∀ definition, table.get? next = some definition → definition.IsPlain

namespace LeadsToPlain

theorem of_forall (plain : ∀ entry ∈ table.definitions, entry.2.IsPlain) (text : Text) :
    table.LeadsToPlain text := by
  intro _ _ name _ definition known
  rcases List.lookup_eq_some_iff.1 known with ⟨earlier, later, shape, _⟩
  exact plain (name, definition) (by simp [shape])

variable {character : Char} {rest after name : Text} {piece : Piece} {definition : Macro}

theorem behind_first (leads : table.LeadsToPlain (character :: rest))
    (shape : Piece.first character rest = (piece, after)) : table.LeadsToPlain after := by
  intro name member
  apply leads name
  rw [Piece.ofText_of_first shape]
  exact List.mem_cons_of_mem _ member

theorem isPlain_of_first (leads : table.LeadsToPlain (character :: rest))
    (shape : Piece.first character rest = (.word name, after))
    (known : table.get? name = some definition) : definition.IsPlain := by
  refine leads name ?_ name .refl definition known
  rw [Piece.ofText_of_first shape]
  exact List.mem_cons_self

theorem body_of_first (leads : table.LeadsToPlain (character :: rest))
    (shape : Piece.first character rest = (.word name, after))
    (known : table.get? name = some definition) : table.LeadsToPlain definition.body := by
  intro next inBody last path found same
  refine leads name ?_ last ?_ found same
  · rw [Piece.ofText_of_first shape]
    exact List.mem_cons_self
  -- Only defined names are mentioned, but the way from a name that has no definition ends there.
  · have isDefined : (table.get? next).isSome = true := by
      rcases path.cases_head with rfl | ⟨_, ⟨first, isFirst, _⟩, _⟩
      · simp [same]
      · simp [isFirst]
    exact path.head ⟨definition, known, inBody, isDefined⟩

end LeadsToPlain

/-! ## Expansion without parameters -/

/-- How a text is expanded when no macro has parameters. -/
inductive PlainExpansion (table : MacroTable) (line : Origin) :
    List Text → Text → Expansion → Prop
  | nil (active : List Text) : PlainExpansion table line active [] {}
  | mark {active : List Text} {character : Char} {rest after : Text} {piece : Piece}
      {behind : Expansion} (shape : Piece.first character rest = (piece, after))
      (noWord : ∀ name, piece ≠ .word name)
      (later : PlainExpansion table line active after behind) :
      PlainExpansion table line active (character :: rest)
        (behind.prepend (.copied piece.text) [])
  | word {active : List Text} {character : Char} {rest name after : Text} {behind : Expansion}
      (shape : Piece.first character rest = (.word name, after))
      (unknown : table.replacement? line name = none)
      (later : PlainExpansion table line active after behind) :
      PlainExpansion table line active (character :: rest) (behind.prepend (.copied name) [])
  | builtin {active : List Text} {character : Char} {rest name after shown : Text}
      {behind : Expansion} (shape : Piece.first character rest = (.word name, after))
      (known : table.replacement? line name = some (.builtin shown))
      (later : PlainExpansion table line active after behind) :
      PlainExpansion table line active (character :: rest)
        (behind.prepend (.replaced name shown) [])
  | recursive {active : List Text} {character : Char} {rest name after : Text}
      {behind : Expansion} (shape : Piece.first character rest = (.word name, after))
      (isActive : name ∈ active) (later : PlainExpansion table line active after behind) :
      PlainExpansion table line active (character :: rest)
        (behind.prepend (.copied name) [.recursive name])
  | object {active : List Text} {character : Char} {rest name after body : Text}
      {inner behind : Expansion} (shape : Piece.first character rest = (.word name, after))
      (inactive : name ∉ active) (known : table.get? name = some (.object body))
      (closes : body.ClosesLiterals)
      (within : PlainExpansion table line (name :: active) body inner)
      (later : PlainExpansion table line active after behind) :
      PlainExpansion table line active (character :: rest)
        (behind.prepend (.replaced name inner.text) inner.issues)
  | tooDeep {active : List Text} {character : Char} {rest name after body : Text}
      {behind : Expansion} (shape : Piece.first character rest = (.word name, after))
      (inactive : name ∉ active) (known : table.get? name = some (.object body))
      (full : table.maxDepth ≤ active.length)
      (later : PlainExpansion table line active after behind) :
      PlainExpansion table line active (character :: rest)
        (behind.prepend (.copied name) [.tooDeep name])

theorem plainExpansion_expandActive {active : List Text} {text : Text}
    (leads : table.LeadsToPlain text) :
    table.PlainExpansion line active text (table.expandActive line active text) := by
  have noFunction {character : Char} {rest name after body : Text} {parameters : List Text}
      {goal : Prop} (leads : table.LeadsToPlain (character :: rest))
      (shape : Piece.first character rest = (.word name, after))
      (known : table.replacement? line name = some (.defined (.function parameters body))) :
      goal :=
    (leads.isPlain_of_first shape (get?_of_replacement? known)).elim
  induction active, text using expandActive_induction table line with
  | nil active =>
    rw [expandActive_nil]
    exact .nil active
  | copy copies ih =>
    rw [expandActive_of_copies copies]
    cases copies with
    | mark shape noWord => exact .mark shape noWord (ih (leads.behind_first shape))
    | unknown shape unknown => exact .word shape unknown (ih (leads.behind_first shape))
    | recursive shape _ isActive => exact .recursive shape isActive (ih (leads.behind_first shape))
    | tooDeep shape known inactive full =>
      exact .tooDeep shape inactive (get?_of_replacement? known) (Nat.le_of_not_lt full)
        (ih (leads.behind_first shape))
    | uncalled shape known _ _ | miscounted shape known _ _ _ | callTooDeep shape known _ _ _ _ =>
      exact noFunction leads shape known
  | builtin shape known inactive ih =>
    rw [expandActive_of_builtin shape known inactive]
    exact .builtin shape known (ih (leads.behind_first shape))
  | object shape known inactive room innerIh ih =>
    have found := get?_of_replacement? known
    rw [expandActive_of_object shape known inactive room]
    exact .object shape inactive found (leads.isPlain_of_first shape found)
      (innerIh (leads.body_of_first shape found)) (ih (leads.behind_first shape))
  | call shape known => exact noFunction leads shape known

/-! ## What is left and what is reported -/

/-- Built-in texts close their literals and show no names, and they hide no definition. -/
structure IsTransparent (table : MacroTable) (line : Origin) : Prop where
  builtin : ∀ name shown, table.replacement? line name = some (.builtin shown) →
    shown.ClosesLiterals ∧ table.IsSettled line shown
  visible : ∀ name definition, table.get? name = some definition →
    table.replacement? line name = some (.defined definition)

theorem IsSettled.append {left right : Text} (closes : left.ClosesLiterals)
    (seam : Text.IsSeam left right) (first : table.IsSettled line left)
    (second : table.IsSettled line right) : table.IsSettled line (left ++ right) := by
  intro name member
  rw [Piece.ofText_append closes seam] at member
  rcases List.mem_append.1 member with inLeft | inRight
  · exact first name inLeft
  · exact second name inRight

namespace PlainExpansion

variable {active : List Text} {text : Text} {expansion : Expansion}

/-- Expansion puts no letter in front of a text. -/
theorem head_text (expands : table.PlainExpansion line active text expansion)
    (clear : text.head?.any isWordCharacter = false) :
    expansion.text.head?.any isWordCharacter = false := by
  have noWord {character : Char} {rest name after : Text} {goal : Prop}
      (shape : Piece.first character rest = (.word name, after))
      (clear : (character :: rest).head?.any isWordCharacter = false) : goal := by
    rcases Piece.word_of_first shape with ⟨filled, letters⟩
    rcases List.exists_cons_of_ne_nil filled with ⟨letter, more, rfl⟩
    have begins := (List.cons.inj (Piece.text_append_of_first shape)).1
    have isLetter := letters letter List.mem_cons_self
    rw [begins] at isLetter
    simp [isLetter] at clear
  cases expands with
  | nil => rfl
  | mark shape noWord _ =>
    rcases Piece.head_of_mark shape noWord with ⟨begins, noLetter⟩
    simp [Segment.expanded, begins, noLetter]
  | word shape _ _ => exact noWord shape clear
  | builtin shape _ _ => exact noWord shape clear
  | recursive shape _ _ => exact noWord shape clear
  | object shape _ _ _ _ _ => exact noWord shape clear
  | tooDeep shape _ _ _ _ => exact noWord shape clear

/-- A text that closes its literals is expanded to one that does. -/
theorem closesLiterals (transparent : table.IsTransparent line)
    (expands : table.PlainExpansion line active text expansion) (closes : text.ClosesLiterals) :
    expansion.text.ClosesLiterals := by
  induction expands with
  | nil => exact closes
  | mark shape _ _ ih
  | word shape _ _ ih
  | recursive shape _ _ ih
  | tooDeep shape _ _ _ _ ih =>
    have pieces := Piece.closesLiterals_of_first shape closes
    exact pieces.1.append (ih pieces.2)
  | builtin shape known _ ih =>
    have pieces := Piece.closesLiterals_of_first shape closes
    exact (transparent.builtin _ _ known).1.append (ih pieces.2)
  | object shape _ _ bodyCloses _ _ innerIh ih =>
    have pieces := Piece.closesLiterals_of_first shape closes
    exact (innerIh bodyCloses).append (ih pieces.2)

/-- When nothing is reported, nothing is left that has a meaning. -/
theorem settled (transparent : table.IsTransparent line)
    (expands : table.PlainExpansion line active text expansion) (quiet : expansion.issues = []) :
    table.IsSettled line expansion.text := by
  -- What replaces a word stands in front of something that is no letter.
  have seam {active : List Text} {character : Char} {rest name after : Text}
      {behind : Expansion} (shape : Piece.first character rest = (.word name, after))
      (later : table.PlainExpansion line active after behind) (left : Text) :
      Text.IsSeam left behind.text := by
    have clear := later.head_text (Piece.head_after_word shape)
    simp [Text.IsSeam, clear]
  induction expands with
  | nil =>
    intro name member
    simp [Expansion.text, Piece.ofText] at member
  | @mark active character rest after piece behind shape noWord later ih =>
    have ends : after = [] → behind.text = [] := by
      rintro rfl
      cases later
      rfl
    intro name member
    rw [Expansion.text_prepend, Segment.expanded,
      Piece.ofText_append_of_mark shape noWord ends] at member
    rcases List.mem_cons.1 member with same | inBehind
    · exact absurd same.symm (noWord name)
    · exact ih quiet name inBehind
  | @word active character rest name after behind shape unknown later ih =>
    rcases Piece.word_of_first shape with ⟨filled, letters⟩
    refine IsSettled.append (closesLiterals_of_letters letters) (seam shape later _) ?_ (ih quiet)
    intro other member
    rw [Segment.expanded, Piece.ofText_of_letters filled letters, List.mem_singleton] at member
    cases member
    exact unknown
  | builtin shape known later ih =>
    rcases transparent.builtin _ _ known with ⟨closes, settled⟩
    exact IsSettled.append closes (seam shape later _) settled (ih quiet)
  | recursive => cases quiet
  | object shape _ _ closes within later innerIh ih =>
    rcases List.append_eq_nil_iff.1 quiet with ⟨quietInner, quietLater⟩
    exact IsSettled.append (within.closesLiterals transparent closes) (seam shape later _)
      (innerIh quietInner) (ih quietLater)
  | tooDeep => cases quiet

/-- When nothing is reported, no word leads into a cycle: a cycle would be followed around. -/
theorem not_leadsToCycle (transparent : table.IsTransparent line)
    (expands : table.PlainExpansion line active text expansion) (quiet : expansion.issues = []) :
    ∀ name, .word name ∈ Piece.ofText text → ¬ table.LeadsToCycle name := by
  induction expands with
  | nil =>
    intro name member
    simp [Piece.ofText] at member
  | mark shape noWord _ ih =>
    rw [Piece.ofText_of_first shape]
    refine fun name member => (List.mem_cons.1 member).elim (fun same => ?_) (ih quiet name)
    exact absurd same.symm (noWord name)
  | word shape unknown _ ih =>
    rw [Piece.ofText_of_first shape]
    refine fun name member => (List.mem_cons.1 member).elim (fun same => ?_) (ih quiet name)
    cases same
    intro leads
    rcases leads.get? with ⟨definition, known, _⟩
    rw [transparent.visible _ _ known] at unknown
    cases unknown
  | builtin shape shown _ ih =>
    rw [Piece.ofText_of_first shape]
    refine fun name member => (List.mem_cons.1 member).elim (fun same => ?_) (ih quiet name)
    cases same
    intro leads
    rcases leads.get? with ⟨definition, known, _⟩
    rw [transparent.visible _ _ known] at shown
    cases shown
  | recursive => cases quiet
  | object shape _ known _ _ _ innerIh ih =>
    rcases List.append_eq_nil_iff.1 quiet with ⟨quietInner, quietLater⟩
    rw [Piece.ofText_of_first shape]
    refine fun name member => (List.mem_cons.1 member).elim (fun same => ?_) (ih quietLater name)
    cases same
    intro leads
    rcases leads.get? with ⟨definition, found, next, inBody, later⟩
    rw [known] at found
    cases found
    exact innerIh quietInner next inBody later
  | tooDeep => cases quiet

/-- What is reported is a cycle, when every active macro leads to every macro in the text. -/
theorem exists_leadsToCycle (roomy : table.size ≤ table.maxDepth)
    (expands : table.PlainExpansion line active text expansion) (stack : table.IsStack active)
    (reaches : ∀ earlier ∈ active, ∀ name, .word name ∈ Piece.ofText text →
      (table.get? name).isSome = true → Relation.TransGen table.Mentions earlier name)
    (reported : expansion.issues ≠ []) :
    ∃ name, .word name ∈ Piece.ofText text ∧ table.LeadsToCycle name := by
  induction expands with
  | nil => exact absurd rfl reported
  | mark shape _ _ ih
  | word shape _ _ ih
  | builtin shape _ _ ih =>
    rw [Piece.ofText_of_first shape] at reaches ⊢
    rcases ih stack (fun earlier isActive name member => reaches earlier isActive name
      (List.mem_cons_of_mem _ member)) reported with ⟨name, member, leads⟩
    exact ⟨name, List.mem_cons_of_mem _ member, leads⟩
  | recursive shape isActive _ _ =>
    rw [Piece.ofText_of_first shape] at reaches ⊢
    have around := reaches _ isActive _ List.mem_cons_self (stack.defined _ isActive)
    exact ⟨_, List.mem_cons_self, _, .refl, around⟩
  | @object active character rest name after body inner behind shape inactive known _ _ _ innerIh
      ih =>
    have defined := Option.isSome_iff_exists.2 ⟨_, known⟩
    rw [Piece.ofText_of_first shape] at reaches ⊢
    by_cases quiet : inner.issues = []
    · have later : behind.issues ≠ [] := by
        intro none
        exact reported (List.append_eq_nil_iff.2 ⟨quiet, none⟩)
      rcases ih stack (fun earlier isActive name member => reaches earlier isActive name
        (List.mem_cons_of_mem _ member)) later with ⟨name, member, leads⟩
      exact ⟨name, List.mem_cons_of_mem _ member, leads⟩
    · have mentions : ∀ next, .word next ∈ Piece.ofText body →
          (table.get? next).isSome = true → table.Mentions name next :=
        fun next inBody isDefined => ⟨_, known, inBody, isDefined⟩
      have reachesInner : ∀ earlier ∈ name :: active, ∀ next, .word next ∈ Piece.ofText body →
          (table.get? next).isSome = true → Relation.TransGen table.Mentions earlier next := by
        intro earlier isActive next inBody isDefined
        rcases List.mem_cons.1 isActive with rfl | before
        · exact .single (mentions next inBody isDefined)
        · exact (reaches earlier before name List.mem_cons_self defined).tail
            (mentions next inBody isDefined)
      rcases innerIh (stack.push inactive defined) reachesInner quiet with ⟨next, inBody, leads⟩
      rcases leads.get? with ⟨_, found, _⟩
      exact ⟨name, List.mem_cons_self, leads.of_mentions
        (mentions next inBody (Option.isSome_iff_exists.2 ⟨_, found⟩))⟩
  | tooDeep shape inactive known full _ _ =>
    have deeper := (stack.push inactive (Option.isSome_iff_exists.2 ⟨_, known⟩)).length_le_size
    rw [List.length_cons] at deeper
    omega

end PlainExpansion

/-! ## Expansions of lines -/

theorem IsLawful.isTransparent (lawful : table.IsLawful environment)
    (quotable : ∀ text ∈ environment.texts, text.IsQuotable) (inUnit : line.unit.IsQuotable) :
    table.IsTransparent line where
  builtin _ _ known := lawful.settled_of_builtin quotable inUnit known
  visible _ _ known := lawful.replacement?_of_get? known line

theorem isSettled_iff {text : Text} : table.IsSettled line text ↔
    ∀ name, .word name ∈ Piece.ofText text → table.isDefined name = false := by
  simp [IsSettled, isDefined_eq_isSome table line]

/-- A text without defined names stays as it is, and no spans are recorded. -/
theorem IsSettled.expand {text : Text} (settled : table.IsSettled line text) :
    (table.expand line text).text = text ∧ (table.expand line text).spans = [] := by
  refine ⟨text_expandActive_of_inert settled, ?_⟩
  have copied (pieces : List Piece) (expandedColumn sourceColumn : Nat) :
      Segment.spansFrom expandedColumn sourceColumn
        (pieces.map fun piece => .copied piece.text) = [] := by
    induction pieces generalizing expandedColumn sourceColumn with
    | nil => rfl
    | cons piece pieces ih => exact ih _ _
  rw [MacroTable.expand, expandActive_of_inert settled]
  exact copied _ 0 0

/-- Macros without parameters, whose bodies close their literals, are all replaced unless a word of
the line leads into a cycle; then, and only then, an issue is reported. -/
theorem issues_expand_iff_leadsToCycle {maxDepth : Nat} {edits : List MacroEdit}
    (reached : table = (ofEnvironment environment maxDepth).edited edits)
    (plain : ∀ entry ∈ table.definitions, entry.2.IsPlain)
    (roomy : table.size ≤ table.maxDepth)
    (quotable : ∀ text ∈ environment.texts, text.IsQuotable) (inUnit : line.unit.IsQuotable)
    (text : Text) :
    ((table.expand line text).issues ≠ [] ↔
      ∃ name, .word name ∈ Piece.ofText text ∧ table.isDefined name = true ∧
        table.LeadsToCycle name) ∧
    ((table.expand line text).issues = [] →
      (∀ name, .word name ∈ Piece.ofText (table.expand line text).text →
        table.isDefined name = false) ∧
      (table.expand line (table.expand line text).text).text = (table.expand line text).text ∧
      (table.expand line (table.expand line text).text).spans = []) := by
  have lawful : table.IsLawful environment := reached ▸ isLawful_edited environment maxDepth edits
  have transparent := lawful.isTransparent quotable inUnit
  have expands : table.PlainExpansion line [] text (table.expand line text) :=
    plainExpansion_expandActive (.of_forall plain text)
  refine ⟨⟨fun reported => ?_, ?_⟩, fun quiet => ?_⟩
  · have reaches : ∀ earlier ∈ [], ∀ name, .word name ∈ Piece.ofText text →
        (table.get? name).isSome = true → Relation.TransGen table.Mentions earlier name := by simp
    rcases expands.exists_leadsToCycle roomy (IsStack.nil table) reaches reported
      with ⟨name, member, leads⟩
    rcases leads.get? with ⟨definition, known, _⟩
    exact ⟨name, member, by simp [isDefined, known], leads⟩
  · rintro ⟨name, member, _, leads⟩ quiet
    exact expands.not_leadsToCycle transparent quiet name member leads
  · have settled := expands.settled transparent quiet
    exact ⟨isSettled_iff.1 settled, settled.expand⟩

/-- Two macros that mention each other, and one whose body only shows the name of one of them. -/
theorem issues_expand_in_cycle :
    let environment : Environment := { Environment.bare with agentName := "Bot".toList }
    let edits : List MacroEdit :=
      [.define "A B+1".toList, .define "B (A)".toList, .define "C 'A'".toList]
    let table := (ofEnvironment environment 3).edited edits
    let line : Origin := ⟨"main".toList, 4⟩
    (∀ entry ∈ table.definitions, entry.2.IsPlain) ∧ table.size ≤ table.maxDepth ∧
      (∀ text ∈ environment.texts, text.IsQuotable) ∧ line.unit.IsQuotable ∧
      (table.expand line "A".toList).issues ≠ [] ∧ (table.expand line "C".toList).issues = [] := by
  intro environment edits table line
  have plain : ∀ entry ∈ table.definitions, entry.2.IsPlain := by decide
  have quotable : ∀ text ∈ environment.texts, text.IsQuotable := by decide
  have inUnit : line.unit.IsQuotable := by decide
  have found (text : Text) := issues_expand_iff_leadsToCycle
    (rfl : table = (ofEnvironment environment 3).edited edits) plain (by decide) quotable inUnit
    text
  refine ⟨plain, by decide, quotable, inUnit, ?_, ?_⟩
  · have first : table.Mentions "A".toList "B".toList := by
      have pieces : Piece.ofText "B+1".toList = .word "B".toList :: Piece.ofText "+1".toList :=
        Piece.ofText_of_first (rfl : Piece.first 'B' "+1".toList = (.word "B".toList, _))
      exact ⟨.object "B+1".toList, rfl, pieces ▸ List.mem_cons_self, rfl⟩
    have second : table.Mentions "B".toList "A".toList := by
      have pieces : Piece.ofText "(A)".toList = .mark '(' :: Piece.ofText "A)".toList :=
        Piece.ofText_of_first (rfl : Piece.first '(' "A)".toList = (.mark '(', _))
      have inner : Piece.ofText "A)".toList = .word "A".toList :: Piece.ofText ")".toList :=
        Piece.ofText_of_first (rfl : Piece.first 'A' ")".toList = (.word "A".toList, _))
      refine ⟨.object "(A)".toList, rfl, ?_, rfl⟩
      rw [Macro.body, pieces, inner]
      exact List.mem_cons_of_mem _ List.mem_cons_self
    have cycle : Relation.TransGen table.Mentions "A".toList "A".toList :=
      .tail (.single first) second
    refine (found "A".toList).1.2 ⟨"A".toList, ?_, rfl, "A".toList, .refl, cycle⟩
    rw [Piece.ofText_of_letters (by decide) (List.all_eq_true.1 rfl)]
    exact List.mem_cons_self
  · by_contra reported
    rcases (found "C".toList).1.1 reported with ⟨name, member, _, leads⟩
    rw [Piece.ofText_of_letters (by decide) (List.all_eq_true.1 rfl), List.mem_singleton] at member
    cases member
    rcases leads.get? with ⟨definition, known, next, inBody, _⟩
    have body : table.get? "C".toList = some (.object "'A'".toList) := rfl
    have pieces : Piece.ofText "'A'".toList = .literal "'A'".toList :: Piece.ofText [] :=
      Piece.ofText_of_first (rfl : Piece.first '\'' "A'".toList = (.literal "'A'".toList, _))
    rw [← Option.some.inj (body.symm.trans known), Macro.body, pieces, Piece.ofText,
      List.mem_singleton] at inBody
    cases inBody

end MacroTable

end ScriptPreprocessor
