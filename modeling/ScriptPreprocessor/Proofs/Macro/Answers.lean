import Mathlib.Data.List.Basic
import ScriptPreprocessor.Macro.Environment

namespace ScriptPreprocessor

/-!
# The characters of an environment's answers

The built-in macros show texts of the environment between quotation marks, and one number.  The
date and the time are put together from numbers, names and the literal parts of their formats.
Numbers and names have only letters, digits, signs and blanks; so any other character is shown
exactly when a text of the environment has it (`Environment.forall_not_mem_answers_iff`).
-/

namespace DateFormat

/-- The characters that numbers and names of the calendar consist of. -/
def isShown (character : Char) : Bool :=
  character.isAlphanum || character == '+' || character == '-' || character == ' '

/-- A text that consists of such characters. -/
def IsShownText (text : Text) : Prop :=
  ∀ character ∈ text, isShown character = true

instance : DecidablePred IsShownText := fun text =>
  List.decidableBAll (fun character => isShown character = true) text

/-- The literal parts of a format. -/
def literals (format : DateFormat) : List Text :=
  format.filterMap fun item =>
    match item with
    | .literal text => some text
    | _ => none

theorem IsShownText.append {left right : Text} (first : IsShownText left)
    (second : IsShownText right) : IsShownText (left ++ right) := by
  intro character member
  rcases List.mem_append.1 member with inLeft | inRight
  · exact first character inLeft
  · exact second character inRight

theorem IsShownText.take {text : Text} (shown : IsShownText text) (count : Nat) :
    IsShownText (text.take count) :=
  fun character member => shown character (List.mem_of_mem_take member)

theorem isShownText_ofNat (number : Nat) : IsShownText (Text.ofNat number) := by
  intro character member
  simp [isShown, Char.isAlphanum, Text.isDigit_of_mem_ofNat member]

theorem isShownText_ofInt (number : Int) : IsShownText (Text.ofInt number) := by
  cases number with
  | ofNat number => exact isShownText_ofNat number
  | negSucc number => exact List.forall_mem_cons.2 ⟨by decide, isShownText_ofNat _⟩

theorem isShownText_padLeft {filler : Char} {text : Text} (isFiller : isShown filler = true)
    (shown : IsShownText text) (width : Nat) : IsShownText (padLeft width filler text) := by
  refine IsShownText.append ?_ shown
  intro character member
  rw [List.eq_of_mem_replicate member]
  exact isFiller

theorem isShownText_renderNumber (width : Nat) (padding : Padding) (showPlus : Bool)
    (value : Int) : IsShownText (renderNumber width padding showPlus value) := by
  have sign : IsShownText (if value < 0 then ['-'] else if showPlus then ['+'] else []) := by
    split
    · decide
    · split <;> decide
  have digits := isShownText_ofNat value.natAbs
  unfold renderNumber
  cases padding with
  | nothing => exact sign.append digits
  | zeros => exact sign.append (isShownText_padLeft (by decide) digits _)
  | blanks => exact isShownText_padLeft (by decide) (sign.append digits) _

theorem isShownText_renderYear (padding : Padding) (year : Int) :
    IsShownText (renderYear padding year) := by
  unfold renderYear
  split
  · exact isShownText_ofInt year
  · split <;> exact isShownText_renderNumber _ _ _ _

theorem isShownText_renderField (instant : Instant) (field : NumericField) (padding : Padding) :
    IsShownText (renderField instant field padding) := by
  cases field with
  | year => exact isShownText_renderYear _ _
  | isoYear => exact isShownText_renderYear _ _
  | quarter => exact isShownText_ofNat _
  | weekdayFromSunday => exact isShownText_ofNat _
  | weekdayFromMonday => exact isShownText_ofNat _
  | _ => exact isShownText_renderNumber _ _ _ _

theorem isShownText_renderName (instant : Instant) (field : NameField) :
    IsShownText (renderName instant field) := by
  have listed (names : List Text) (shown : ∀ name ∈ names, IsShownText name) (index : Nat) :
      IsShownText (names[index]?.getD []) := by
    cases found : names[index]? with
    | none => simp [IsShownText]
    | some name => exact shown name (List.mem_of_getElem? found)
  have months := listed monthNames (by decide) (instant.month - 1)
  have weekdays := listed weekdayNames (by decide) instant.weekday
  cases field with
  | shortMonth => exact months.take 3
  | longMonth => exact months
  | shortWeekday => exact weekdays.take 3
  | longWeekday => exact weekdays
  | lowerHalfDay =>
    simp only [renderName]
    split <;> decide
  | upperHalfDay =>
    simp only [renderName]
    split <;> decide

/-- A character that no number and no name has comes from a literal part of the format. -/
theorem mem_render_iff {character : Char} (hidden : isShown character = false)
    (format : DateFormat) (instant : Instant) :
    character ∈ format.render instant ↔ ∃ text ∈ format.literals, character ∈ text := by
  constructor
  · intro member
    rcases List.mem_flatMap.1 member with ⟨item, inFormat, inItem⟩
    cases item with
    | literal text => exact ⟨text, List.mem_filterMap.2 ⟨_, inFormat, rfl⟩, inItem⟩
    | number field padding =>
      have shown := isShownText_renderField instant field padding character inItem
      rw [hidden] at shown
      cases shown
    | name field =>
      have shown := isShownText_renderName instant field character inItem
      rw [hidden] at shown
      cases shown
  · rintro ⟨text, isLiteral, inText⟩
    rcases List.mem_filterMap.1 isLiteral with ⟨item, inFormat, same⟩
    cases item with
    | literal part =>
      cases same
      exact List.mem_flatMap.2 ⟨_, inFormat, inText⟩
    | number field padding => cases same
    | name field => cases same

end DateFormat

namespace Environment

/-- The texts of an environment, the literal parts of its formats included. -/
def texts (environment : Environment) : List Text :=
  [environment.agentId, environment.agentName, environment.viewerName,
    environment.viewerVersion] ++ environment.dateFormat.literals ++
    environment.timeFormat.literals

/-- The texts that built-in macros show between quotation marks. -/
def answers (environment : Environment) : List Text :=
  [environment.dateFormat.render environment.clock,
    environment.timeFormat.render environment.clock, environment.agentId, environment.agentName,
    environment.viewerName, environment.viewerVersion]

/-- A built-in macro shows an answer or the number of the viewer. -/
theorem text_of_mem_builtins {environment : Environment} {entry : Text × Text}
    (member : entry ∈ environment.builtins) :
    (∃ answer ∈ environment.answers, entry.2 = quoted answer) ∨
      entry.2 = Text.ofNat environment.viewerNumber := by
  simp only [builtins, List.mem_cons, List.not_mem_nil, or_false] at member
  rcases member with rfl | rfl | rfl | rfl | rfl | rfl | rfl
  all_goals simp [answers]

/-- A built-in macro for every answer. -/
theorem exists_builtin_of_answer {environment : Environment} {answer : Text}
    (member : answer ∈ environment.answers) :
    ∃ entry ∈ environment.builtins, entry.2 = quoted answer := by
  simp only [answers, List.mem_cons, List.not_mem_nil, or_false] at member
  rcases member with rfl | rfl | rfl | rfl | rfl | rfl
  all_goals simp [builtins]

/-- A character that no number and no name of the calendar has is in no answer exactly when it is in
no text of the environment. -/
theorem forall_not_mem_answers_iff {character : Char}
    (hidden : DateFormat.isShown character = false) (environment : Environment) :
    (∀ answer ∈ environment.answers, character ∉ answer) ↔
      ∀ text ∈ environment.texts, character ∉ text := by
  simp only [answers, texts, List.forall_mem_cons, List.forall_mem_append,
    DateFormat.mem_render_iff hidden, not_exists, not_and, List.not_mem_nil, false_implies,
    implies_true, and_true]
  constructor
  · rintro ⟨date, time, rest⟩
    exact ⟨⟨rest, date⟩, time⟩
  · rintro ⟨⟨rest, date⟩, time⟩
    exact ⟨date, time, rest⟩

end Environment

end ScriptPreprocessor
