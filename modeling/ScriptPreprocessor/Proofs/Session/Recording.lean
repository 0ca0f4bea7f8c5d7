import ScriptPreprocessor.Proofs.Macro.Spans
import ScriptPreprocessor.Proofs.Session.Calls
import ScriptPreprocessor.Proofs.Text.Parts
import ScriptPreprocessor.Proofs.Text.Spelling

namespace ScriptPreprocessor

/-!
# Reading and recording compiler messages

A compiler message is a row of parts with blanks between them.  Whatever the blanks are, reading the
row gives back what was printed (`CompilerMessage.parse?_of_isPrint`): each reader takes its part
from the front and leaves the rest of the row.  Any words can be printed as row and column; only the
largest one has no position counted from one.

A finished session that is told messages adds one diagnostic for each that can be read, in their
order and behind those that it has, and it changes nothing else (`Session.Records`).  Each stands
where the session finds the position in words, which is the exact place unless the column is out of
all proportion (`Session.remap?_eq_position?`).
-/

/-! ## Rows of parts -/

namespace Text

/-- Parts written in a row, with any blanks in front of each and behind the last. -/
inductive IsSpaced : List Text → Text → Prop
  | last {blanks : Text} (blank : ∀ character ∈ blanks, isBlank character = true) :
      IsSpaced [] blanks
  | part {blanks part rest : Text} {parts : List Text}
      (blank : ∀ character ∈ blanks, isBlank character = true) (behind : IsSpaced parts rest) :
      IsSpaced (part :: parts) (blanks ++ part ++ rest)

/-- A number in decimal digits has the value that the digits say. -/
theorem digitsValue_ofNat (number : Nat) : digitsValue (ofNat number) = number := by
  have folded : ∀ (digits : Text), (∀ digit ∈ digits, digit.isDigit = true) → ∀ value,
      digits.foldl (fun value digit => value * 10 + digitValue digit) value =
        Nat.ofDigitChars 10 digits value := by
    intro digits all
    induction digits with
    | nil => exact fun _ => rfl
    | cons digit rest ih =>
      rw [List.forall_mem_cons] at all
      intro value
      rw [List.foldl_cons, ih all.2, Nat.ofDigitChars_cons, digitValue, if_pos all.1,
        Nat.mul_comm value 10]
  exact (folded _ (fun _ member => isDigit_of_mem_ofNat member) 0).trans
    Nat.ofDigitChars_ten_toDigits

theorem isBlank_of_isDigit {character : Char} (digit : character.isDigit = true) :
    isBlank character = false :=
  isBlank_of_isWordCharacter (by simp [isWordCharacter, Char.isAlphanum, digit])

theorem isDigit_of_isBlank {character : Char} (blank : isBlank character = true) :
    character.isDigit = false := by
  by_contra digit
  rw [isBlank_of_isDigit (eq_true_of_ne_false digit)] at blank
  cases blank

theorem trimStart_append {blanks part : Text}
    (blank : ∀ character ∈ blanks, isBlank character = true) (filled : part ≠ [])
    (starts : part.head?.any isBlank = false) (rest : Text) :
    trimStart (blanks ++ part ++ rest) = part ++ rest := by
  cases part with
  | nil => exact absurd rfl filled
  | cons first more =>
    have stops : (first :: more ++ rest).head?.any isBlank = false := starts
    rw [List.append_assoc]
    exact (takeWhile_dropWhile_append blank stops).2

/-- A row begins with a blank or with its first part. -/
theorem IsSpaced.head?_any {parts : List Text} {part text : Text} {test : Char → Bool}
    (spaced : IsSpaced (part :: parts) text)
    (ofBlank : ∀ character, isBlank character = true → test character = false)
    (filled : part ≠ []) (starts : part.head?.any test = false) : text.head?.any test = false := by
  cases spaced with
  | @part blanks _ rest _ blank behind =>
    cases blanks with
    | nil =>
      cases part with
      | nil => exact absurd rfl filled
      | cons first more => exact starts
    | cons first more => exact ofBlank first (blank first List.mem_cons_self)

end Text

/-! ## Reading -/

namespace CompilerMessage

open Text

/-- The word by which a message announces its severity. -/
inductive Announces : Severity → Text → Prop
  | error : Announces .error "ERROR".toList
  | warning : Announces .warning "WARNING".toList

/-- How the compiler prints a message about a position that it counts from zero, in words.  There
may be any blanks around the parts; the message itself is one line without blanks at its ends. -/
structure IsPrint (row column : Nat) (severity : Severity) (message text : Text) : Prop where
  rowFits : row < wordCount
  columnFits : column < wordCount
  oneLine : '\n' ∉ message
  starts : message.head?.any isBlank = false
  ends : message.getLast?.any isBlank = false
  spaced : ∃ word, Announces severity word ∧
    IsSpaced [['('], ofNat row, [','], ofNat column, [')'], [':'], word, [':'], message] text

/-- A mark is taken from the front of a row. -/
theorem exists_afterMark? {mark text : Text} {parts : List Text}
    (spaced : IsSpaced (mark :: parts) text) (filled : mark ≠ [])
    (starts : mark.head?.any isBlank = false) :
    ∃ rest, afterMark? mark text = some rest ∧ IsSpaced parts rest := by
  cases spaced with
  | part blank behind =>
    refine ⟨_, ?_, behind⟩
    rw [afterMark?, trimStart_append blank filled starts, afterStart?_eq_some_iff]

/-- A number is taken from the front of a row when no digit stands behind it. -/
theorem exists_position? {number : Nat} {next text : Text} {parts : List Text}
    (spaced : IsSpaced (ofNat number :: next :: parts) text) (fits : number < wordCount)
    (filled : next ≠ []) (starts : next.head?.any Char.isDigit = false) :
    ∃ rest, position? text = some (number, rest) ∧ IsSpaced (next :: parts) rest := by
  cases spaced with
  | @part blanks _ rest _ blank behind =>
    have digits : ∀ digit ∈ ofNat number, digit.isDigit = true :=
      fun _ member => isDigit_of_mem_ofNat member
    have given : ofNat number ≠ [] := Nat.toDigits_ne_nil
    have notBlank : ∀ digit ∈ ofNat number, isBlank digit = false :=
      fun digit member => isBlank_of_isDigit (digits digit member)
    have stops : rest.head?.any Char.isDigit = false :=
      behind.head?_any (fun _ => isDigit_of_isBlank) filled starts
    rcases takeWhile_dropWhile_append digits stops with ⟨taken, left⟩
    refine ⟨rest, ?_, behind⟩
    rw [position?, trimStart_append blank given (edges_of_forall notBlank).1]
    simp only [taken, left, digitsValue_ofNat]
    rw [if_neg]
    simp only [Bool.or_eq_true, List.isEmpty_iff, decide_eq_true_eq, not_or, Nat.not_le]
    exact ⟨given, fits⟩

/-- A severity is taken from the front of a row. -/
theorem exists_severity? {severity : Severity} {word text : Text} {parts : List Text}
    (announces : Announces severity word) (spaced : IsSpaced (word :: parts) text) :
    ∃ rest, severity? text = some (severity, rest) ∧ IsSpaced parts rest := by
  cases announces with
  | error =>
    rcases exists_afterMark? spaced (by decide) (by decide) with ⟨rest, found, behind⟩
    exact ⟨rest, by rw [severity?, found], behind⟩
  | warning =>
    rcases exists_afterMark? spaced (by decide) (by decide) with ⟨rest, found, behind⟩
    have other : afterMark? "ERROR".toList text = none := by
      cases spaced with
      | part blank behind =>
        rw [afterMark?, trimStart_append blank (by decide) (by decide)]
        rfl
    exact ⟨rest, by rw [severity?, other, found, Option.map_some], behind⟩

/-- Reading undoes printing, and counts from one, in words. -/
theorem parse?_of_isPrint {row column : Nat} {severity : Severity} {message text : Text}
    (print : IsPrint row column severity message text) :
    parse? text = some ⟨successor row, successor column, severity, message⟩ := by
  rcases print.spaced with ⟨word, announces, spaced⟩
  -- Every reader is given what the one before it has left of the row.
  rcases exists_afterMark? spaced (by decide) (by decide) with ⟨behindOpen, opened, spaced⟩
  rcases exists_position? spaced print.rowFits (by decide) (by decide) with
    ⟨behindRow, row, spaced⟩
  rcases exists_afterMark? spaced (by decide) (by decide) with ⟨behindComma, divided, spaced⟩
  rcases exists_position? spaced print.columnFits (by decide) (by decide) with
    ⟨behindColumn, column, spaced⟩
  rcases exists_afterMark? spaced (by decide) (by decide) with ⟨behindClose, closed, spaced⟩
  rcases exists_afterMark? spaced (by decide) (by decide) with ⟨behindColon, colon, spaced⟩
  rcases exists_severity? announces spaced with ⟨behindWord, word, spaced⟩
  rcases exists_afterMark? spaced (by decide) (by decide) with ⟨behindMark, mark, spaced⟩
  have trimmed : behindMark.trim = message := by
    cases spaced with
    | part blank behind =>
      cases behind with
      | last blankBehind => exact trim_append blank blankBehind print.starts print.ends
  unfold parse?
  simp only [opened, row, divided, column, closed, colon, word, mark, trimmed, if_neg print.oneLine,
    Option.bind_eq_bind, Option.bind_some]

end CompilerMessage

/-! ## Recording -/

namespace Session

/-- A position whose exact place in the source line is a signed word. -/
def HasWordAt (session : Session) (line column : Nat) : Prop :=
  ∀ output entry, session.phase = .done output → output.lineMap.entry? line = some entry →
    MacroSpan.FitsWord (MacroSpan.unclampedColumnFrom (column - 1) 0 entry.spans)

/-- In words, a session finds a position where exact arithmetic finds it. -/
theorem remap?_eq_position? {session : Session} {line column : Nat}
    (fits : session.HasWordAt line column) :
    session.remap? line column = session.position? line column := by
  unfold remap? position?
  cases phase : session.phase with
  | waiting fetch => rfl
  | done output =>
    simp only [LineMap.remap?, LineMap.position?]
    cases found : output.lineMap.entry? line with
    | none => rfl
    | some entry =>
      have same : entry.wrappedColumnOf (column - 1) = entry.sourceColumnOf (column - 1) :=
        MacroSpan.wrappedColumnFrom_eq (fits output entry phase found)
      rw [Option.map_some, Option.map_some, same]

/-- What a message comes to in a session: a diagnostic at the place where the session finds its line
and column, if it finds them. -/
def diagnosticOf (session : Session) (message : CompilerMessage) : Diagnostic :=
  let place := session.remap? message.line message.column
  { severity := message.severity
    kind := .compiler
    message := message.message
    unit := place.map Position.unit
    line := place.map Position.line
    column := place.map Position.column
    expandedPosition := some (message.line, message.column) }

/-- The diagnostics that texts come to, one for each that is a message, in their order. -/
inductive Recorded (session : Session) : List Text → List Diagnostic → Prop
  | nil : Recorded session [] []
  | skipped {text : Text} {texts : List Text} {diagnostics : List Diagnostic}
      (unread : CompilerMessage.parse? text = none) (later : Recorded session texts diagnostics) :
      Recorded session (text :: texts) diagnostics
  | added {text : Text} {texts : List Text} {diagnostics : List Diagnostic}
      {message : CompilerMessage} (read : CompilerMessage.parse? text = some message)
      (later : Recorded session texts diagnostics) :
      Recorded session (text :: texts) (session.diagnosticOf message :: diagnostics)

/-- A finished session with more diagnostics behind those that it has. -/
def withDiagnostics (session : Session) (output : RunOutput) (added : List Diagnostic) : Session :=
  { session with phase := .done { output with diagnostics := output.diagnostics ++ added } }

variable {session : Session} {output : RunOutput}

theorem recorded_messageDiagnostics (phase : session.phase = .done output)
    (messages : List Text) :
    session.Recorded messages (session.messageDiagnostics output messages) := by
  induction messages with
  | nil => exact .nil
  | cons text rest ih =>
    unfold messageDiagnostics at ih ⊢
    cases read : CompilerMessage.parse? text with
    | none =>
      rw [List.filterMap_cons_none read]
      exact .skipped read ih
    | some message =>
      have placed : message.diagnostic output.lineMap session.source.name =
          session.diagnosticOf message := by
        simp only [CompilerMessage.diagnostic, diagnosticOf, remap?, phase]
      rw [List.filterMap_cons_some read, List.map_cons, placed]
      exact .added read ih

/-- Texts come to the same diagnostics in sessions that find every place alike. -/
theorem Recorded.unique {other : Session} {messages : List Text} {added others : List Diagnostic}
    (alike : ∀ line column, other.remap? line column = session.remap? line column)
    (recorded : session.Recorded messages added) (recordedToo : other.Recorded messages others) :
    others = added := by
  induction recorded generalizing others with
  | nil =>
    cases recordedToo
    rfl
  | skipped unread later ih =>
    cases recordedToo with
    | skipped _ laterToo => exact ih laterToo
    | added read _ =>
      rw [unread] at read
      cases read
  | @added text texts diagnostics message read later ih =>
    cases recordedToo with
    | skipped unread _ =>
      rw [read] at unread
      cases unread
    | added readToo laterToo =>
      rw [read] at readToo
      cases readToo
      rw [ih laterToo, diagnosticOf, diagnosticOf, alike]

theorem record_of_done (phase : session.phase = .done output) (messages : List Text) :
    session.record messages =
      .ok ((session.messageDiagnostics output messages).length,
        session.withDiagnostics output (session.messageDiagnostics output messages)) := by
  unfold record finish
  rw [phase]
  rfl

/-- How a finished session records messages. -/
structure Records (session : Session) (output : RunOutput) (messages : List Text) : Prop where
  /-- The diagnostics of the messages come behind those that are there, and they are counted.
  Everything else stays as it was. -/
  appended : ∃ added, session.Recorded messages added ∧
    session.record messages = .ok (added.length, session.withDiagnostics output added)
  /-- It is determined which diagnostics these are. -/
  determined {added others : List Diagnostic} (recorded : session.Recorded messages added)
    (recordedToo : session.Recorded messages others) : others = added
  /-- Every message that can be read has its diagnostic. -/
  counted {added : List Diagnostic} (recorded : session.Recorded messages added) :
    added.length = (messages.filter fun text => (CompilerMessage.parse? text).isSome).length
  /-- Messages that are told later are recorded as if they had been told at once. -/
  again (more : List Text) : ∃ count next countMore last,
    session.record messages = .ok (count, next) ∧ next.record more = .ok (countMore, last) ∧
      session.record (messages ++ more) = .ok (count + countMore, last)

theorem Recorded.length_eq {messages : List Text} {added : List Diagnostic}
    (recorded : session.Recorded messages added) :
    added.length = (messages.filter fun text => (CompilerMessage.parse? text).isSome).length := by
  induction recorded with
  | nil => rfl
  | skipped unread later ih => rw [ih, List.filter_cons_of_neg (by simp [unread])]
  | added read later ih =>
    rw [List.length_cons, ih, List.filter_cons_of_pos (by simp [read]), List.length_cons]

theorem records_of_done (phase : session.phase = .done output) (messages : List Text) :
    session.Records output messages where
  appended :=
    ⟨_, recorded_messageDiagnostics phase messages, record_of_done phase messages⟩
  determined recorded recordedToo := recorded.unique (fun _ _ => rfl) recordedToo
  counted recorded := recorded.length_eq
  again more := by
    refine ⟨_, _, _, _, record_of_done phase messages, record_of_done rfl more, ?_⟩
    rw [record_of_done phase]
    simp only [messageDiagnostics, withDiagnostics, List.filterMap_append, List.map_append,
      List.length_append, List.append_assoc]

/-- A message that the compiler has printed is read as it was meant, and a finished session records
each message that can be read, and changes nothing else.  The diagnostics stand where the session
finds the positions in words, and that is where exact arithmetic finds them. -/
theorem readsAndRecords :
    (∀ {row column : Nat} {severity : Severity} {message text : Text},
      CompilerMessage.IsPrint row column severity message text →
        row + 1 < wordCount → column + 1 < wordCount →
          CompilerMessage.parse? text = some ⟨row + 1, column + 1, severity, message⟩) ∧
    (∀ (session : Session) (output : RunOutput), session.phase = .done output →
      ∀ messages, session.Records output messages) ∧
    ∀ (session : Session) (line column : Nat), session.HasWordAt line column →
      session.remap? line column = session.position? line column := by
  refine ⟨fun print rowFits columnFits => ?_,
    fun _ _ phase messages => records_of_done phase messages,
    fun _ _ _ fits => remap?_eq_position? fits⟩
  rw [CompilerMessage.parse?_of_isPrint print, CompilerMessage.successor_of_fits rowFits,
    CompilerMessage.successor_of_fits columnFits]

/-- A finished session whose expanded lines are the fifth and the ninth line of the main unit; in
the second one, four bytes replace one. -/
def shownOutput : RunOutput where
  expanded := "x;\nabcd;\n".toList
  lineMap := ⟨#[⟨1, ⟨"main".toList, 5⟩, []⟩, ⟨2, ⟨"main".toList, 9⟩, [⟨0, 4, 0, 1⟩]⟩]⟩
  diagnostics := []
  units := []

def shownSession : Session :=
  ⟨⟨"main".toList, [], none⟩, .ofEnvironment {} .bare, .done shownOutput⟩

/-- Behind a line that is no message, one with a position inside and blanks around its parts is
recorded at its place, and one about the largest row at the first line. -/
theorem readsAndRecords_shown :
    CompilerMessage.IsPrint 0 1 .warning "a: (1, 2) : ERROR".toList
        "\t( 0,1 ) :WARNING:  a: (1, 2) : ERROR \n".toList ∧
      shownSession.phase = .done shownOutput ∧
      shownSession.record
          ["2 errors".toList, "\t( 0,1 ) :WARNING:  a: (1, 2) : ERROR \n".toList,
            "(18446744073709551615, 0) : ERROR : m".toList] =
        .ok (2, shownSession.withDiagnostics shownOutput
          [{ severity := .warning, kind := .compiler, message := "a: (1, 2) : ERROR".toList
             unit := some "main".toList, line := some 5, column := some 2
             expandedPosition := some (1, 2) },
           { severity := .error, kind := .compiler, message := ['m']
             unit := some "main".toList, line := some 5, column := some 1
             expandedPosition := some (0, 1) }]) ∧
      shownSession.HasWordAt 2 6 ∧
      shownSession.position? 2 6 = some ⟨"main".toList, 9, 3, false⟩ := by
  have blank (text : Text) (all : text.all isBlank = true) :
      ∀ character ∈ text, isBlank character = true := List.all_eq_true.1 all
  have print : CompilerMessage.IsPrint 0 1 .warning "a: (1, 2) : ERROR".toList
      "\t( 0,1 ) :WARNING:  a: (1, 2) : ERROR \n".toList := by
    refine ⟨by decide, by decide, by decide, by decide, by decide, _, .warning, ?_⟩
    exact .part (blank "\t".toList rfl) <| .part (blank " ".toList rfl) <| .part (blank [] rfl) <|
      .part (blank [] rfl) <| .part (blank " ".toList rfl) <| .part (blank " ".toList rfl) <|
      .part (blank [] rfl) <| .part (blank [] rfl) <| .part (blank "  ".toList rfl) <|
      .last (blank " \n".toList rfl)
  have noise : CompilerMessage.parse? "2 errors".toList = none := by decide
  have largest : CompilerMessage.parse? "(18446744073709551615, 0) : ERROR : m".toList =
      some ⟨0, 1, .error, ['m']⟩ := by decide
  have expected := Recorded.skipped noise <|
    Recorded.added (readsAndRecords.1 print (by decide) (by decide)) <|
      Recorded.added largest (Recorded.nil : Recorded shownSession [] [])
  have records := readsAndRecords.2.1 shownSession shownOutput rfl
  rcases (records _).appended with ⟨added, recorded, told⟩
  rw [(records _).determined expected recorded] at told
  have fits : shownSession.HasWordAt 2 6 := by
    intro output entry phase found
    cases phase
    cases found
    exact ⟨by decide, by decide⟩
  exact ⟨print, rfl, told, fits, (readsAndRecords.2.2 shownSession 2 6 fits).symm⟩

end Session

end ScriptPreprocessor
