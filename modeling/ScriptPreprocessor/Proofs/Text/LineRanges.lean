import Mathlib.Data.List.Forall2
import ScriptPreprocessor.Proofs.Text.ByteColumns
import ScriptPreprocessor.Proofs.Text.Lines
import ScriptPreprocessor.SourceUnit

namespace ScriptPreprocessor

/-!
# Lines as byte ranges

The lines of a text can be found by a loop over its bytes that keeps the column at which the line
under way began.  It yields byte ranges (`Text.lineRanges`), and a line is then cut out of the text
by its range (`Text.lineAt`).  The ranges are those of the lines that the recursion on characters
finds (`Text.lineRanges_eq`): a line feed is an ASCII character, so no range ends within a
character, and cutting never fails.
-/

open Utf8 (encode)

/-! ## The loop -/

/-- The ranges of the lines in bytes that are read from a column on, when the line under way began
at an earlier one. -/
def rangesFrom (start column : Nat) : Bytes → List (Nat × Nat)
  | [] => if start < column then [(start, column)] else []
  | byte :: rest =>
    if isAscii (· == '\n') byte then
      (start, column + 1) :: rangesFrom (column + 1) (column + 1) rest
    else rangesFrom start (column + 1) rest

theorem rangesFrom_of_no_feed {bytes : Bytes}
    (noFeed : ∀ byte ∈ bytes, isAscii (· == '\n') byte = false) (start column : Nat)
    (rest : Bytes) :
    rangesFrom start column (bytes ++ rest) = rangesFrom start (column + bytes.length) rest := by
  induction bytes generalizing column with
  | nil => rfl
  | cons byte bytes ih =>
    rcases List.forall_mem_cons.1 noFeed with ⟨first, later⟩
    rw [List.cons_append, rangesFrom, first, if_neg (by simp), ih later, List.length_cons]
    congr 1
    omega

namespace Text

/-- The byte ranges of the lines of a text. -/
def lineRanges (text : Text) : List (Nat × Nat) :=
  rangesFrom 0 0 (encode text)

/-- The line at a position counted from zero, cut out by its range. -/
def lineAt (text : Text) (index : Nat) : Except ScanFault (Option Text) :=
  match text.lineRanges[index]? with
  | none => .ok none
  | some (start, stop) => (text.cut start stop).map some

example : lineRanges "é\r\n\nx".toList = [(0, 4), (4, 5), (5, 6)] := by decide

/-- The ranges of parts that stand one behind another from a column on. -/
def rangesOf (start : Nat) : List Text → List (Nat × Nat)
  | [] => []
  | part :: parts => (start, start + part.width) :: rangesOf (start + part.width) parts

/-- The loop finds the lines.  The induction keeps what has been read of the line under way. -/
theorem rangesFrom_encode {current : Text} (unbroken : '\n' ∉ current) (start : Nat)
    (rest : Text) :
    rangesFrom start (start + current.width) (encode rest) =
      rangesOf start (lines (current ++ rest)) := by
  induction rest generalizing start current with
  | nil =>
    rw [List.append_nil]
    cases current with
    | nil => simp [encode, rangesFrom, rangesOf]
    | cons character current =>
      have begun : start < start + width (character :: current) := by
        have positive := character.utf8Size_pos
        rw [width_cons]
        omega
      rw [lines_of_unbroken unbroken (List.cons_ne_nil _ _)]
      exact if_pos begun
  | cons character rest ih =>
    rw [Utf8.encode_cons]
    by_cases feed : character = '\n'
    · subst feed
      have ended : (current ++ ['\n']).IsEndedLine := ⟨current, unbroken, rfl⟩
      have first := lines_append_of_ended ended rest
      rw [List.append_assoc, List.singleton_append] at first
      have later := ih List.not_mem_nil (start + (current ++ ['\n']).width)
      rw [List.nil_append, width_nil, Nat.add_zero] at later
      rw [first, rangesOf, ← later, width_append, ← Nat.add_assoc]
      rfl
    · have longer : '\n' ∉ current ++ [character] := by simp [unbroken, Ne.symm feed]
      have later := ih longer start
      rw [List.append_assoc, List.singleton_append] at later
      have noFeed : ∀ byte ∈ Utf8.encodeCharacter character, isAscii (· == '\n') byte = false :=
        fun byte => Utf8.isAscii_of_mem_encodeCharacter (by simpa using feed)
      rw [rangesFrom_of_no_feed noFeed, ← later, Utf8.length_encodeCharacter, width_append,
        width_cons, width_nil, Nat.add_assoc, Nat.add_zero]

theorem lineRanges_eq (text : Text) : text.lineRanges = rangesOf 0 text.lines :=
  rangesFrom_encode List.not_mem_nil 0 text

/-! ## Ranges of parts -/

/-- Ranges that lead from one column to another without a gap, none of them empty. -/
def AreAdjacent (start stop : Nat) : List (Nat × Nat) → Prop
  | [] => start = stop
  | range :: more => range.1 = start ∧ range.1 < range.2 ∧ AreAdjacent range.2 stop more

/-- A range of a text that begins and ends between characters, with the part between them. -/
def HasPart (text : Text) (range : Nat × Nat) (part : Text) : Prop :=
  ∃ front back : Text, text = front ++ (part ++ back) ∧
    range = (front.width, (front ++ part).width)

theorem areAdjacent_rangesOf {parts : List Text} (filled : ∀ part ∈ parts, part ≠ [])
    (start : Nat) : AreAdjacent start (start + width parts.flatten) (rangesOf start parts) := by
  induction parts generalizing start with
  | nil => rfl
  | cons part parts ih =>
    rcases List.forall_mem_cons.1 filled with ⟨given, later⟩
    rcases List.exists_cons_of_ne_nil given with ⟨character, rest, rfl⟩
    have positive := character.utf8Size_pos
    rw [List.flatten_cons, width_append, ← Nat.add_assoc]
    refine ⟨rfl, ?_, ih later _⟩
    simp only [width_cons]
    omega

theorem hasPart_rangesOf (front : Text) (parts : List Text) (back : Text) :
    List.Forall₂ (HasPart (front ++ (parts.flatten ++ back))) (rangesOf front.width parts)
      parts := by
  induction parts generalizing front with
  | nil => exact .nil
  | cons part parts ih =>
    have later := ih (front ++ part)
    rw [width_append, List.append_assoc, ← List.append_assoc part, ← List.flatten_cons] at later
    refine .cons ⟨front, parts.flatten ++ back, ?_, ?_⟩ later
    · rw [List.flatten_cons, List.append_assoc]
    · rw [width_append]

theorem HasPart.cut_eq {text part : Text} {range : Nat × Nat} (has : text.HasPart range part) :
    text.cut range.1 range.2 = .ok part := by
  rcases has with ⟨front, back, rfl, rfl⟩
  exact cut_append front part back

/-! ## Lines -/

theorem hasPart_lineRanges (text : Text) :
    List.Forall₂ text.HasPart text.lineRanges text.lines := by
  have parts := hasPart_rangesOf [] text.lines []
  rwa [List.nil_append, List.append_nil, flatten_lines, width_nil, ← lineRanges_eq] at parts

/-- Every line is cut out by its range. -/
theorem lineAt_eq (text : Text) (index : Nat) : text.lineAt index = .ok text.lines[index]? := by
  have parts := hasPart_lineRanges text
  rw [lineAt]
  cases found : text.lineRanges[index]? with
  | none =>
    have behind := List.getElem?_eq_none_iff.1 found
    rw [parts.length_eq] at behind
    rw [List.getElem?_eq_none behind]
  | some range =>
    rcases List.getElem?_eq_some_iff.1 found with ⟨inside, rfl⟩
    have inLines : index < text.lines.length := parts.length_eq ▸ inside
    have there : text.HasPart text.lineRanges[index] text.lines[index] :=
      parts.get inside inLines
    simp only [there.cut_eq, List.getElem?_eq_getElem inLines]
    rfl

/-- The ranges of its lines cut a text behind its line feeds. -/
structure IsCutIntoLines (text : Text) : Prop where
  adjacent : AreAdjacent 0 text.width text.lineRanges
  parts : List.Forall₂ text.HasPart text.lineRanges text.lines
  /-- In front of the last line every line ends in its only line feed. -/
  ended : ∀ line ∈ text.lines.dropLast, line.IsEndedLine
  /-- The last line does so too, or it has no line feed. -/
  last : ∀ line, text.lines.getLast? = some line → line.IsEndedLine ∨ '\n' ∉ line
  /-- The last line has its line feed exactly when the text ends in one. -/
  final : ∀ line, text.lines.getLast? = some line → ('\n' ∈ line ↔ text.getLast? = some '\n')

theorem isCutIntoLines (text : Text) : text.IsCutIntoLines := by
  have adjacent : AreAdjacent 0 text.width text.lineRanges := by
    have filled : ∀ line ∈ text.lines, line ≠ [] := fun line member =>
      (isOneLine_of_mem_lines member).1
    have tiled := areAdjacent_rangesOf filled 0
    rwa [flatten_lines, Nat.zero_add, ← lineRanges_eq] at tiled
  rcases lines_eq_ended_append text with
    ⟨ended, allEnded, ⟨shape, ends⟩ | ⟨last, _, unbroken, shape, noFeed⟩⟩
  · have isEnded {line : Text} (found : text.lines.getLast? = some line) : line.IsEndedLine :=
      allEnded line (shape ▸ List.mem_of_getLast? found)
    refine ⟨adjacent, hasPart_lineRanges text, fun line member =>
      allEnded line (shape ▸ List.mem_of_mem_dropLast member), fun line found =>
      Or.inl (isEnded found), fun line found => ?_⟩
    rcases isEnded found with ⟨body, _, rfl⟩
    have filled : text ≠ [] := fun none => by simp [none] at found
    simp [ends.resolve_left filled]
  · have isLast {line : Text} (found : text.lines.getLast? = some line) : line = last := by
      rw [shape, List.getLast?_concat] at found
      exact (Option.some.inj found).symm
    refine ⟨adjacent, hasPart_lineRanges text, fun line member => ?_, fun line found => ?_,
      fun line found => ?_⟩
    · rw [shape, List.dropLast_concat] at member
      exact allEnded line member
    · rw [isLast found]
      exact Or.inr unbroken
    · rw [isLast found]
      exact iff_of_false unbroken noFeed

end Text

/-! ## Units -/

namespace SourceUnit

/-- A unit in which the last line has been ended, and nothing else has changed. -/
structure EndsLastLine (unit ended : SourceUnit) : Prop where
  name : ended.name = unit.name
  location : ended.location = unit.location
  lineCount : ended.lineCount = unit.lineCount
  earlier : ∀ index, index + 1 < unit.lineCount → ended.line? index = unit.line? index
  last : ended.lines.getLast? = unit.lines.getLast?.map fun line =>
    if '\n' ∈ line then line else line ++ ['\n']

theorem endsLastLine_withFinalNewline (unit : SourceUnit) :
    unit.EndsLastLine unit.withFinalNewline := by
  rcases Text.lines_withFinalNewline unit.text with same | ⟨before, last, unbroken, shape, ended⟩
  · have unchanged : unit.withFinalNewline.lines = unit.lines := same
    refine ⟨rfl, rfl, congrArg List.length same, fun index _ => congrArg (·[index]?) same, ?_⟩
    rw [unchanged]
    cases found : unit.lines.getLast? with
    | none => rfl
    | some line =>
      have text := congrArg List.flatten same
      rw [Text.flatten_lines, Text.flatten_lines] at text
      have ends := Text.withFinalNewline_ends unit.text
      rw [text] at ends
      have filled : unit.text ≠ [] := fun none => by simp [lines, none] at found
      have feed := (unit.text.isCutIntoLines.final line found).2 (ends.resolve_left filled)
      rw [Option.map_some, if_pos feed]
  · have lines : unit.lines = before ++ [last] := shape
    have endedLines : unit.withFinalNewline.lines = before ++ [last ++ ['\n']] := ended
    refine ⟨rfl, rfl, ?_, fun index inside => ?_, ?_⟩
    · simp [lineCount, lines, endedLines]
    · have earlier : index < before.length := by
        rw [lineCount, lines, List.length_append, List.length_singleton] at inside
        omega
      rw [line?, line?, lines, endedLines, List.getElem?_append_left earlier,
        List.getElem?_append_left earlier]
    · rw [lines, endedLines, List.getLast?_concat, List.getLast?_concat, Option.map_some,
        if_neg unbroken]

/-- The lines of a unit are cut out of its text by adjacent ranges between characters, each ends in
its only line feed unless the text lacks the last one, and together they are the text.  Ending the
last line changes no other line. -/
theorem lines_cut_text (unit : SourceUnit) :
    unit.text.IsCutIntoLines ∧ (∀ index, unit.text.lineAt index = .ok (unit.line? index)) ∧
      unit.lines.flatten = unit.text ∧ unit.EndsLastLine unit.withFinalNewline :=
  ⟨unit.text.isCutIntoLines, unit.text.lineAt_eq, Text.flatten_lines unit.text,
    unit.endsLastLine_withFinalNewline⟩

end SourceUnit

end ScriptPreprocessor
