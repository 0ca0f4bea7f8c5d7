import ScriptPreprocessor.Text.Basic

namespace ScriptPreprocessor

/-!
# Line maps

A line map records, for every line of the expanded text, the line of the unit it came from and the
macro invocations that were replaced on it.  Entries are appended in the order of the expanded
lines and number themselves from one.  Origins need not increase, because includes splice other
units in between.

Columns and lengths count bytes from zero.  A column of a line is found again by exact arithmetic
(`LineMap.position?`).  A position that someone else names may be any word of 64 bits, and then the
arithmetic wraps around as that of the words does (`LineMap.remap?`).  The two differ only from
column `2 ^ 63` on.
-/

/-- The line of a unit, counted from one, that an expanded line came from. -/
structure Origin where
  unit : Text
  line : Nat
  deriving DecidableEq, Repr

/-- One replaced macro invocation: where its replacement stands in the expanded line, and where
the invocation stood in the source line. -/
structure MacroSpan where
  expandedStart : Nat
  expandedEnd : Nat
  sourceColumn : Nat
  sourceLength : Nat
  deriving DecidableEq, Repr

/-- How many bytes longer the replacement is than the invocation. -/
def MacroSpan.growth (span : MacroSpan) : Int :=
  (span.expandedEnd : Int) - span.expandedStart - span.sourceLength

/-- What is recorded about one expanded line.  The spans are in the order in which they stand on the
line, and do not overlap. -/
structure LineEntry where
  expandedLine : Nat
  origin : Origin
  spans : List MacroSpan
  deriving DecidableEq, Repr

/-- The source column of an expanded column, when the replacements before it have shifted it by
some bytes and the given spans remain.  A column inside a replacement goes to the start of its
invocation; a column behind a replacement is moved back by its growth. -/
def MacroSpan.sourceColumnFrom (column : Nat) (shift : Int) : List MacroSpan → Nat
  | [] => ((column : Int) - shift).toNat
  | span :: spans =>
    if column < span.expandedStart then
      ((column : Int) - shift).toNat
    else if column < span.expandedEnd then
      span.sourceColumn
    else
      sourceColumnFrom column (shift + span.growth) spans

/-- The column of the source line that a column of the expanded line stands for. -/
def LineEntry.sourceColumnOf (entry : LineEntry) (column : Nat) : Nat :=
  MacroSpan.sourceColumnFrom column 0 entry.spans

/-! ## Words of 64 bits -/

/-- How many words there are. -/
def wordCount : Nat := 0x10000000000000000

/-- A column is an unsigned word, but a shift is subtracted from it as from a signed one.  So a
column in the upper half counts as negative, and what is negative in the end becomes zero. -/
def wrappedColumn (column : Nat) (shift : Int) : Nat :=
  (((column : Int) - shift).bmod wordCount).toNat

/-- The source column of an expanded column, as `sourceColumnFrom` has it, in words. -/
def MacroSpan.wrappedColumnFrom (column : Nat) (shift : Int) : List MacroSpan → Nat
  | [] => wrappedColumn column shift
  | span :: spans =>
    if column < span.expandedStart then
      wrappedColumn column shift
    else if column < span.expandedEnd then
      span.sourceColumn
    else
      wrappedColumnFrom column (shift + span.growth) spans

def LineEntry.wrappedColumnOf (entry : LineEntry) (column : Nat) : Nat :=
  MacroSpan.wrappedColumnFrom column 0 entry.spans

/-! ## Maps -/

/-- The entries of the expanded lines, in order. -/
structure LineMap where
  entries : Array LineEntry := #[]
  deriving DecidableEq, Repr

namespace LineMap

def size (map : LineMap) : Nat :=
  map.entries.size

/-- The map with one more line.  The entry numbers itself by the size of the map, so no caller can
leave a gap. -/
def push (map : LineMap) (origin : Origin) (spans : List MacroSpan) : LineMap :=
  ⟨map.entries.push ⟨map.size + 1, origin, spans⟩⟩

@[simp] theorem size_push (map : LineMap) (origin : Origin) (spans : List MacroSpan) :
    (map.push origin spans).size = map.size + 1 := by
  simp [push, size]

/-- The entry for an expanded line: the last one whose number is not greater, and the first one
for a line before all of them.  Only an empty map has no entry. -/
def entry? (map : LineMap) (line : Nat) : Option LineEntry :=
  match (map.entries.toList.filter (fun entry => entry.expandedLine ≤ line)).getLast? with
  | some entry => some entry
  | none => map.entries.toList.head?

def origin? (map : LineMap) (line : Nat) : Option Origin :=
  (map.entry? line).map LineEntry.origin

end LineMap

/-- A position in a unit, counted from one, and whether the unit is an included one.  A unit is an
included one when it is not called like the main unit. -/
structure Position where
  unit : Text
  line : Nat
  column : Nat
  inInclude : Bool
  deriving DecidableEq, Repr

/-- The source position of a line and column of the expanded text.  The column is carried over
only when the map holds exactly that line. -/
def LineMap.position? (map : LineMap) (mainUnit : Text) (line column : Nat) : Option Position :=
  (map.entry? line).map fun entry =>
    { unit := entry.origin.unit
      line := entry.origin.line
      column := if entry.expandedLine = line then entry.sourceColumnOf (column - 1) + 1 else 1
      inInclude := entry.origin.unit != mainUnit }

/-- The source position of any words as line and column of the expanded text. -/
def LineMap.remap? (map : LineMap) (mainUnit : Text) (line column : Nat) : Option Position :=
  (map.entry? line).map fun entry =>
    { unit := entry.origin.unit
      line := entry.origin.line
      column := if entry.expandedLine = line then entry.wrappedColumnOf (column - 1) + 1 else 1
      inInclude := entry.origin.unit != mainUnit }

end ScriptPreprocessor
