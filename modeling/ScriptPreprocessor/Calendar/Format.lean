import ScriptPreprocessor.Calendar.Instant
import ScriptPreprocessor.Text.Basic

namespace ScriptPreprocessor

/-!
# Date and time formats

A format is a text with specifiers such as `%Y`.  It is read once into a list of items, and only
the items are rendered, so rendering cannot fail; a text with an unknown specifier, or with one
that asks for a time zone, has no items.  Between the percent sign and the letter of a number,
`-`, `0` or `_` choose no padding, zeros or blanks.
-/

inductive Padding where
  | nothing
  | zeros
  | blanks
  deriving DecidableEq, Repr

inductive NumericField where
  | year
  | century
  | yearOfCentury
  | isoYear
  | isoYearOfCentury
  | quarter
  | month
  | day
  | weekFromSunday
  | weekFromMonday
  | isoWeek
  | weekdayFromSunday
  | weekdayFromMonday
  | dayOfYear
  | hour
  | hourOfTwelve
  | minute
  | second
  | nanosecond
  | timestamp
  deriving DecidableEq, Repr

inductive NameField where
  | shortMonth
  | longMonth
  | shortWeekday
  | longWeekday
  | lowerHalfDay
  | upperHalfDay
  deriving DecidableEq, Repr

inductive FormatItem where
  | literal (text : Text)
  | number (field : NumericField) (padding : Padding)
  | name (field : NameField)
  deriving DecidableEq, Repr

/-- A date and time format, taken apart.  Rendering works on the items alone, so whatever is wrong
with a format comes to light when it is read, before a run has begun. -/
abbrev DateFormat := List FormatItem

namespace DateFormat

open FormatItem NumericField NameField Padding

/-! ## Reading -/

def padded (field : NumericField) : FormatItem := number field zeros

def clockItems : DateFormat :=
  [padded hour, literal [':'], padded minute, literal [':'], padded second]

/-- The items of a specifier that is a letter.  Some letters are short for several items, and the
letters for time zones are no specifiers, because an instant has none. -/
def ofSpecifier? (letter : Char) : Option DateFormat :=
  match letter with
  | 'A' => some [name longWeekday]
  | 'B' => some [name longMonth]
  | 'C' => some [padded century]
  | 'D' | 'x' =>
    some [padded month, literal ['/'], padded day, literal ['/'], padded yearOfCentury]
  | 'F' => some [padded year, literal ['-'], padded month, literal ['-'], padded day]
  | 'G' => some [padded isoYear]
  | 'H' => some [padded hour]
  | 'I' => some [padded hourOfTwelve]
  | 'M' => some [padded minute]
  | 'P' => some [name lowerHalfDay]
  | 'R' => some [padded hour, literal [':'], padded minute]
  | 'S' => some [padded second]
  | 'T' | 'X' => some clockItems
  | 'U' => some [padded weekFromSunday]
  | 'V' => some [padded isoWeek]
  | 'W' => some [padded weekFromMonday]
  | 'Y' => some [padded year]
  | 'a' => some [name shortWeekday]
  | 'b' | 'h' => some [name shortMonth]
  | 'c' =>
    some ([name shortWeekday, literal [' '], name shortMonth, literal [' '], number day blanks,
      literal [' ']] ++ clockItems ++ [literal [' '], padded year])
  | 'd' => some [padded day]
  | 'e' => some [number day blanks]
  | 'f' => some [padded nanosecond]
  | 'g' => some [padded isoYearOfCentury]
  | 'j' => some [padded dayOfYear]
  | 'k' => some [number hour blanks]
  | 'l' => some [number hourOfTwelve blanks]
  | 'm' => some [padded month]
  | 'n' => some [literal ['\n']]
  | 'p' => some [name upperHalfDay]
  | 'q' => some [number quarter nothing]
  | 'r' =>
    some [padded hourOfTwelve, literal [':'], padded minute, literal [':'], padded second,
      literal [' '], name upperHalfDay]
  | 's' => some [number timestamp nothing]
  | 't' => some [literal ['\t']]
  | 'u' => some [number weekdayFromMonday nothing]
  | 'v' =>
    some [number day blanks, literal ['-'], name shortMonth, literal ['-'], padded year]
  | 'w' => some [number weekdayFromSunday nothing]
  | 'y' => some [padded yearOfCentury]
  | '%' => some [literal ['%']]
  | _ => none

/-- The item of a specifier whose padding is chosen.  Only a single number can be padded: for a
name, or for a letter that is short for several items, a padding makes the format unreadable. -/
def ofPadded? (padding : Padding) (letter : Char) : Option DateFormat :=
  match ofSpecifier? letter with
  | some [number field _] => some [number field padding]
  | _ => none

/-- The padding that a character behind the percent sign chooses. -/
def paddingOf? (character : Char) : Option Padding :=
  match character with
  | '-' => some nothing
  | '0' => some zeros
  | '_' => some blanks
  | _ => none

/-- Reads a format.  The clock has whole seconds, so a fraction of a second is zeros when it has a
fixed number of places, and nothing when it has as many as needed. -/
def parse? : Text → Option DateFormat
  | [] => some []
  | '%' :: '.' :: 'f' :: rest => parse? rest
  | '%' :: '.' :: '3' :: 'f' :: rest => (parse? rest).map (literal ".000".toList :: ·)
  | '%' :: '.' :: '6' :: 'f' :: rest => (parse? rest).map (literal ".000000".toList :: ·)
  | '%' :: '.' :: '9' :: 'f' :: rest => (parse? rest).map (literal ".000000000".toList :: ·)
  | '%' :: '3' :: 'f' :: rest => (parse? rest).map (literal "000".toList :: ·)
  | '%' :: '6' :: 'f' :: rest => (parse? rest).map (literal "000000".toList :: ·)
  | '%' :: '9' :: 'f' :: rest => (parse? rest).map (literal "000000000".toList :: ·)
  | '%' :: letter :: next :: rest =>
    match paddingOf? letter with
    | some padding => do
      let items ← ofPadded? padding next
      return items ++ (← parse? rest)
    | none => do
      let items ← ofSpecifier? letter
      return items ++ (← parse? (next :: rest))
  | ['%', letter] => ofSpecifier? letter
  | ['%'] => none
  | character :: rest => (parse? rest).map (literal [character] :: ·)

/-! ## Rendering -/

def monthNames : List Text :=
  ["January".toList, "February".toList, "March".toList, "April".toList, "May".toList,
    "June".toList, "July".toList, "August".toList, "September".toList, "October".toList,
    "November".toList, "December".toList]

def weekdayNames : List Text :=
  ["Monday".toList, "Tuesday".toList, "Wednesday".toList, "Thursday".toList, "Friday".toList,
    "Saturday".toList, "Sunday".toList]

def padLeft (width : Nat) (filler : Char) (text : Text) : Text :=
  List.replicate (width - text.length) filler ++ text

/-- A number brought to a width.  Zeros stand behind a sign and blanks in front of it; the sign
counts as one of the characters either way. -/
def renderNumber (width : Nat) (padding : Padding) (showPlus : Bool) (value : Int) : Text :=
  let sign : Text := if value < 0 then ['-'] else if showPlus then ['+'] else []
  let digits := Text.ofNat value.natAbs
  match padding with
  | .nothing => sign ++ digits
  | .zeros => sign ++ padLeft (width - sign.length) '0' digits
  | .blanks => padLeft width ' ' (sign ++ digits)

/-- A year has four digits; one that does not fit into them shows its sign. -/
def renderYear (padding : Padding) (year : Int) : Text :=
  if 1000 ≤ year ∧ year ≤ 9999 then Text.ofInt year
  else if 0 ≤ year ∧ year < 10000 then renderNumber 4 padding false year
  else renderNumber 5 padding true year

def renderField (instant : Instant) (field : NumericField) (padding : Padding) : Text :=
  let two (value : Nat) : Text := renderNumber 2 padding false value
  match field with
  | .year => renderYear padding instant.year
  | .century => two (instant.year / 100)
  | .yearOfCentury => two (instant.year % 100)
  | .isoYear => renderYear padding instant.isoWeek.1
  | .isoYearOfCentury => two (instant.isoWeek.1 % 100).toNat
  | .quarter => Text.ofNat ((instant.month + 2) / 3)
  | .month => two instant.month
  | .day => two instant.day
  | .weekFromSunday => two (instant.weekFrom 6)
  | .weekFromMonday => two (instant.weekFrom 0)
  | .isoWeek => two instant.isoWeek.2
  | .weekdayFromSunday => Text.ofNat ((instant.weekday + 1) % 7)
  | .weekdayFromMonday => Text.ofNat (instant.weekday + 1)
  | .dayOfYear => renderNumber 3 padding false instant.dayOfYear
  | .hour => two instant.hour
  | .hourOfTwelve => two instant.hourOfTwelve
  | .minute => two instant.minute
  | .second => two instant.second
  | .nanosecond => renderNumber 9 padding false 0
  | .timestamp => renderNumber 9 padding false instant.timestamp

/-- A name at an instant.  The short names are the first three letters of the long ones. -/
def renderName (instant : Instant) (field : NameField) : Text :=
  let month := (monthNames[instant.month - 1]?).getD []
  let weekday := (weekdayNames[instant.weekday]?).getD []
  match field with
  | .shortMonth => month.take 3
  | .longMonth => month
  | .shortWeekday => weekday.take 3
  | .longWeekday => weekday
  | .lowerHalfDay => if instant.hour < 12 then "am".toList else "pm".toList
  | .upperHalfDay => if instant.hour < 12 then "AM".toList else "PM".toList

def renderItem (instant : Instant) : FormatItem → Text
  | .literal text => text
  | .number field padding => renderField instant field padding
  | .name field => renderName instant field

def render (format : DateFormat) (instant : Instant) : Text :=
  format.flatMap (renderItem instant)

end DateFormat

end ScriptPreprocessor
