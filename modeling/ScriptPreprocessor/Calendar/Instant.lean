namespace ScriptPreprocessor

/-!
# Instants of the calendar

The built-in macros `__DATE__` and `__TIME__` show one instant of the Gregorian calendar, extended
backwards to the year zero and without a time zone.  Everything that a format may ask for is
computed from the six numbers of the instant.
-/

/-- A day and a time of day.  Months and days count from one. -/
structure Instant where
  year : Nat
  month : Nat
  day : Nat
  hour : Nat
  minute : Nat
  second : Nat
  deriving DecidableEq, Repr

namespace Calendar

def isLeapYear (year : Nat) : Bool :=
  year % 4 == 0 && (year % 100 != 0 || year % 400 == 0)

def daysInMonth (year month : Nat) : Nat :=
  if month == 2 then (if isLeapYear year then 29 else 28)
  else if month == 4 || month == 6 || month == 9 || month == 11 then 30
  else 31

/-- The leap years from the year zero up to, but not including, a year.  The year zero is one
itself, hence the roundings up. -/
def leapYearsBefore (year : Nat) : Nat :=
  (year + 3) / 4 - (year + 99) / 100 + (year + 399) / 400

def daysBeforeYear (year : Nat) : Nat :=
  365 * year + leapYearsBefore year

/-- The weekday of the first day of a year, Monday being zero.  The year zero begins on a
Saturday. -/
def firstWeekday (year : Nat) : Nat :=
  (daysBeforeYear year + 5) % 7

/-- The number of weeks of a year when weeks begin on Monday and belong to the year that holds
their Thursday. -/
def isoWeeksInYear (year : Nat) : Nat :=
  if firstWeekday year == 3 || (firstWeekday year == 2 && isLeapYear year) then 53 else 52

def daysBeforeEpoch : Nat := 719528

end Calendar

namespace Instant

open Calendar

/-- The number of the day in its year, counted from one. -/
def dayOfYear (instant : Instant) : Nat :=
  (List.range (instant.month - 1)).foldl
    (fun days index => days + daysInMonth instant.year (index + 1)) instant.day

def dayNumber (instant : Instant) : Nat :=
  daysBeforeYear instant.year + instant.dayOfYear - 1

/-- The weekday, Monday being zero. -/
def weekday (instant : Instant) : Nat :=
  (instant.dayNumber + 5) % 7

/-- The number of the week in its year, when weeks begin on the given weekday and the days before
the first whole week belong to week zero. -/
def weekFrom (instant : Instant) (firstDay : Nat) : Nat :=
  (instant.dayOfYear + 6 - (instant.weekday + 7 - firstDay) % 7) / 7

/-- The year and the week to which a day belongs when weeks begin on Monday and belong to the year
that holds their Thursday.  The first days of a year can belong to the last week of the year before,
and the last days to the first week of the next one. -/
def isoWeek (instant : Instant) : Int × Nat :=
  let week := (instant.dayOfYear + 9 - instant.weekday) / 7
  if week == 0 then
    match instant.year with
    | 0 => (-1, 52)
    | previous + 1 => (previous, isoWeeksInYear previous)
  else if isoWeeksInYear instant.year < week then (instant.year + 1, 1)
  else (instant.year, week)

def hourOfTwelve (instant : Instant) : Nat :=
  if instant.hour % 12 == 0 then 12 else instant.hour % 12

def timestamp (instant : Instant) : Int :=
  ((instant.dayNumber : Int) - daysBeforeEpoch) * 86400 +
    (instant.hour * 3600 + instant.minute * 60 + instant.second : Nat)

end Instant

end ScriptPreprocessor
