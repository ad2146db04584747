import FieldSearch.Text.Basic

/-!
# Moments

A date of the Gregorian calendar from year 1 to 9999 and a time of day, with or without an offset
from universal time. Moments are compared by the microseconds that pass between them.
-/

namespace FieldSearch

def isLeapYear (year : Nat) : Bool := year % 4 = 0 && (year % 100 ≠ 0 || year % 400 = 0)

def monthLengths (year : Nat) : List Nat :=
  [31, if isLeapYear year then 29 else 28, 31, 30, 31, 30, 31, 31, 30, 31, 30, 31]

def daysInYear (year : Nat) : Nat := if isLeapYear year then 366 else 365

/-- The days before the first day of a year, counted from year 1. -/
def daysBeforeYear (year : Nat) : Nat :=
  let y := year - 1
  y * 365 + y / 4 - y / 100 + y / 400

structure Date where
  year : Nat
  month : Nat
  day : Nat
deriving DecidableEq

namespace Date

def isValid (d : Date) : Bool :=
  1 ≤ d.year && d.year ≤ 9999 && 1 ≤ d.month && 1 ≤ d.day
    && ((monthLengths d.year)[d.month - 1]?).any (d.day ≤ ·)

/-- The number of a day, where the first day of year 1 is 1. -/
def number (d : Date) : Nat :=
  daysBeforeYear d.year + ((monthLengths d.year).take (d.month - 1)).foldr (· + ·) 0 + d.day

/-- The date of the `n`-th day of a year, counted through months of the given lengths. -/
def inMonths (year month n : Nat) : List Nat → Date
  | [] => ⟨year, month, n⟩
  | length :: rest =>
    if n ≤ length then ⟨year, month, n⟩ else inMonths year (month + 1) (n - length) rest

/-- The date of a day of a year, which may lie a little outside of that year. -/
def ofDayOfYear (year : Nat) (day : Int) : Date :=
  if day < 1 then inMonths (year - 1) 1 (day + daysInYear (year - 1)).toNat (monthLengths (year - 1))
  else if daysInYear year < day then
    inMonths (year + 1) 1 (day - daysInYear year).toNat (monthLengths (year + 1))
  else inMonths year 1 day.toNat (monthLengths year)

end Date

/-- The weekday on which a year begins; Monday is 0. -/
def firstWeekday (year : Nat) : Nat := daysBeforeYear year % 7

/-- The number of weeks of a year in the week calendar. -/
def weeksInYear (year : Nat) : Nat :=
  if firstWeekday year = 3 || (firstWeekday year = 2 && isLeapYear year) then 53 else 52

/-- The date of a day of a week, if the year has that week; weeks belong to the year of their
Thursday. -/
def Date.ofWeek? (year week day : Nat) : Option Date :=
  if year = 0 || week = 0 || weeksInYear year < week || day = 0 || 7 < day then none
  else
    let first : Int := firstWeekday year
    let monday : Int := if first ≤ 3 then 1 - first else 8 - first
    some (Date.ofDayOfYear year (monday + (week - 1) * 7 + (day - 1)))

structure TimeOfDay where
  hour : Nat
  minute : Nat
  second : Nat
  microsecond : Nat
deriving DecidableEq

namespace TimeOfDay

def midnight : TimeOfDay := ⟨0, 0, 0, 0⟩

def isValid (t : TimeOfDay) : Bool :=
  t.hour < 24 && t.minute < 60 && t.second < 60 && t.microsecond < 1000000

def microseconds (t : TimeOfDay) : Nat :=
  ((t.hour * 60 + t.minute) * 60 + t.second) * 1000000 + t.microsecond

end TimeOfDay

/-- A date and a time of day; the offset from universal time is in microseconds. -/
structure Moment where
  date : Date
  time : TimeOfDay
  offset : Option Int
deriving DecidableEq

namespace Moment

def dayLength : Int := 86400 * 1000000

/-- The microseconds of universal time; a moment without an offset is taken to be universal. -/
def instant (m : Moment) : Int :=
  m.date.number * dayLength + m.time.microseconds - m.offset.getD 0

end Moment

end FieldSearch
