/-! # The proleptic Gregorian calendar

Years run on without a gap through year 0. A date carries the proof that its month has its day, and
is counted in days from 1 January 1970. -/
namespace ReplayLog

namespace Calendar

/-- Whether the year has a 29 February. -/
def isLeap (year : Int) : Bool := year % 4 == 0 && (year % 100 != 0 || year % 400 == 0)

/-- Number of days of a month from 1 to 12. -/
def monthLength (year : Int) (month : Nat) : Nat :=
  if month == 2 then (if isLeap year then 29 else 28)
  else if month == 4 || month == 6 || month == 9 || month == 11 then 30
  else 31

/-- Number of days before the first of January, counted from 1 January of year 1. -/
def daysBeforeYear (year : Int) : Int :=
  365 * (year - 1) + (year - 1) / 4 - (year - 1) / 100 + (year - 1) / 400

/-- Number of days of a year before the first of a month. -/
def daysBeforeMonth (year : Int) (month : Nat) : Nat :=
  (List.range (month - 1)).foldl (fun days m => days + monthLength year (m + 1)) 0

/-- The days from 1 January of year 1 to 1 January 1970. -/
def epochDay : Int := 719162

/-- The first year of the calendar. -/
def firstYear : Int := -262143

/-- The last year of the calendar. -/
def lastYear : Int := 262142

end Calendar

/-- A date of the calendar. -/
structure Date where
  year : Int
  month : Nat
  day : Nat
  month_pos : 1 ≤ month
  month_le : month ≤ 12
  day_pos : 1 ≤ day
  day_le : day ≤ Calendar.monthLength year month

namespace Date

/-- The date of a year, month and day, if there is one. -/
def ofFields? (year : Int) (month day : Nat) : Option Date :=
  if h : 1 ≤ month ∧ month ≤ 12 ∧ 1 ≤ day ∧ day ≤ Calendar.monthLength year month then
    some ⟨year, month, day, h.1, h.2.1, h.2.2.1, h.2.2.2⟩
  else none

/-- Days from 1 January 1970 to the date. -/
def epochDays (d : Date) : Int :=
  Calendar.daysBeforeYear d.year + Calendar.daysBeforeMonth d.year d.month + d.day - 1 -
    Calendar.epochDay

end Date

/-- A day of the week, counted from Sunday as 0. -/
abbrev Weekday := Fin 7

namespace Weekday

def ofNat (days : Nat) : Weekday := Fin.ofNat 7 days

/-- The weekday of a number of days after 1 January 1970, a Thursday. -/
def ofEpochDays (days : Int) : Weekday := ofNat ((days + 4) % 7).toNat

def names : List String := ["Sun", "Mon", "Tue", "Wed", "Thu", "Fri", "Sat"]

end Weekday

def Calendar.monthNames : List String :=
  ["Jan", "Feb", "Mar", "Apr", "May", "Jun", "Jul", "Aug", "Sep", "Oct", "Nov", "Dec"]

example : (Date.ofFields? 1970 1 1).map Date.epochDays = some 0 := by decide
example : (Date.ofFields? 2000 3 1).map Date.epochDays = some 11017 := by decide
example : (Date.ofFields? 0 2 29).map Date.epochDays = some (-719469) := by decide
example : (Date.ofFields? 1900 2 29).isNone := by decide
example : Weekday.ofEpochDays (-1) = 3 := by decide

end ReplayLog
