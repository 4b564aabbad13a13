/-!
# Dates of the proleptic Gregorian calendar

Days are counted from 1970-01-01, which is day 0, and months from January of year 0, which
is month 0; both counts run through negative numbers without a break, and there is a year 0.
The calendar is unbounded as arithmetic. `withinCalendar?` marks the days that can be
represented: -262143-01-01 up to 262142-12-31.
-/

namespace Blackout

/-- Year, month (1 to 12) and day of month (from 1). -/
structure Date where
  year : Int
  month : Nat
  day : Nat
deriving DecidableEq

inductive Weekday where
  | monday
  | tuesday
  | wednesday
  | thursday
  | friday
  | saturday
  | sunday
deriving DecidableEq

namespace Calendar

/-! ### Years and months -/

/-- Leap years: every fourth year, except centuries that 400 does not divide. -/
def isLeap (year : Int) : Bool :=
  decide (year % 4 = 0 ∧ (year % 100 ≠ 0 ∨ year % 400 = 0))

/-- Days of month 1 to 12 of a year. -/
def monthLength (year : Int) (month : Nat) : Nat :=
  match month with
  | 2 => if isLeap year then 29 else 28
  | 4 | 6 | 9 | 11 => 30
  | _ => 31

/-- Days of a common year before the first of month 1 to 12. -/
def commonDaysBefore : Nat → Nat
  | 2 => 31
  | 3 => 59
  | 4 => 90
  | 5 => 120
  | 6 => 151
  | 7 => 181
  | 8 => 212
  | 9 => 243
  | 10 => 273
  | 11 => 304
  | 12 => 334
  | _ => 0

/-- Days of a year before the first of month 1 to 12. -/
def daysBefore (year : Int) (month : Nat) : Nat :=
  commonDaysBefore month + if 3 ≤ month ∧ isLeap year then 1 else 0

/-- Day number of January 1. The three quotients count the leap years before `year`. -/
def yearStart (year : Int) : Int :=
  365 * year + (year + 3) / 4 - (year + 99) / 100 + (year + 399) / 400 - 719528

/-- Day number of the first day of a month, months counted from January of year 0. -/
def monthStart (index : Int) : Int :=
  let year := index / 12
  yearStart year + daysBefore year ((index % 12).toNat + 1)

/-- Month index of a year and a month 1 to 12. -/
def monthIndex (year : Int) (month : Nat) : Int := 12 * year + (month : Int) - 1

/-! ### Day numbers -/

/-- Year that holds a day. The average length of a year gives it up to one year. -/
def yearOf (day : Int) : Int :=
  let guess := 400 * (day + 719528) / 146097
  if day < yearStart guess then guess - 1
  else if yearStart (guess + 1) ≤ day then guess + 1
  else guess

/-- Month, 1 to 12, that holds the day `k` days after January 1. -/
def monthOf (year : Int) (k : Nat) : Nat :=
  1 + (List.range' 2 11).countP fun month => daysBefore year month ≤ k

/-- First representable day: -262143-01-01. -/
def firstDay : Int := yearStart (-262143)

/-- Last representable day: 262142-12-31. -/
def lastDay : Int := yearStart 262143 - 1

def withinCalendar? (day : Int) : Option Int :=
  if firstDay ≤ day ∧ day ≤ lastDay then some day else none

/-- Last day of the month with this index. It is found from the first day of the following
month, so both have to be representable. -/
def monthEnd? (index : Int) : Option Int := do
  let following ← withinCalendar? (monthStart (index + 1))
  withinCalendar? (following - 1)

/-- Day `day` (from 1) of the month with this index, or the month's last day if the month is
shorter. -/
def clampedDay? (index : Int) (day : Nat) : Option Int := do
  let last ← monthEnd? index
  withinCalendar? (min (monthStart index + day - 1) last)

end Calendar

/-! ### Dates and day numbers -/

open Calendar

def Date.dayNumber (d : Date) : Int :=
  yearStart d.year + daysBefore d.year d.month + d.day - 1

def Date.ofDayNumber (day : Int) : Date :=
  let year := yearOf day
  let k := (day - yearStart year).toNat
  let month := monthOf year k
  ⟨year, month, k - daysBefore year month + 1⟩

def Date.isValid (d : Date) : Bool :=
  decide (1 ≤ d.month ∧ d.month ≤ 12 ∧ 1 ≤ d.day ∧ d.day ≤ monthLength d.year d.month)

def Date.dayNumber? (d : Date) : Option Int :=
  if d.isValid then withinCalendar? d.dayNumber else none

def Date.monthIndex (d : Date) : Int := Calendar.monthIndex d.year d.month

namespace Weekday

def number : Weekday → Nat
  | monday => 0
  | tuesday => 1
  | wednesday => 2
  | thursday => 3
  | friday => 4
  | saturday => 5
  | sunday => 6

/-- Weekday a number of days after Monday, counted around the week. -/
def ofNumber (n : Nat) : Weekday :=
  match n % 7 with
  | 0 => monday
  | 1 => tuesday
  | 2 => wednesday
  | 3 => thursday
  | 4 => friday
  | 5 => saturday
  | _ => sunday

/-- Weekday of a day number; day 0 was a Thursday. -/
def ofDayNumber (day : Int) : Weekday := ofNumber ((day + 3) % 7).toNat

def abbreviation : Weekday → String
  | monday => "Mon"
  | tuesday => "Tue"
  | wednesday => "Wed"
  | thursday => "Thu"
  | friday => "Fri"
  | saturday => "Sat"
  | sunday => "Sun"

end Weekday

end Blackout
