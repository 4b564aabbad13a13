import Blackout.Point

/-!
# Recurring schedules

The recurring schedule of a window as wall-clock readings. An occurrence holds its start and
not its end. A window whose start comes after its end runs into the next day, week, month or
year. A day that a month lacks falls on the month's last day, which can leave an occurrence
empty.

`contains?` and `nextEnd?` look at a few occurrences near a reading only; they answer `none`
where one of those is not representable.
-/

namespace Blackout

open Calendar

/-- Month, 1 to 12, and day of a year. -/
structure MonthDay where
  month : Nat
  day : Nat
deriving DecidableEq

structure Occurrence where
  start : WallClock
  stop : WallClock
deriving DecidableEq

inductive Schedule where
  | daily (start stop : TimeOfDay)
  | weekly (startDay : Weekday) (start : TimeOfDay) (stopDay : Weekday) (stop : TimeOfDay)
  | monthly (startDay : Nat) (start : TimeOfDay) (stopDay : Nat) (stop : TimeOfDay)
  | annual (startDate : MonthDay) (start : TimeOfDay) (stopDate : MonthDay) (stop : TimeOfDay)
deriving DecidableEq

def MonthDay.after (a b : MonthDay) : Bool :=
  decide (b.month < a.month ∨ (a.month = b.month ∧ b.day < a.day))

namespace Occurrence

def holds (o : Occurrence) (t : WallClock) : Bool := decide (o.start ≤ t ∧ t < o.stop)

end Occurrence

namespace Schedule

def kind : Schedule → Kind
  | daily .. => .daily
  | weekly .. => .weekly
  | monthly .. => .monthly
  | annual .. => .annual

/-! ### Occurrences -/

/-- Most recent day with a weekday, the day itself included. -/
def previousOrSame (day : Int) (weekday : Weekday) : Int :=
  day - ((Weekday.ofDayNumber day).number - (weekday.number : Int)) % 7

def weeklyLength (startDay : Weekday) (start : TimeOfDay) (stopDay : Weekday) (stop : TimeOfDay) :
    Int :=
  if startDay = stopDay then if start ≤ stop then 0 else 1
  else ((stopDay.number : Int) - startDay.number) % 7

/-- Weekly occurrence that started on the most recent start day up to `day`. -/
def weeklyOccurrence? (startDay : Weekday) (start : TimeOfDay) (stopDay : Weekday)
    (stop : TimeOfDay) (day : Int) : Option Occurrence := do
  let anchor ← withinCalendar? (previousOrSame day startDay)
  let last ← withinCalendar? (anchor + weeklyLength startDay start stopDay stop)
  return ⟨Reading.onDay anchor start, Reading.onDay last stop⟩

def shift? (o : Occurrence) (days : Int) : Option Occurrence := do
  return ⟨← (o.start.plusDays days).withinCalendar?, ← (o.stop.plusDays days).withinCalendar?⟩

/-- Cycle that holds a reading: the month, counted from January of year 0, or the year. Daily
and weekly schedules are not counted in cycles. -/
def cycle? (schedule : Schedule) (t : WallClock) : Option Int :=
  match schedule with
  | monthly .. => some t.date.monthIndex
  | annual .. => some t.date.year
  | _ => none

/-- Day of a date in a year, February 29 falling on February 28 in common years. -/
def annualDay? (year : Int) (date : MonthDay) : Option Int :=
  clampedDay? (monthIndex year date.month) date.day

def occurrence? (schedule : Schedule) (cycle : Int) : Option Occurrence :=
  match schedule with
  | monthly startDay start stopDay stop => do
    let stopCycle := if stopDay < startDay then cycle + 1 else cycle
    return ⟨Reading.onDay (← clampedDay? cycle startDay) start,
      Reading.onDay (← clampedDay? stopCycle stopDay) stop⟩
  | annual startDate start stopDate stop => do
    let stopCycle := if startDate.after stopDate then cycle + 1 else cycle
    return ⟨Reading.onDay (← annualDay? cycle startDate) start,
      Reading.onDay (← annualDay? stopCycle stopDate) stop⟩
  | _ => none

/-! ### Inside or outside -/

/-- Whether some occurrence of these cycles holds the reading, tried in order. -/
def anyHolds? (schedule : Schedule) (t : WallClock) : List Int → Option Bool
  | [] => some false
  | cycle :: rest => do
    if (← schedule.occurrence? cycle).holds t then return true
    schedule.anyHolds? t rest

def contains? (schedule : Schedule) (t : WallClock) : Option Bool :=
  match schedule with
  | daily start stop =>
    let time : TimeOfDay := ⟨t.secondOfDay⟩
    if start ≤ stop then some (start ≤ time && time < stop)
    else some (start ≤ time || time < stop)
  | weekly startDay start stopDay stop => do
    let o ← weeklyOccurrence? startDay start stopDay stop t.day
    let o ← if t < o.start then shift? o (-7) else some o
    return o.holds t
  | _ => do
    let cycle ← schedule.cycle? t
    schedule.anyHolds? t [cycle - 1, cycle]

/-! ### The next end -/

/-- First end after the reading among the non-empty occurrences of these cycles. If there is
none, the first end after it of an empty one. -/
def firstEnd? (schedule : Schedule) (t : WallClock) :
    List Int → Option WallClock → Option WallClock
  | [], emptyEnd => emptyEnd
  | cycle :: rest, emptyEnd => do
    let o ← schedule.occurrence? cycle
    if o.stop ≤ t then schedule.firstEnd? t rest emptyEnd
    else if o.start < o.stop then some o.stop
    else schedule.firstEnd? t rest (emptyEnd <|> some o.stop)

/-- End of the current or the upcoming occurrence, strictly after the reading. -/
def nextEnd? (schedule : Schedule) (t : WallClock) : Option WallClock :=
  match schedule with
  | daily _ stop =>
    if t.secondOfDay < stop.seconds then some (Reading.onDay t.day stop)
    else do return Reading.onDay (← withinCalendar? (t.day + 1)) stop
  | weekly startDay start stopDay stop => do
    let o ← weeklyOccurrence? startDay start stopDay stop t.day
    if o.stop ≤ t then (o.stop.plusDays 7).withinCalendar? else some o.stop
  | _ => do
    let cycle ← schedule.cycle? t
    schedule.firstEnd? t [cycle - 1, cycle, cycle + 1, cycle + 2, cycle + 3] none

/-! ### Schedules of checked bounds -/

def dayOfMonth? (p : Point) : Option Nat :=
  p.dayOfMonth.bind fun d => if 0 ≤ d then some d.toNat else none

def monthDay? (p : Point) : Except String MonthDay := do
  let some month := p.month.bind fun m => if 0 ≤ m then some m.toNat else none
    | throw "month"
  let some day := dayOfMonth? p | throw "day of month"
  return ⟨month, day⟩

/-- A part of a point, or its name where the point lacks it. -/
def part {α : Type} (name : String) (value : Option α) : Except String α :=
  match value with
  | some value => .ok value
  | none => .error name

/-- Schedule of two points, or the name of a part that one of them lacks. -/
def ofPoints (kind : Kind) (start stop : Point) : Except String Schedule :=
  match kind with
  | .daily => do
    return daily (← part "time of day" start.timeOfDay?) (← part "time of day" stop.timeOfDay?)
  | .weekly => do
    return weekly (← part "start weekday" start.weekday?) (← part "time of day" start.timeOfDay?)
      (← part "end weekday" stop.weekday?) (← part "time of day" stop.timeOfDay?)
  | .monthly => do
    return monthly (← part "day of month" (dayOfMonth? start))
      (← part "time of day" start.timeOfDay?) (← part "day of month" (dayOfMonth? stop))
      (← part "time of day" stop.timeOfDay?)
  | .annual => do
    return annual (← monthDay? start) (← part "time of day" start.timeOfDay?)
      (← monthDay? stop) (← part "time of day" stop.timeOfDay?)

end Schedule

end Blackout
