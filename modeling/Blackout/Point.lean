import Blackout.Calendar.Timestamp

/-!
# Recurrence points

A recurrence point is a partial calendar record of five optional fields, as in a cron line.
Which fields are present decides how often it recurs. Fields are kept as they were given, in
range or not, so that values out of range can be reported.
-/

namespace Blackout

inductive Kind where
  | daily
  | weekly
  | monthly
  | annual
deriving DecidableEq

/-- Partial calendar record: minute 0 to 59, hour 0 to 23, day of week 0 to 7 with Sunday as
0 and 7, day of month 1 to 31, month 1 to 12. -/
structure Point where
  minute : Option Int
  hour : Option Int
  dayOfWeek : Option Int
  dayOfMonth : Option Int
  month : Option Int
deriving DecidableEq

def Kind.name : Kind → String
  | daily => "daily"
  | weekly => "weekly"
  | monthly => "monthly"
  | annual => "annual"

namespace Point

def empty : Point := ⟨none, none, none, none, none⟩

/-- Kind that the present fields make up. The hour has to be present; the minute may be
absent in every kind. -/
def kind? (p : Point) : Option Kind :=
  match p.hour, p.month, p.dayOfWeek, p.dayOfMonth with
  | some _, none, none, none => some .daily
  | some _, none, some _, none => some .weekly
  | some _, none, none, some _ => some .monthly
  | some _, some _, none, some _ => some .annual
  | _, _, _, _ => none

/-- Time of day of a point, if hour and minute exist; an absent minute is 0. -/
def timeOfDay? (p : Point) : Option TimeOfDay := do
  TimeOfDay.ofHourMinute? (← p.hour) (p.minute.getD 0)

/-- Weekday of a point; 0 and 7 are Sunday. -/
def weekday? (p : Point) : Option Weekday := do
  let n ← p.dayOfWeek
  if 0 ≤ n ∧ n ≤ 7 then some (Weekday.ofNumber (n.toNat + 6)) else none

/-- A field's number, or a star where it is absent. -/
def fieldText : Option Int → String
  | some value => Text.Decimal.intText value
  | none => "*"

/-- The fields in cron order: minute, hour, day of month, month, day of week. -/
def text (p : Point) : String :=
  " ".intercalate ([p.minute, p.hour, p.dayOfMonth, p.month, p.dayOfWeek].map fieldText)

end Point

end Blackout
