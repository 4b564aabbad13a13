import Blackout.Calendar.Moment

/-!
# Time zones

A zone has a standard offset and, optionally, a saving offset between two moments that recur
every year on a weekday of a month. `offsetAt` reads an instant; `instantOf?` resolves a
wall-clock reading, which clocks turned back show twice and clocks turned forward never.
-/

namespace Blackout

open Calendar

/-- The `week`-th `weekday` of a month (week 5 is the last one), `time` seconds after
midnight on the wall clock. -/
structure YearlyRule where
  month : Nat
  week : Nat
  weekday : Weekday
  time : Int
deriving DecidableEq

/-- Saving time: its offset, where it starts on the standard clock and where it stops on the
saving clock. -/
structure Saving where
  offset : Int
  start : YearlyRule
  stop : YearlyRule
deriving DecidableEq

structure Zone where
  standard : Int
  saving : Option Saving
deriving DecidableEq

inductive LocalOffsets where
  | gap
  | one (offset : Int)
  | two (first second : Int)
deriving DecidableEq

namespace YearlyRule

def day (rule : YearlyRule) (year : Int) : Int :=
  let first := monthStart (monthIndex year rule.month)
  let ahead := ((rule.weekday.number : Int) - (Weekday.ofDayNumber first).number) % 7
  let day := first + ahead + 7 * ((rule.week : Int) - 1)
  if day < first + monthLength year rule.month then day else day - 7

def moment (rule : YearlyRule) (year : Int) : Int := daySeconds * rule.day year + rule.time

end YearlyRule

namespace Zone

def universal : Zone := ⟨0, none⟩

/-! ### From instants to wall clocks -/

/-- Whether saving time that starts in `year` covers the instant. It stops in the same year,
or in the next one where the year's stop comes before its start. -/
def savesFrom (zone : Zone) (saving : Saving) (seconds year : Int) : Bool :=
  let start := saving.start.moment year - zone.standard
  let stop := saving.stop.moment year - saving.offset
  let stop := if start ≤ stop then stop else saving.stop.moment (year + 1) - saving.offset
  decide (start ≤ seconds ∧ seconds < stop)

def offsetAt (zone : Zone) (i : Instant) : Int :=
  match zone.saving with
  | none => zone.standard
  | some saving =>
    let year := yearOf i.day
    if [year - 1, year, year + 1].any (zone.savesFrom saving i.seconds) then saving.offset
    else zone.standard

def wallClock (zone : Zone) (i : Instant) : WallClock := i.shownAt (zone.offsetAt i)

/-- Reading of the zone's clocks at an instant, if they can show it: near the ends of the calendar
the offset can lead out of it. -/
def wallClock? (zone : Zone) (i : Instant) : Option WallClock := (zone.wallClock i).withinCalendar?

def shows (zone : Zone) (i : Instant) : Bool := (zone.wallClock? i).isSome

/-! ### From wall clocks to instants -/

/-- Offsets at which the zone's clocks show a reading, judged by its whole seconds and by the
rules of its own year. The last reading before clocks turn back counts as shown twice. Where
saving time starts and stops in one year, the moment that it starts is still read at the
standard offset. -/
def localOffsets (zone : Zone) (w : WallClock) : LocalOffsets :=
  match zone.saving with
  | none => .one zone.standard
  | some saving =>
    let year := yearOf w.day
    let start := saving.start.moment year
    let stop := saving.stop.moment year
    let shift := saving.offset - zone.standard
    let t := w.seconds
    if start < stop then
      if t ≤ start then .one zone.standard
      else if t < start + shift then .gap
      else if t < stop - shift then .one saving.offset
      else if t ≤ stop then .two saving.offset zone.standard
      else .one zone.standard
    else
      if t < stop - shift then .one saving.offset
      else if t ≤ stop then .two saving.offset zone.standard
      else if t < start then .one zone.standard
      else if t < start + shift then .gap
      else .one saving.offset

/-- Instant of a reading at a given offset, if it is representable. -/
def placeAt? (w : WallClock) (offset : Int) : Option OffsetTime :=
  (w.instantAt offset).withinCalendar?.map fun i => ⟨i, offset⟩

/-- Instant of a skipped reading: the offset in force a day earlier is taken off it, so that
it is pushed later by the length of the gap. -/
def placeAfterGap? (zone : Zone) (w : WallClock) : Option OffsetTime := do
  let before ← w.plus? Span.day.neg
  let offset := zone.offsetAt (before.instantAt 0)
  let i := (← w.plus? (Span.ofSeconds (-offset))).instantAt 0
  return ⟨i, zone.offsetAt i⟩

/-- Instant of a wall-clock reading. A reading shown twice means the earlier instant. -/
def instantOf? (zone : Zone) (w : WallClock) : Option OffsetTime :=
  match zone.localOffsets w with
  | .one offset => placeAt? w offset <|> zone.placeAfterGap? w
  | .two first second =>
    match placeAt? w first, placeAt? w second with
    | some a, some b => some (if b.instant < a.instant then b else a)
    | _, _ => zone.placeAfterGap? w
  | .gap => zone.placeAfterGap? w

end Zone

/-! ### Which zone a window means -/

inductive ZoneMode where
  | utc
  | local
deriving DecidableEq

namespace ZoneMode

/-- Zone that a mode stands for where the local zone is `here`. -/
def zone (mode : ZoneMode) (here : Zone) : Zone :=
  match mode with
  | utc => Zone.universal
  | .local => here

def name : ZoneMode → String
  | utc => "utc"
  | .local => "local"

end ZoneMode

end Blackout
