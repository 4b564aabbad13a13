import Blackout.Point

/-!
# Bounds of a window

A window is bounded by two recurrence points of the same kind. `checkBounds` tests a pair of
points in a fixed order and reports the first fault: presence of both bounds, ranges of all
fields of the start and then of the end, the kind of each bound, equal kinds, and for annual
windows that both dates exist in a leap year.
-/

namespace Blackout

inductive Boundary where
  | start
  | stop
deriving DecidableEq

inductive PointField where
  | minute
  | hour
  | dayOfWeek
  | dayOfMonth
  | month
deriving DecidableEq

inductive WindowError where
  | missingBoundary (boundary : Boundary)
  | missingHour (boundary : Boundary)
  | outOfRange (boundary : Boundary) (field : PointField) (value least greatest : Int)
  | conflictingDays (boundary : Boundary)
  | unknownKind (boundary : Boundary) (point : Point)
  | kindMismatch (start stop : Kind)
  | impossibleDate (boundary : Boundary) (month day : Int)
  /-- A checked bound lacks a part of its schedule. -/
  | unusable (part : String)
  /-- An occurrence near the reading is not representable. -/
  | noOccurrence (kind : Kind) (around : WallClock)
  /-- The end that follows the reading is not representable. -/
  | noEnd (kind : Kind) (after : WallClock)
  /-- The instant of an end is not representable. -/
  | unplaceable (stop : WallClock) (mode : ZoneMode)
deriving DecidableEq

/-! ### Wording -/

def Boundary.name : Boundary → String
  | start => "start_time"
  | stop => "end_time"

namespace PointField

def name : PointField → String
  | minute => "minute"
  | hour => "hour"
  | dayOfWeek => "day_of_week"
  | dayOfMonth => "day_of_month"
  | month => "month"

def range : PointField → Int × Int
  | minute => (0, 59)
  | hour => (0, 23)
  | dayOfWeek => (0, 7)
  | dayOfMonth => (1, 31)
  | month => (1, 12)

def get (field : PointField) (p : Point) : Option Int :=
  match field with
  | minute => p.minute
  | hour => p.hour
  | dayOfWeek => p.dayOfWeek
  | dayOfMonth => p.dayOfMonth
  | month => p.month

end PointField

open Text.Decimal

def WindowError.message : WindowError → String
  | missingBoundary b => b.name ++ " must be provided"
  | missingHour b => b.name ++ ": hour is required"
  | outOfRange b field value least greatest =>
    b.name ++ ": " ++ field.name ++ " must be between " ++ intText least ++ " and " ++
      intText greatest ++ ", got " ++ intText value
  | conflictingDays b => b.name ++ ": day_of_week and day_of_month are mutually exclusive"
  | unknownKind b point => b.name ++ ": fields " ++ point.text ++ " match no schedule type"
  | kindMismatch start stop =>
    "start_time is " ++ start.name ++ " but end_time is " ++ stop.name ++
      "; both must be the same schedule type"
  | impossibleDate b month day =>
    b.name ++ ": " ++ intText month ++ "/" ++ intText day ++ " is not a valid date"
  | unusable part => "calendar arithmetic failed: " ++ part
  | noOccurrence kind around =>
    "calendar arithmetic failed: no " ++ kind.name ++ " occurrence around " ++ around.text
  | noEnd kind after =>
    "calendar arithmetic failed: no " ++ kind.name ++ " end after " ++ after.text
  | unplaceable stop mode =>
    "calendar arithmetic failed: cannot place " ++ stop.text ++ " in " ++ mode.name ++ " time"

/-! ### Checks -/

/-- A leap year, in which February 29 is legal. -/
def leapReferenceYear : Int := 2000

def checkField (b : Boundary) (p : Point) (field : PointField) : Except WindowError Unit :=
  match field.get p with
  | none => .ok ()
  | some value =>
    let (least, greatest) := field.range
    if value < least ∨ greatest < value then .error (.outOfRange b field value least greatest)
    else .ok ()

/-- Checks the ranges of a bound: the minute, presence of the hour, then the other fields. -/
def checkRanges (b : Boundary) (p : Point) : Except WindowError Unit := do
  checkField b p .minute
  if p.hour.isNone then throw (.missingHour b)
  [PointField.hour, .month, .dayOfMonth, .dayOfWeek].forM (checkField b p)

def boundKind (b : Boundary) (p : Point) : Except WindowError Kind :=
  if p.dayOfWeek.isSome ∧ p.dayOfMonth.isSome then .error (.conflictingDays b)
  else match p.kind? with
    | some kind => .ok kind
    | none => .error (.unknownKind b p)

def checkAnnualDate (b : Boundary) (p : Point) : Except WindowError Unit :=
  let month := p.month.getD 0
  let day := p.dayOfMonth.getD 0
  if 0 ≤ month ∧ 0 ≤ day ∧ (Date.mk leapReferenceYear month.toNat day.toNat).isValid then .ok ()
  else .error (.impossibleDate b month day)

/-- Kind of a window with these bounds, or the first fault found. -/
def checkBounds (start stop : Option Point) : Except WindowError Kind := do
  let some start := start | throw (.missingBoundary .start)
  let some stop := stop | throw (.missingBoundary .stop)
  checkRanges .start start
  checkRanges .stop stop
  let startKind ← boundKind .start start
  let stopKind ← boundKind .stop stop
  if startKind ≠ stopKind then throw (.kindMismatch startKind stopKind)
  if startKind = .annual then
    checkAnnualDate .start start
    checkAnnualDate .stop stop
  return startKind

end Blackout
