import Blackout.Window.Bounds
import Blackout.Window.Schedule

/-!
# Blackout windows

A blackout window withholds the matches of a rule while one of its occurrences lasts. It is
built from two recurrence points of one kind, is read in universal time or in the local zone,
and has a trigger that tells which of the withheld matches are released.

A window is read on clocks, and there are times near the ends of the calendar that a local clock
cannot show. Reading it then breaks down, which is not an error that anyone is told.
-/

namespace Blackout

inductive Trigger where
  | all
  | first
  | last
deriving DecidableEq

/-- A checked window: its bounds as they were given, and the schedule they make up. -/
structure Window where
  start : Point
  stop : Point
  schedule : Schedule
  trigger : Trigger
  mode : ZoneMode
deriving DecidableEq

/-- How a request fails: with an error that is reported, or with a breakdown, after which whoever
made it hears nothing. -/
inductive Failure (ε : Type) where
  | reported (error : ε)
  | breakdown
deriving DecidableEq

def Failure.map {ε ε' : Type} (f : ε → ε') : Failure ε → Failure ε'
  | reported error => reported (f error)
  | breakdown => breakdown

namespace Trigger

def name : Trigger → String
  | all => "all"
  | first => "first"
  | last => "last"

def select {α : Type} (trigger : Trigger) (withheld : List α) : List α :=
  match trigger with
  | all => withheld
  | first => withheld.head?.toList
  | last => withheld.getLast?.toList

end Trigger

namespace Window

/-- Window with these bounds, or the first fault of the bounds. -/
def ofBounds (start stop : Point) (trigger : Trigger) (mode : ZoneMode) :
    Except WindowError Window := do
  let kind ← checkBounds (some start) (some stop)
  match Schedule.ofPoints kind start stop with
  | .ok schedule => return ⟨start, stop, schedule, trigger, mode⟩
  | .error part => throw (.unusable part)

def kind (w : Window) : Kind := w.schedule.kind

/-- Reading of the window's clocks at an instant, where the local zone is `here`. -/
def readClock (here : Zone) (w : Window) (now : Instant) :
    Except (Failure WindowError) WallClock :=
  match (w.mode.zone here).wallClock? now with
  | some t => .ok t
  | none => .error .breakdown

/-- Whether the window is active at an instant. -/
def isActive (here : Zone) (w : Window) (now : Instant) : Except (Failure WindowError) Bool := do
  let t ← w.readClock here now
  match w.schedule.contains? t with
  | some active => return active
  | none => throw (.reported (.noOccurrence w.kind t))

/-- End of the current or the upcoming occurrence, strictly after the instant on the wall
clock, told in the window's zone. -/
def nextEnd (here : Zone) (w : Window) (now : Instant) :
    Except (Failure WindowError) OffsetTime := do
  let t ← w.readClock here now
  match w.schedule.nextEnd? t with
  | none => throw (.reported (.noEnd w.kind t))
  | some stop =>
    match (w.mode.zone here).instantOf? stop with
    | some time => return time
    | none => throw (.reported (.unplaceable stop w.mode))

def text (w : Window) : String :=
  w.kind.name ++ " [" ++ w.start.text ++ "] -> [" ++ w.stop.text ++ "] (" ++ w.mode.name ++
    ", trigger " ++ w.trigger.name ++ ")"

end Window

end Blackout
