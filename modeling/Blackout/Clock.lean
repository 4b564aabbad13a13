import Blackout.Calendar.Timestamp
import Blackout.Json.Decode
import Blackout.Text.Lowercase

/-!
# The session clock

A session has a clock of its own, which stands still until it is advanced. It is advanced by an
amount of some unit or to an instant, never moves backward, and stays where it is when an
advance fails.
-/

namespace Blackout

inductive TimeUnit where
  | milliseconds
  | seconds
  | minutes
  | hours
  | days
deriving DecidableEq

inductive ClockError where
  | unspannable (amount : Nat) (unit : TimeUnit)
  | pastRange
  | backward (now target : Instant)
deriving DecidableEq

namespace TimeUnit

def name : TimeUnit → String
  | milliseconds => "milliseconds"
  | seconds => "seconds"
  | minutes => "minutes"
  | hours => "hours"
  | days => "days"

def title : TimeUnit → String
  | milliseconds => "Milliseconds"
  | seconds => "Seconds"
  | minutes => "Minutes"
  | hours => "Hours"
  | days => "Days"

def millis : TimeUnit → Nat
  | milliseconds => 1
  | seconds => 1000
  | minutes => 60000
  | hours => 3600000
  | days => 86400000

def names : Json.Names TimeUnit := [
  ("millisecond", milliseconds), ("milliseconds", milliseconds), ("ms", milliseconds),
  ("s", seconds), ("second", seconds), ("seconds", seconds),
  ("m", minutes), ("minute", minutes), ("minutes", minutes),
  ("h", hours), ("hour", hours), ("hours", hours),
  ("d", days), ("day", days), ("days", days)]

/-- Unit of a name in any case, or the name in lower case if it is none. -/
def ofText (text : String) : Except String TimeUnit :=
  let lower := Text.lowercase text
  match names.lookup lower with
  | some unit => .ok unit
  | none => .error lower

/-- Span of an amount, which has to fit in a signed number of 64 bits. -/
def span? (unit : TimeUnit) (amount : Nat) : Option Span :=
  if amount ≤ 0x7fffffffffffffff ∧ ((amount * unit.millis : Nat) : Int) ≤ Span.limit then
    some ⟨(amount * unit.millis : Nat)⟩
  else none

end TimeUnit

/-- Text of the error for a name that is no unit, given in lower case. -/
def unknownUnitMessage (lower : String) : String := "Unknown time unit: " ++ lower

def ClockError.message : ClockError → String
  | unspannable amount unit =>
    "cannot advance by " ++ Text.Decimal.natText amount ++ " " ++ unit.title
  | pastRange => "clock advanced past the representable range"
  | backward now target =>
    "cannot move clock backward from " ++ (OffsetTime.universal now).plainText ++ " to " ++
      (OffsetTime.universal target).plainText

/-- Clock at `now`, advanced by an amount of a unit. -/
def Instant.advance (now : Instant) (amount : Nat) (unit : TimeUnit) : Except ClockError Instant :=
  match unit.span? amount with
  | none => .error (.unspannable amount unit)
  | some span =>
    match now.plus? span with
    | none => .error .pastRange
    | some next => .ok next

def Instant.advanceTo (now target : Instant) : Except ClockError Instant :=
  if target < now then .error (.backward now target) else .ok target

end Blackout
