import Blackout.Json.Decode
import Blackout.Point

/-!
# Recurrence points in documents

A point is a record of five optional numbers of 32 bits. Absent fields are not written.
-/

namespace Blackout.Point

open Json

def shape : Shape Point where
  title := "struct RecurrencePoint"
  blank := empty
  fields := [
    .optional "minute" (readOption readInt32) fun p v => { p with minute := v },
    .optional "hour" (readOption readInt32) fun p v => { p with hour := v },
    .optional "day_of_week" (readOption readInt32) fun p v => { p with dayOfWeek := v },
    .optional "day_of_month" (readOption readInt32) fun p v => { p with dayOfMonth := v },
    .optional "month" (readOption readInt32) fun p v => { p with month := v }]

def read : Reader Point := shape.read

def toJson (p : Point) : Json :=
  let field (name : String) (value : Option Int) : List (String × Json) :=
    value.toList.map fun v => (name, Json.ofInt v)
  .ofMembers (field "minute" p.minute ++ field "hour" p.hour ++ field "day_of_week" p.dayOfWeek ++
    field "day_of_month" p.dayOfMonth ++ field "month" p.month)

end Blackout.Point
