import Blackout.Calendar.Date

/-!
# Instants and wall-clock readings

A reading counts seconds from 1970-01-01T00:00:00, on the universal scale (an instant) or on
the dial of some wall clock, and nanoseconds within the second. A leap second is kept as
second 59 with 10⁹ or more nanoseconds, so that it sorts after every other moment of that
second and before the next minute.
-/

namespace Blackout

open Calendar

/-- What a reading counts: universal time, or the dial of a wall clock. -/
inductive Scale where
  | universal
  | wall

/-- Seconds from 1970-01-01T00:00:00 on a scale, and nanoseconds in the second. -/
structure Reading (scale : Scale) where
  seconds : Int
  nanos : Nat
deriving DecidableEq

abbrev Instant := Reading .universal

abbrev WallClock := Reading .wall

def daySeconds : Int := 86400

def nanosPerSecond : Nat := 1000000000

structure TimeOfDay where
  seconds : Nat
deriving DecidableEq

/-- Length of time in milliseconds; negative lengths lead backward. -/
structure Span where
  millis : Int
deriving DecidableEq

namespace TimeOfDay

/-- Time of day of an hour 0 to 23 and a minute 0 to 59. -/
def ofHourMinute? (hour minute : Int) : Option TimeOfDay :=
  if 0 ≤ hour ∧ hour ≤ 23 ∧ 0 ≤ minute ∧ minute ≤ 59 then
    some ⟨(3600 * hour + 60 * minute).toNat⟩
  else none

instance : LT TimeOfDay := ⟨fun a b => a.seconds < b.seconds⟩
instance : LE TimeOfDay := ⟨fun a b => a.seconds ≤ b.seconds⟩
instance (a b : TimeOfDay) : Decidable (a < b) :=
  inferInstanceAs (Decidable (a.seconds < b.seconds))
instance (a b : TimeOfDay) : Decidable (a ≤ b) :=
  inferInstanceAs (Decidable (a.seconds ≤ b.seconds))

end TimeOfDay

namespace Span

def limit : Int := 0x7fffffffffffffff

def ofSeconds (seconds : Int) : Span := ⟨1000 * seconds⟩

def neg (span : Span) : Span := ⟨-span.millis⟩

def day : Span := ofSeconds daySeconds

end Span

namespace Reading

variable {scale : Scale}

/-! ### Order -/

instance : LT (Reading scale) :=
  ⟨fun a b => a.seconds < b.seconds ∨ (a.seconds = b.seconds ∧ a.nanos < b.nanos)⟩
instance : LE (Reading scale) :=
  ⟨fun a b => a.seconds < b.seconds ∨ (a.seconds = b.seconds ∧ a.nanos ≤ b.nanos)⟩
instance (a b : Reading scale) : Decidable (a < b) :=
  inferInstanceAs (Decidable (a.seconds < b.seconds ∨ (a.seconds = b.seconds ∧ a.nanos < b.nanos)))
instance (a b : Reading scale) : Decidable (a ≤ b) :=
  inferInstanceAs (Decidable (a.seconds < b.seconds ∨ (a.seconds = b.seconds ∧ a.nanos ≤ b.nanos)))

/-! ### Days and times of day -/

def day (r : Reading scale) : Int := r.seconds / daySeconds

def secondOfDay (r : Reading scale) : Nat := (r.seconds % daySeconds).toNat

def date (r : Reading scale) : Date := Date.ofDayNumber r.day

def onDay (day : Int) (time : TimeOfDay) : Reading scale := ⟨daySeconds * day + time.seconds, 0⟩

def plusDays (r : Reading scale) (days : Int) : Reading scale :=
  ⟨r.seconds + daySeconds * days, r.nanos⟩

def isLeapSecond (r : Reading scale) : Bool := decide (nanosPerSecond ≤ r.nanos)

def withinCalendar? (r : Reading scale) : Option (Reading scale) :=
  (Calendar.withinCalendar? r.day).map fun _ => r

/-! ### Adding a span -/

def carry (seconds nanos : Int) : Reading scale :=
  ⟨seconds + nanos / nanosPerSecond, (nanos % nanosPerSecond).toNat⟩

/-- Reading a span later. A span that stays within a leap second keeps it; one that leaves it
counts on from the second before when it leads forward, and from the following second when
it leads backward by a second or more. -/
def plus (r : Reading scale) (span : Span) : Reading scale :=
  let seconds := span.millis.tdiv 1000
  let nanos := span.millis.tmod 1000 * 1000000
  if r.isLeapSecond then
    if 0 < seconds ∨ (0 < nanos ∧ 2 * (nanosPerSecond : Int) ≤ r.nanos + nanos) then
      carry (r.seconds + seconds) (r.nanos - nanosPerSecond + nanos)
    else if seconds < 0 then
      carry (r.seconds + 1 + seconds) (r.nanos - nanosPerSecond + nanos)
    else ⟨r.seconds, (r.nanos + nanos).toNat⟩
  else carry (r.seconds + seconds) (r.nanos + nanos)

def plus? (r : Reading scale) (span : Span) : Option (Reading scale) :=
  (r.plus span).withinCalendar?

end Reading

/-! ### Offsets -/

/-- What a wall clock `offset` seconds ahead of universal time shows at an instant. -/
def Reading.shownAt (i : Instant) (offset : Int) : WallClock := ⟨i.seconds + offset, i.nanos⟩

/-- Instant at which a wall clock `offset` seconds ahead of universal time shows a reading. -/
def Reading.instantAt (w : WallClock) (offset : Int) : Instant := ⟨w.seconds - offset, w.nanos⟩

/-- An instant together with the offset, in seconds, of the clock that tells it. -/
structure OffsetTime where
  instant : Instant
  offset : Int
deriving DecidableEq

def OffsetTime.universal (i : Instant) : OffsetTime := ⟨i, 0⟩

def OffsetTime.wallClock (t : OffsetTime) : WallClock := t.instant.shownAt t.offset

end Blackout
