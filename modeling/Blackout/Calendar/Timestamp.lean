import Blackout.Calendar.Zone
import Blackout.Text.Blank
import Blackout.Text.Decimal
import Blackout.Text.Front

/-!
# Written dates and times

Instants are written with their offset in the RFC 3339 form, or plainly in whole seconds;
wall-clock readings without an offset. Years outside 0 to 9999 have a sign, a fraction has
the fewest of 3, 6 or 9 digits that are exact and is left out when it is zero, and a leap
second is second 60. Start times are read in the RFC 3339 form or as a reading of the local
wall clock.
-/

namespace Blackout

open Text Text.Decimal

/-! ### Writing -/

namespace Timestamp

/-- Four digits, with a sign outside 0 to 9999. -/
def year (y : Int) : List Char :=
  if 0 ≤ y ∧ y ≤ 9999 then padded 4 y.toNat
  else (if y < 0 then '-' else '+') :: padded 4 y.natAbs

def date (d : Date) : List Char :=
  year d.year ++ '-' :: padded 2 d.month ++ '-' :: padded 2 d.day

/-- Hour, minute and second; `extra` is added to the second. -/
def time (secondOfDay extra : Nat) : List Char :=
  padded 2 (secondOfDay / 3600) ++ ':' :: padded 2 (secondOfDay / 60 % 60) ++
    ':' :: padded 2 (secondOfDay % 60 + extra)

/-- Fraction of a second in nanoseconds: nothing, or a point and 3, 6 or 9 digits. -/
def fraction (nanos : Nat) : List Char :=
  if nanos = 0 then []
  else if nanos % 1000000 = 0 then '.' :: padded 3 (nanos / 1000000)
  else if nanos % 1000 = 0 then '.' :: padded 6 (nanos / 1000)
  else '.' :: padded 9 nanos

def offset (seconds : Int) : List Char :=
  let minutes := seconds.natAbs / 60
  (if seconds < 0 then '-' else '+') :: padded 2 (minutes / 60) ++ ':' :: padded 2 (minutes % 60)

/-- Date, separator and time of a reading, without its fraction. -/
def wholeSeconds (separator : Char) (w : WallClock) : List Char :=
  date w.date ++ separator :: time w.secondOfDay (w.nanos / nanosPerSecond)

def reading (separator : Char) (w : WallClock) : List Char :=
  wholeSeconds separator w ++ fraction (w.nanos % nanosPerSecond)

end Timestamp

def TimeOfDay.text (t : TimeOfDay) : String := String.ofList (Timestamp.time t.seconds 0)

def WallClock.text (w : WallClock) : String := String.ofList (Timestamp.reading ' ' w)

def WallClock.isoText (w : WallClock) : String := String.ofList (Timestamp.reading 'T' w)

/-- RFC 3339 form of an instant at its offset. -/
def OffsetTime.rfc3339 (t : OffsetTime) : String :=
  String.ofList (Timestamp.reading 'T' t.wallClock ++ Timestamp.offset t.offset)

/-- Plain form of an instant at its offset, in whole seconds. -/
def OffsetTime.plainText (t : OffsetTime) : String :=
  String.ofList (Timestamp.wholeSeconds ' ' t.wallClock ++ ' ' :: Timestamp.offset t.offset)

/-! ### Reading -/

namespace Timestamp

/-- Reading from its parts, if date and time exist. Second 60 is the leap second after second
59. -/
def assemble? (d : Date) (hour minute second nanos : Nat) : Option WallClock := do
  let day ← d.dayNumber?
  if 24 ≤ hour ∨ 60 ≤ minute ∨ 61 ≤ second then none
  let leap := second / 60
  return ⟨daySeconds * day + (3600 * hour + 60 * minute + (second - leap) : Nat),
    nanos + leap * nanosPerSecond⟩

/-- Fraction digits as nanoseconds; digits after the ninth are dropped. -/
def nanosOf (run : List Char) : Nat :=
  let kept := run.take 9
  value kept * Nat.pow 10 (9 - kept.length)

/-- Nanoseconds of an optional fraction, which has at least one digit. -/
def readFraction? (cs : List Char) : Option (Nat × List Char) :=
  match cs with
  | '.' :: cs =>
    let run := cs.takeWhile Char.isDigit
    if run.isEmpty then none else some (nanosOf run, cs.dropWhile Char.isDigit)
  | cs => some (0, cs)

/-- Offset in seconds: Z, or a sign (also the minus sign U+2212), hours up to 23 and minutes. -/
def readOffset? (cs : List Char) : Option (Int × List Char) := do
  match cs with
  | [] => none
  | sign :: cs =>
    if sign = 'Z' ∨ sign = 'z' then return (0, cs)
    let direction : Int ←
      if sign = '+' then some 1 else if sign = '-' ∨ sign = '\u2212' then some (-1) else none
    let (hours, cs) ← fixed? 2 cs
    let (minutes, cs) ← fixed? 2 (← after? ':' cs)
    if 24 ≤ hours ∨ 60 ≤ minutes then none
    return (direction * (3600 * hours + 60 * minutes), cs)

/-- The RFC 3339 form over characters; nothing may follow it. -/
def readRfc3339? (cs : List Char) : Option OffsetTime := do
  let (year, cs) ← fixed? 4 cs
  let (month, cs) ← fixed? 2 (← after? '-' cs)
  let (day, cs) ← fixed? 2 (← after? '-' cs)
  let cs ← after? 'T' cs <|> after? 't' cs <|> after? ' ' cs
  let (hour, cs) ← fixed? 2 cs
  let (minute, cs) ← fixed? 2 (← after? ':' cs)
  let (second, cs) ← fixed? 2 (← after? ':' cs)
  let (nanos, cs) ← readFraction? cs
  let (offset, cs) ← readOffset? cs
  let w ← assemble? ⟨year, month, day⟩ hour minute second nanos
  if cs.isEmpty then some ⟨w.instantAt offset, offset⟩ else none

/-- Year of a local reading: up to four digits, or a sign and any number of them. -/
def readYear? (cs : List Char) : Option (Int × List Char) :=
  match cs with
  | '-' :: cs => (many? cs).map fun (y, cs) => (-(y : Int), cs)
  | '+' :: cs => (many? cs).map fun (y, cs) => ((y : Int), cs)
  | cs => (upTo? 4 cs).map fun (y, cs) => ((y : Int), cs)

/-- Number of one or two digits, which blanks may precede. -/
def readPart? (cs : List Char) : Option (Nat × List Char) := upTo? 2 (skipBlanks cs)

/-- Date and time of a wall clock in whole seconds, with what follows them. `separate?` gives
what follows the separator of date and time. -/
def readWallClock? (separate? : List Char → Option (List Char)) (cs : List Char) :
    Option (WallClock × List Char) := do
  let (year, cs) ← readYear? (skipBlanks cs)
  let (month, cs) ← readPart? (← after? '-' cs)
  let (day, cs) ← readPart? (← after? '-' cs)
  let cs ← separate? cs
  let (hour, cs) ← readPart? cs
  let (minute, cs) ← readPart? (← after? ':' cs)
  let (second, cs) ← readPart? (← after? ':' cs)
  return (← assemble? ⟨year, month, day⟩ hour minute second 0, cs)

end Timestamp

/-- Instant of a text in the RFC 3339 form. -/
def OffsetTime.ofRfc3339? (text : String) : Option OffsetTime := Timestamp.readRfc3339? text.toList

def WallClock.ofIsoText? (text : String) : Option WallClock := do
  let (w, cs) ← Timestamp.readWallClock? (Text.after? 'T') text.toList
  let (nanos, cs) ← Timestamp.readFraction? cs
  if cs.isEmpty then some ⟨w.seconds, w.nanos + nanos⟩ else none

/-- Reading in whole seconds, with blanks or nothing between date and time. -/
def WallClock.ofText? (text : String) : Option WallClock := do
  let (w, cs) ← Timestamp.readWallClock? (some ∘ skipBlanks) text.toList
  if cs.isEmpty then some w else none

/-- Start time of a session: the RFC 3339 form, or a reading of the clocks in `here`. -/
def Instant.ofText? (here : Zone) (text : String) : Option Instant :=
  ((OffsetTime.ofRfc3339? text) <|> do here.instantOf? (← WallClock.ofText? text)).map (·.instant)

end Blackout
