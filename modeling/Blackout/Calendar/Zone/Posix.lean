import Blackout.Calendar.Zone
import Blackout.Text.Decimal
import Blackout.Text.Front

/-!
# Zones written as POSIX rules

The form is `CET-1CEST,M3.5.0,M10.5.0/3`: a name and its offset, which counts westward, and
optionally the name of saving time, its offset (one hour ahead of standard time unless
given), and the rules for its start and stop. A rule `Mm.w.d/t` names the w-th weekday d
(0 is Sunday) of month m at wall-clock time t, which is 2:00 unless given. Names are letters,
or anything between angle brackets.
-/

namespace Blackout.Zone.Posix

open Text Text.Decimal

def skipName? : List Char → Option (List Char)
  | '<' :: cs => ((cs.dropWhile (· != '>')).head?.map fun _ => (cs.dropWhile (· != '>')).tail)
  | cs => if (cs.takeWhile Char.isAlpha).isEmpty then none else some (cs.dropWhile Char.isAlpha)

/-- Minutes and seconds after an hour, as seconds; both may be missing. -/
def readMinutes? (cs : List Char) : Option (Nat × List Char) := do
  match cs with
  | ':' :: cs =>
    let (minutes, cs) ← many? cs
    match cs with
    | ':' :: cs =>
      let (seconds, cs) ← many? cs
      return (60 * minutes + seconds, cs)
    | cs => return (60 * minutes, cs)
  | cs => return (0, cs)

/-- A time `[+-]h[:m[:s]]` in seconds. -/
def readTime? (cs : List Char) : Option (Int × List Char) := do
  let (sign, cs) := match cs with
    | '-' :: cs => ((-1 : Int), cs)
    | '+' :: cs => (1, cs)
    | cs => (1, cs)
  let (hours, cs) ← many? cs
  let (rest, cs) ← readMinutes? cs
  return (sign * (3600 * hours + rest), cs)

def readRule? (cs : List Char) : Option (YearlyRule × List Char) := do
  let (month, cs) ← many? (← after? 'M' cs)
  let (week, cs) ← many? (← after? '.' cs)
  let (weekday, cs) ← many? (← after? '.' cs)
  let weekday := Weekday.ofNumber (weekday + 6)
  match cs with
  | '/' :: cs =>
    let (time, cs) ← readTime? cs
    return (⟨month, week, weekday, time⟩, cs)
  | cs => return (⟨month, week, weekday, 7200⟩, cs)

def readSaving? (standard : Int) (cs : List Char) : Option Saving := do
  let cs ← skipName? cs
  let (offset, cs) ← match cs with
    | ',' :: _ => some (standard + 3600, cs)
    | cs => (readTime? cs).map fun (west, cs) => (-west, cs)
  let (start, cs) ← readRule? (← after? ',' cs)
  let (stop, cs) ← readRule? (← after? ',' cs)
  if cs.isEmpty then some ⟨offset, start, stop⟩ else none

end Posix

def ofPosix? (text : String) : Option Zone := do
  let (west, cs) ← Posix.readTime? (← Posix.skipName? text.toList)
  let standard := -west
  if cs.isEmpty then some ⟨standard, none⟩
  else (Posix.readSaving? standard cs).map fun saving => ⟨standard, some saving⟩

end Blackout.Zone
