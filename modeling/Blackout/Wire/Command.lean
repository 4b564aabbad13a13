import Blackout.Clock

/-!
# Commands

A command is an object that its member `command` names; the other members are its arguments.
It may also be written as an array of its name and its arguments in order.
-/

namespace Blackout

open Json

inductive Command where
  | submit (rule : String) (payload : Json)
  /-- Advances the clock by an amount of a unit. -/
  | advance (amount : Nat) (unit : TimeUnit)
  /-- Advances the clock to a time that is still text. -/
  | advanceTo (time : String)
  | now
  | status

namespace Command

/-! ### Reading -/

/-- Arguments of a match; the payload is null unless given. -/
def submitShape : Shape (String × Json) where
  title := "struct variant Command::Match"
  blank := ("", .null)
  fields := [
    .needed "rule" readText fun a rule => (rule, a.2),
    .optional "payload" readJson fun a payload => (a.1, payload)]

def advanceShape : Shape (Nat × TimeUnit) where
  title := "struct variant Command::Advance"
  blank := (0, .milliseconds)
  fields := [
    .needed "amount" readAmount fun a amount => (amount, a.2),
    .needed "unit" (readName TimeUnit.names) fun a unit => (a.1, unit)]

def advanceToShape : Shape String where
  title := "struct variant Command::AdvanceTo"
  blank := ""
  fields := [.needed "time" readText fun _ time => time]

/-- Names of the commands, with the readers of their arguments. -/
def forms : Names (Reader Command) := [
  ("match", fun c node => (submitShape.read c node).map fun a => submit a.1 a.2),
  ("advance", fun c node => (advanceShape.read c node).map fun a => advance a.1 a.2),
  ("advance_to", fun c node => (advanceToShape.read c node).map advanceTo),
  ("now", fun _ node => (checkBare node).map fun _ => now),
  ("status", fun _ node => (checkBare node).map fun _ => status)]

def read : Reader Command := fun c node => do
  let (form, arguments) ← readTagged "internally tagged enum Command" "command" forms c node
  form .whole arguments

/-! ### Writing -/

def toJson : Command → Json
  | submit rule payload =>
    .object [("command", .text "match"), ("rule", .text rule), ("payload", payload)]
  | advance amount unit =>
    .object [("command", .text "advance"), ("amount", .ofNat amount), ("unit", .text unit.name)]
  | advanceTo time => .object [("command", .text "advance_to"), ("time", .text time)]
  | now => .object [("command", .text "now")]
  | status => .object [("command", .text "status")]

end Command

end Blackout
