import Blackout.Point.Form

/-!
# Rule sets as they are defined

The definition of a rule set says what a document says and checks nothing: settings are still
text and points may be out of range. A rule may stand by itself or be wrapped in an object
under the key `Rule`, and keeps its form when it is written again.
-/

namespace Blackout

open Json

structure BlackoutDef where
  trigger : Option String
  timezone : Option String
  start : Option Point
  stop : Option Point

structure RuleDef where
  name : String
  blackout : Option BlackoutDef
  condition : Option Json
  actions : List Json
  enabled : Option Bool

inductive RuleEntry where
  | wrapped (rule : RuleDef)
  | bare (rule : RuleDef)

/-- Definition of a rule set. Its blackout is inherited by the rules without their own. -/
structure RuleSetDef where
  name : Option String
  blackout : Option BlackoutDef
  rules : List RuleEntry

def RuleEntry.rule : RuleEntry → RuleDef
  | wrapped rule => rule
  | bare rule => rule

/-! ### Reading -/

def BlackoutDef.shape : Shape BlackoutDef where
  title := "struct RawBlackOut"
  blank := ⟨none, none, none, none⟩
  fields := [
    .optional "trigger" (readOption readText) fun b v => { b with trigger := v },
    .optional "timezone" (readOption readText) fun b v => { b with timezone := v },
    .optional "start_time" (readOption Point.read) fun b v => { b with start := v },
    .optional "end_time" (readOption Point.read) fun b v => { b with stop := v }]

/-- The record of a rule; only its name has to be there. -/
def RuleDef.shape : Shape RuleDef where
  title := "struct RawRule"
  blank := ⟨"", none, none, [], none⟩
  fields := [
    .needed "name" readText fun r v => { r with name := v },
    .optional "black_out" (readOption BlackoutDef.shape.read) fun r v => { r with blackout := v },
    .optional "condition" (readOption readJson) fun r v => { r with condition := v },
    .optional "actions" (readList readJson) fun r v => { r with actions := v },
    .optional "enabled" (readOption readBool) fun r v => { r with enabled := v }]

def RuleEntry.wrapper : Shape RuleDef where
  title := "struct RawRule"
  blank := RuleDef.shape.blank
  fields := [.needed "Rule" RuleDef.shape.read fun _ v => v]

/-- Reads an entry. It is read whole first, then tried as an object with a wrapped rule and, if
that fails for any reason, as a bare rule. -/
def RuleEntry.read : Reader RuleEntry := fun c node => do
  node.keep c
  let wrappedRule := match node with
    | .object .. => (RuleEntry.wrapper.read .whole node).toOption
    | _ => none
  match wrappedRule, RuleDef.shape.read .whole node with
  | some rule, _ => return .wrapped rule
  | none, .ok rule => return .bare rule
  | none, .error _ => throw (.data (.noVariant "RawRuleEntry"))

def RuleSetDef.shape : Shape RuleSetDef where
  title := "struct RawRuleSet"
  blank := ⟨none, none, []⟩
  fields := [
    .optional "name" (readOption readText) fun s v => { s with name := v },
    .optional "black_out" (readOption BlackoutDef.shape.read) fun s v => { s with blackout := v },
    .optional "rules" (readList RuleEntry.read) fun s v => { s with rules := v }]

def RuleSetDef.read : Reader RuleSetDef := shape.read

/-! ### Writing -/

/-- All fields of a blackout; absent ones are null. -/
def BlackoutDef.toJson (b : BlackoutDef) : Json :=
  .ofMembers [
    ("trigger", .ofOption .text b.trigger),
    ("timezone", .ofOption .text b.timezone),
    ("start_time", .ofOption Point.toJson b.start),
    ("end_time", .ofOption Point.toJson b.stop)]

/-- All fields of a rule; absent ones are null. -/
def RuleDef.toJson (r : RuleDef) : Json :=
  .ofMembers [
    ("name", .text r.name),
    ("black_out", .ofOption BlackoutDef.toJson r.blackout),
    ("condition", r.condition.getD .null),
    ("actions", .array r.actions),
    ("enabled", .ofOption .bool r.enabled)]

def RuleEntry.toJson : RuleEntry → Json
  | wrapped rule => .ofMembers [("Rule", rule.toJson)]
  | bare rule => rule.toJson

/-- All fields of a rule set; absent ones are null. -/
def RuleSetDef.toJson (s : RuleSetDef) : Json :=
  .ofMembers [
    ("name", .ofOption .text s.name),
    ("black_out", .ofOption BlackoutDef.toJson s.blackout),
    ("rules", .ofList RuleEntry.toJson s.rules)]

end Blackout
