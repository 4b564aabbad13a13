import Blackout.RuleSet.Check

/-!
# Rule set policies

The policy of a rule set gives every rule the window that applies to it: its own, else the
default of the rule set, else none.
-/

namespace Blackout

inductive WindowSource where
  | own
  | inherited
  | none
deriving DecidableEq

structure RulePolicy where
  name : String
  enabled : Bool
  window : Option Window
  source : WindowSource
  condition : Option Json
  actions : List Json

/-- A checked rule set, rules in the order of their definition. -/
structure RuleSetPolicy where
  name : Option String
  defaultWindow : Option Window
  rules : List RulePolicy

def WindowSource.name : WindowSource → String
  | own => "own"
  | inherited => "inherited"
  | none => "none"

/-- A setting's value, or its default if it is not given. -/
def settingOr {α : Type} (owner : BlackoutOwner) (parse : String → Except SettingError α)
    (default : α) : Option String → Except RuleSetFault α
  | none => .ok default
  | some text => (parse text).mapError (.badSetting owner)

def BlackoutDef.window (owner : BlackoutOwner) (b : BlackoutDef) : Except RuleSetFault Window := do
  let trigger ← settingOr owner Trigger.ofText .all b.trigger
  let mode ← settingOr owner ZoneMode.ofText .utc b.timezone
  match b.start, b.stop with
  | some start, some stop => (Window.ofBounds start stop trigger mode).mapError (.badWindow owner)
  | none, _ => throw (.badWindow owner (.missingBoundary .start))
  | some _, none => throw (.badWindow owner (.missingBoundary .stop))

/-- Policy of a rule where the rule set has this default window. -/
def RulePolicy.ofDef (defaultWindow : Option Window) (r : RuleDef) :
    Except RuleSetFault RulePolicy := do
  let (window, source) ← match r.blackout, defaultWindow with
    | some own, _ => do pure (some (← own.window (.rule r.name)), WindowSource.own)
    | none, some window => pure (some window, .inherited)
    | none, none => pure (none, .none)
  return ⟨r.name, r.enabled.getD true, window, source, r.condition, r.actions⟩

namespace RuleSetPolicy

/-- Policy of a rule set, or the first fault of a blackout. -/
def ofDef (s : RuleSetDef) : Except RuleSetFault RuleSetPolicy := do
  let defaultWindow ← match s.blackout with
    | none => pure none
    | some b => do pure (some (← b.window .ruleSet))
  let rules ← s.rules.mapM fun entry => RulePolicy.ofDef defaultWindow entry.rule
  return ⟨s.name, defaultWindow, rules⟩

def rule? (policy : RuleSetPolicy) (name : String) : Option RulePolicy :=
  policy.rules.find? (·.name = name)

def enabledRules (policy : RuleSetPolicy) : List RulePolicy := policy.rules.filter (·.enabled)

end RuleSetPolicy

end Blackout
