import Blackout.Json.Printer
import Blackout.RuleSet.Definition
import Blackout.Text.Blank
import Blackout.Text.Lowercase
import Blackout.Window

/-!
# Checks of rule sets

`checkRuleSet` lists every fault of a rule set in the order of the document: those of the
default blackout, then for each rule those of its name, of its blackout and of its actions.
-/

namespace Blackout

inductive BlackoutOwner where
  | ruleSet
  | rule (name : String)
deriving DecidableEq

/-- A setting of a blackout with a value that it cannot have, in lower case. -/
inductive SettingError where
  | unknownTrigger (value : String)
  | unknownTimezone (value : String)
deriving DecidableEq

inductive RuleSetFault where
  | badAction (rule : String) (action : Json)
  | duplicateName (name : String)
  /-- A blank name, with the index of its rule. -/
  | emptyName (index : Nat)
  | badWindow (owner : BlackoutOwner) (error : WindowError)
  | badSetting (owner : BlackoutOwner) (error : SettingError)

/-! ### Wording -/

def BlackoutOwner.text : BlackoutOwner → String
  | ruleSet => "rule set default"
  | rule name => "rule '" ++ name ++ "'"

def SettingError.message : SettingError → String
  | unknownTrigger value => "Unknown trigger '" ++ value ++ "' (expected all, first or last)"
  | unknownTimezone value => "Unsupported timezone '" ++ value ++ "' (expected utc or local)"

def RuleSetFault.message : RuleSetFault → String
  | badAction rule action =>
    "Rule '" ++ rule ++ "': action must be an object, got " ++ action.render
  | duplicateName name => "Duplicate rule name: " ++ name
  | emptyName index => "Rule #" ++ Text.Decimal.natText index ++ " has an empty name"
  | badWindow owner error => "Blackout of " ++ owner.text ++ ": " ++ error.message
  | badSetting owner error => "Blackout of " ++ owner.text ++ ": " ++ error.message

/-! ### Settings -/

def Trigger.ofText (text : String) : Except SettingError Trigger :=
  match Text.lowercase text with
  | "all" => .ok .all
  | "first" => .ok .first
  | "last" => .ok .last
  | other => .error (.unknownTrigger other)

def ZoneMode.ofText (text : String) : Except SettingError ZoneMode :=
  match Text.lowercase text with
  | "utc" => .ok .utc
  | "local" => .ok .local
  | other => .error (.unknownTimezone other)

/-! ### Checks -/

def faultOf {ε α β : Type} (wrap : ε → β) : Except ε α → List β
  | .ok _ => []
  | .error e => [wrap e]

/-- Faults of a blackout: of its trigger, of its zone and of its bounds. -/
def checkBlackout (owner : BlackoutOwner) (b : BlackoutDef) : List RuleSetFault :=
  (b.trigger.toList.flatMap fun t => faultOf (.badSetting owner) (Trigger.ofText t)) ++
    (b.timezone.toList.flatMap fun z => faultOf (.badSetting owner) (ZoneMode.ofText z)) ++
    faultOf (.badWindow owner) (checkBounds b.start b.stop)

/-- Faults of a rule's name, where the names of the rules before it are `seen`. -/
def checkName (index : Nat) (seen : List String) (name : String) : List RuleSetFault :=
  if Text.allBlank name then [.emptyName index]
  else if seen.contains name then [.duplicateName name]
  else []

def checkActions (rule : RuleDef) : List RuleSetFault :=
  ((rule.actions.find? fun a => !a.isObject).map (.badAction rule.name)).toList

/-- Faults of a rule, where the names of the rules before it are `seen`. -/
def checkRule (index : Nat) (seen : List String) (rule : RuleDef) : List RuleSetFault :=
  checkName index seen rule.name ++
    (rule.blackout.toList.flatMap (checkBlackout (.rule rule.name))) ++ checkActions rule

/-- Faults of rules from an index on, where the names of the rules before them are `seen`. -/
def checkRules (index : Nat) (seen : List String) : List RuleDef → List RuleSetFault
  | [] => []
  | rule :: rest => checkRule index seen rule ++ checkRules (index + 1) (rule.name :: seen) rest

def checkRuleSet (s : RuleSetDef) : List RuleSetFault :=
  (s.blackout.toList.flatMap (checkBlackout .ruleSet)) ++
    checkRules 0 [] (s.rules.map RuleEntry.rule)

end Blackout
