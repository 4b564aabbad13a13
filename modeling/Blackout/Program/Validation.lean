import Blackout.RuleSet.File

/-!
# Validating a rule set file

The report on a rule set file: a summary with the blackout of each rule, or everything that is
wrong with the file.
-/

namespace Blackout

/-- What a program writes, line by line, and the code it ends with. -/
structure Report where
  code : Nat
  output : List String
  errors : List String

namespace Validation

def usage : List String := [
  "Usage: validate-rulebook <rule-set-file>",
  "",
  "Validates a rule set (JSON, or TOML with a .toml extension)",
  "and prints the blackout each rule ends up with.",
  "",
  "Example:",
  "  validate-rulebook rules.json"]

def ruleLine (rule : RulePolicy) : String :=
  let state := if rule.enabled then "" else " (disabled)"
  rule.name ++ state ++ ": " ++ match rule.window with
    | some window =>
      window.kind.name ++ " blackout, trigger " ++ window.trigger.name ++ ", " ++
        window.mode.name ++ " time [" ++ rule.source.name ++ "]"
    | none => "no blackout"

def summary (policy : RuleSetPolicy) : List String :=
  let rules := policy.rules.map fun rule => "  - " ++ ruleLine rule
  ["✓ Rule set is valid", "", "Summary:", "  Name: " ++ policy.name.getD "<unnamed>",
    "  Rules: " ++ Text.Decimal.natText rules.length,
    "  Default blackout: " ++ (policy.defaultWindow.map Window.text).getD "none"] ++
    if rules.isEmpty then [] else ["", "Rules:"] ++ rules

def complaint : LoadError → List String
  | .unreadable fault => ["Failed to read file: " ++ fault.message]
  | .badJson error => ["JSON parse error:", "  " ++ error.message]
  | .badToml => ["TOML parse error:", "  " ++ badTomlMessage]
  | .invalid faults =>
    ("Validation errors (" ++ Text.Decimal.natText faults.length ++ "):") ::
      faults.map fun fault => "  - " ++ fault.message

/-- Report on the rule set file at a path, if one is given. -/
def report (path : Option String) (content : FileContent) : Report :=
  match path, content with
  | none, _ => ⟨2, [], usage⟩
  | some path, .error .missing => ⟨1, [], ["Error: Rule set file not found: " ++ path]⟩
  | some path, content =>
    match RuleSetPolicy.ofFile path content with
    | .ok policy => ⟨0, summary policy, []⟩
    | .error e => ⟨1, [], ["✗ Rule set validation failed", ""] ++ complaint e⟩

end Validation

end Blackout
