import Blackout.Program.Arguments
import Blackout.Service
import Blackout.Text.Blank

/-!
# The daemon

The daemon loads a rule set, sets the clock, and then answers commands line by line until its
input ends. Blanks around a command and blank lines do not count.
-/

namespace Blackout.Daemon

inductive StartError where
  | badRuleSet (path : String) (error : LoadError)
  | badStartTime (text : String)

def StartError.message : StartError → String
  | badRuleSet path error =>
    "Failed to load rule set from " ++ Text.quoted path ++ ": " ++ error.message
  | badStartTime text => "Invalid start time '" ++ text ++ "'"

/-- Service that is run with some settings, where `present` is the time of day unless a start
time is given. -/
def start (here : Zone) (settings : Settings) (content : FileContent) (present : Instant) :
    Except StartError Service :=
  match RuleSetPolicy.ofFile settings.rules content with
  | .error e => .error (.badRuleSet settings.rules e)
  | .ok policy =>
    match settings.startTime with
    | none => .ok (Service.ofPolicy policy present)
    | some text =>
      match Instant.ofText? here text with
      | some now => .ok (Service.ofPolicy policy now)
      | none => .error (.badStartTime text)

/-- What is said on the error output when a command brings the service down. -/
def breakdownMessage : String := "Local time out of range"

def breakdownCode : Nat := 101

/-- Command of an input line; a blank line has none. -/
def commandOf? (line : String) : Option String :=
  let cs := Text.trimBlanks line.toList
  if cs.isEmpty then none else some (String.ofList cs)

end Blackout.Daemon
