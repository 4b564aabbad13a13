import Blackout.Clock
import Blackout.Window

/-!
# Errors of a session
-/

namespace Blackout

inductive SessionError where
  /-- The rule has no window to wait for. -/
  | noBlackout (rule : String)
  | duplicateRule (rule : String)
  /-- The window of a rule cannot be evaluated. -/
  | blackout (rule : String) (error : WindowError)
  | clock (error : ClockError)
deriving DecidableEq

def SessionError.message : SessionError → String
  | noBlackout rule => "Rule '" ++ rule ++ "' has no blackout window"
  | duplicateRule rule => "Configuration error: Duplicate rule name: " ++ rule
  | blackout rule error => "Blackout of rule '" ++ rule ++ "': " ++ error.message
  | clock error => "Clock error: " ++ error.message

end Blackout
