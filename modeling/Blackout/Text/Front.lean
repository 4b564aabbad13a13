/-!
# The front of a text
-/

namespace Blackout.Text

def after? (c : Char) : List Char → Option (List Char)
  | d :: cs => if d = c then some cs else none
  | [] => none

end Blackout.Text
