import Blackout.Text.Quoted.Table

/-!
# Quoted text in messages

A text is quoted so that every character of it can be seen: the quote and the backslash are
escaped with a backslash, and a character that shows nothing is given by its code point.
-/

namespace Blackout.Text

namespace Quoted

def hex (n : Nat) : List Char := Nat.toDigits 16 n

def isHidden (c : Char) : Bool :=
  decide (c.toNat < 32) ||
    hiddenRanges.any fun (first, last) => decide (first ≤ c.toNat ∧ c.toNat ≤ last)

def escape (c : Char) : List Char :=
  match c with
  | '\x00' => ['\\', '0']
  | '\t' => ['\\', 't']
  | '\r' => ['\\', 'r']
  | '\n' => ['\\', 'n']
  | '"' => ['\\', '"']
  | '\\' => ['\\', '\\']
  | c => if isHidden c then ['\\', 'u', '\x7b'] ++ hex c.toNat ++ ['\x7d'] else [c]

end Quoted

def quoted (s : String) : String :=
  String.ofList ('"' :: s.toList.flatMap Quoted.escape ++ ['"'])

end Blackout.Text
