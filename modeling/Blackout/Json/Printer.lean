import Blackout.Json.Basic
import Blackout.Text.Hexadecimal

/-!
# JSON text

Values are written without blanks. In strings the quote, the backslash and the control
characters below U+0020 are escaped, and all else stands for itself; so a written value has no
line break. A double that is not finite is written as null.
-/

namespace Blackout

open Text Text.Decimal

namespace Json

/-- A character of a string, escaped where it has to be. -/
def escape (c : Char) : List Char :=
  if c = '"' then ['\\', '"']
  else if c = '\\' then ['\\', '\\']
  else if c = '\n' then ['\\', 'n']
  else if c = '\r' then ['\\', 'r']
  else if c = '\t' then ['\\', 't']
  else if c = '\x08' then ['\\', 'b']
  else if c = '\x0c' then ['\\', 'f']
  else if c.toNat < 32 then
    ['\\', 'u', '0', '0', Hexadecimal.digit (c.toNat / 16), Hexadecimal.digit (c.toNat % 16)]
  else [c]

def quoted (s : String) : List Char := '"' :: s.toList.flatMap escape ++ ['"']

def numberChars : Number → List Char
  | .whole value => signed value
  | .double value => if value.isFinite then value.chars else "null".toList

mutual

def chars : Json → List Char
  | null => "null".toList
  | bool true => "true".toList
  | bool false => "false".toList
  | number n => numberChars n
  | text s => quoted s
  | array [] => ['[', ']']
  | array (item :: rest) => '[' :: item.chars ++ itemsChars rest ++ [']']
  | object [] => ['\x7b', '\x7d']
  | object ((key, value) :: rest) =>
    '\x7b' :: quoted key ++ ':' :: value.chars ++ membersChars rest ++ ['\x7d']

def itemsChars : List Json → List Char
  | [] => []
  | item :: rest => ',' :: item.chars ++ itemsChars rest

def membersChars : List (String × Json) → List Char
  | [] => []
  | (key, value) :: rest => ',' :: quoted key ++ ':' :: value.chars ++ membersChars rest

end

def render (value : Json) : String := String.ofList value.chars

end Json

end Blackout
