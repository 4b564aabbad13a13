import Blackout.Text.Hexadecimal
import Blackout.Toml.Scanner

/-!
# TOML strings

There are four forms: between quotes, where a backslash starts an escape, or between
apostrophes, where nothing is escaped; and each on one line or, between three delimiters, on
several. In the forms with several lines every line end is a line feed, one right after the
opening delimiter is dropped, and one or two delimiters may stand by themselves.
-/

namespace Blackout.Toml

open Scanner

namespace Text

/-! ### Escapes -/

/-- Character given by its code in a fixed number of hexadecimal digits. Surrogates and codes
beyond the last character are none. -/
def coded (width : Nat) : Scanner Char := do
  let ds ← times (one fun c => (Blackout.Text.Hexadecimal.value? c).isSome) width
  let code := ds.foldl (fun n c => 16 * n + (Blackout.Text.Hexadecimal.value? c).getD 0) 0
  if (Char.ofNat code).toNat = code then return Char.ofNat code else failure

def escape : Scanner Char := do
  char '\\'
  match ← one fun _ => true with
  | '"' => return '"'
  | '\\' => return '\\'
  | 'b' => return '\x08'
  | 'f' => return '\x0c'
  | 'n' => return '\n'
  | 'r' => return '\r'
  | 't' => return '\t'
  | 'u' => coded 4
  | 'U' => coded 8
  | _ => failure

/-! ### Strings on one line -/

def isPlain (c : Char) : Bool := isPrintable c && c != '"' && c != '\\'

def isLiteral (c : Char) : Bool := isPrintable c && c != '\''

def quoted : Scanner (List Char) := do
  char '"'
  let cs ← many (one isPlain <|> escape)
  char '"'
  return cs

def literal : Scanner (List Char) := do
  char '\''
  let cs ← run isLiteral
  char '\''
  return cs

/-! ### Strings on several lines -/

def lineFeed : Scanner (List Char) := do
  newline
  return ['\n']

/-- A backslash at the end of a line, with all blanks and line ends after it. -/
def joinedLines : Scanner (List Char) := do
  char '\\'
  spaces
  newline
  let _ ← many (newline <|> do let _ ← one isSpace)
  return []

def loose (delimiter : Char) : Scanner (List Char) := do
  let cs ← run (· == delimiter)
  if cs.length = 1 ∨ cs.length = 2 then return cs else failure

/-- Three delimiters that close a string. One or two more before them belong to it. -/
def closing (delimiter : Char) : Scanner (List Char) := do
  let run := (← get).takeWhile (· == delimiter)
  let surplus := min (run.length - 3) 2
  let _ ← times (char delimiter) (surplus + 3)
  return List.replicate surplus delimiter

def multiline (delimiter : Char) (piece : Scanner (List Char)) : Scanner (List Char) := do
  let _ ← times (char delimiter) 3
  let _ ← possibly newline
  let pieces ← many (piece <|> loose delimiter)
  return pieces.flatten ++ (← closing delimiter)

def multilineQuoted : Scanner (List Char) :=
  multiline '"' <|
    (do return [← one isPlain]) <|> joinedLines <|> (do return [← escape]) <|> lineFeed

def multilineLiteral : Scanner (List Char) :=
  multiline '\'' <| (do return [← one isLiteral]) <|> lineFeed

/-! ### All forms -/

def short : Scanner String := do return String.ofList (← quoted <|> literal)

def string : Scanner String := do
  return String.ofList (← multilineQuoted <|> quoted <|> multilineLiteral <|> literal)

end Text

end Blackout.Toml
