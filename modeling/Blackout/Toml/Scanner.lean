/-!
# Scanners

A scanner takes a value off the front of a text, or fails and leaves the text as it was.
Repetition is bounded by the length of the text, which suffices for scanners that take at
least one character each time.
-/

namespace Blackout.Toml

abbrev Scanner (α : Type) := StateT (List Char) Option α

namespace Scanner

variable {α : Type}

def one (p : Char → Bool) : Scanner Char := do
  match ← get with
  | [] => failure
  | c :: cs =>
    if p c then
      set cs
      return c
    else failure

def char (c : Char) : Scanner Unit := do
  let _ ← one (· == c)

def run (p : Char → Bool) : Scanner (List Char) := do
  let cs ← get
  set (cs.dropWhile p)
  return cs.takeWhile p

def word : List Char → Scanner Unit
  | [] => pure ()
  | c :: cs => do
    char c
    word cs

def possibly (scan : Scanner α) : Scanner (Option α) := (do return some (← scan)) <|> pure none

def upTo (scan : Scanner α) : Nat → Scanner (List α)
  | 0 => pure []
  | n + 1 => do
    match ← possibly scan with
    | none => return []
    | some a => return a :: (← upTo scan n)

def many (scan : Scanner α) : Scanner (List α) := do upTo scan (← get).length

def times (scan : Scanner α) : Nat → Scanner (List α)
  | 0 => pure []
  | n + 1 => do
    let a ← scan
    return a :: (← times scan n)

def separated (separator : Scanner Unit) (scan : Scanner α) : Scanner (List α) := do
  let first ← scan
  let rest ← many do
    separator
    scan
  return first :: rest

def separatedOrNone (separator : Scanner Unit) (scan : Scanner α) : Scanner (List α) :=
  separated separator scan <|> pure []

/-! ### Blanks, line ends and comments -/

def isSpace (c : Char) : Bool := c == ' ' || c == '\t'

/-- Whether a character may stand in a comment: no control character but the tab. -/
def isPrintable (c : Char) : Bool := c == '\t' || (32 ≤ c.toNat && c.toNat ≠ 127)

def spaces : Scanner Unit := do
  let _ ← run isSpace

def newline : Scanner Unit := char '\n' <|> word ['\r', '\n']

def comment : Scanner Unit := do
  char '#'
  let _ ← run isPrintable

def finish : Scanner Unit := do
  if (← get).isEmpty then pure () else failure

def blankLines : Scanner Unit := do
  spaces
  let _ ← many do
    newline <|> (do comment; newline)
    spaces

def lineEnd : Scanner Unit := do
  spaces
  let _ ← possibly comment
  newline <|> finish

end Scanner

end Blackout.Toml
