/-!
# Decimal text of whole numbers

Whole numbers are written without leading zeros, or padded with zeros on the left to a
given width. `value` reads a run of ASCII digits back.
-/

namespace Blackout.Text.Decimal

/-! ### Writing -/

/-- Decimal digits of `n`, most significant first; zero is one digit. -/
def digits (n : Nat) : List Char := Nat.toDigits 10 n

/-- Digits of `n` with zeros in front up to `width` characters. -/
def padded (width n : Nat) : List Char :=
  List.replicate (width - (digits n).length) '0' ++ digits n

def signed (i : Int) : List Char :=
  if i < 0 then '-' :: digits i.natAbs else digits i.natAbs

def natText (n : Nat) : String := String.ofList (digits n)

def intText (i : Int) : String := String.ofList (signed i)

/-! ### Reading -/

def digitValue (c : Char) : Nat := c.toNat - '0'.toNat

/-- Number that a run of ASCII digits stands for; the empty run is 0. -/
def value (cs : List Char) : Nat := cs.foldl (fun v c => 10 * v + digitValue c) 0

/-- Exactly `width` ASCII digits at the front, with what follows them. -/
def fixed? (width : Nat) (cs : List Char) : Option (Nat × List Char) :=
  let run := cs.take width
  if run.length = width ∧ run.all Char.isDigit then some (value run, cs.drop width) else none

/-- One to `width` ASCII digits at the front, with what follows them. -/
def upTo? (width : Nat) (cs : List Char) : Option (Nat × List Char) :=
  let run := (cs.take width).takeWhile Char.isDigit
  if run.isEmpty then none else some (value run, cs.drop run.length)

/-- One or more ASCII digits at the front, with what follows them. -/
def many? (cs : List Char) : Option (Nat × List Char) :=
  let run := cs.takeWhile Char.isDigit
  if run.isEmpty then none else some (value run, cs.dropWhile Char.isDigit)

end Blackout.Text.Decimal
