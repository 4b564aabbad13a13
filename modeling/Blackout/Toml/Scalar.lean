import Blackout.Calendar.Date
import Blackout.Json.Basic
import Blackout.Text.Decimal
import Blackout.Text.Hexadecimal
import Blackout.Toml.Scanner

/-!
# TOML numbers, dates and times

Single underscores may stand between the digits of a number. Whole numbers fit in 64 bits
with their sign. A date or a time is kept as its text, in a form without variants: the
separator is T, the fraction has at most nine digits and no zeros at its end, and universal
time is Z.
-/

namespace Blackout.Toml

open Scanner

namespace Scalar

/-! ### Digits and signs -/

/-- Digits of a class, with single underscores between them, which are left out. -/
def digits (p : Char → Bool) : Scanner (List Char) := do
  let first ← one p
  let rest ← many (one p <|> do char '_'; one p)
  return first :: rest

def plainDigits : Scanner (List Char) :=
  (do char '0'; return ['0']) <|> digits Char.isDigit

/-- Whether a minus sign stands in front; a plus sign may stand there too. -/
def sign : Scanner Bool :=
  (do char '-'; return true) <|> (do char '+'; return false) <|> pure false

/-! ### Numbers -/

def based (letter : Char) (base : Nat) : Scanner Int := do
  char '0'
  char letter
  let value (c : Char) : Nat := (Text.Hexadecimal.value? c).getD base
  let ds ← digits fun c => value c < base
  return (ds.foldl (fun n c => base * n + value c) 0 : Nat)

def decimal : Scanner Int := do
  let negative ← sign
  let n := Text.Decimal.value (← plainDigits)
  return if negative then -n else n

/-- A whole number in 64 bits. -/
def whole : Scanner Number := do
  let n ← based 'x' 16 <|> based 'o' 8 <|> based 'b' 2 <|> decimal
  if -0x8000000000000000 ≤ n ∧ n ≤ 0x7fffffffffffffff then return .whole n else failure

def exponent : Scanner Int := do
  let _ ← one fun c => c == 'e' || c == 'E'
  let negative ← sign
  let n := Text.Decimal.value (← digits Char.isDigit)
  return if negative then -n else n

def fraction : Scanner (List Char) := do
  char '.'
  digits Char.isDigit

/-- A number with a fraction, an exponent or both. One beyond the largest double is refused,
while one below the least is minus infinity. -/
def broken : Scanner Binary64 := do
  let negative ← sign
  let ds ← plainDigits
  let places ← possibly fraction
  let power ← possibly exponent
  if places.isNone ∧ power.isNone then failure
  let places := places.getD []
  let x := Binary64.ofDecimal negative (Text.Decimal.value (ds ++ places))
    (power.getD 0 - places.length)
  if x = Binary64.infinity false then failure else return x

/-- Infinity with its sign, or what is not a number. -/
def special : Scanner Binary64 := do
  let negative ← sign
  (do word "inf".toList; return Binary64.infinity negative) <|>
    (do word "nan".toList; return Binary64.nan)

def number : Scanner Number := (do return .double (← broken <|> special)) <|> whole

/-! ### Dates and times -/

def fixed (width least greatest : Nat) : Scanner (List Char) := do
  let ds ← times (one Char.isDigit) width
  let n := Text.Decimal.value ds
  if least ≤ n ∧ n ≤ greatest then return ds else failure

def date : Scanner (List Char) := do
  let year ← fixed 4 0 9999
  char '-'
  let month ← fixed 2 1 12
  char '-'
  let length := Calendar.monthLength (Text.Decimal.value year) (Text.Decimal.value month)
  let day ← fixed 2 1 length
  return year ++ '-' :: month ++ '-' :: day

def secondFraction : Scanner (List Char) := do
  char '.'
  let first ← one Char.isDigit
  let rest ← run Char.isDigit
  let kept := (((first :: rest).take 9).reverse.dropWhile (· == '0')).reverse
  return if kept.isEmpty then [] else '.' :: kept

/-- A time of day; second 60 is allowed. -/
def time : Scanner (List Char) := do
  let hour ← fixed 2 0 23
  char ':'
  let minute ← fixed 2 0 59
  char ':'
  let second ← fixed 2 0 60
  let part ← secondFraction <|> pure []
  return hour ++ ':' :: minute ++ ':' :: second ++ part

def offset : Scanner (List Char) :=
  (do let _ ← one fun c => c == 'Z' || c == 'z'; return ['Z']) <|> do
    let sign ← one fun c => c == '+' || c == '-'
    let hour ← fixed 2 0 23
    char ':'
    let minute ← fixed 2 0 59
    let zero := (hour ++ minute).all (· == '0')
    return (if zero then '+' else sign) :: hour ++ ':' :: minute

def timeOnDate : Scanner (List Char) := do
  let _ ← one fun c => c == 'T' || c == 't' || c == ' '
  let t ← time
  return 'T' :: t ++ (← offset <|> pure [])

def dateTime : Scanner String := do
  let cs ← (do return (← date) ++ (← timeOnDate <|> pure [])) <|> time
  return String.ofList cs

/-! ### All scalars but strings -/

/-- Name of the member under which a date or a time stands in a value. -/
def dateTimeKey : String := "$__toml_private_datetime"

def truth : Scanner Bool :=
  (do word "true".toList; return true) <|> (do word "false".toList; return false)

/-- A date or time, a number or a truth value. -/
def value : Scanner Json :=
  (do return .object [(dateTimeKey, .text (← dateTime))]) <|>
    (do return .number (← number)) <|> (do return .bool (← truth))

end Scalar

end Blackout.Toml
