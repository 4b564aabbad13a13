import Blackout.Number.Binary64
import Blackout.Text.Decimal

/-!
# Shortest decimal text of doubles

A finite double is written with the fewest digits that read back as the same double, and of
the decimals with so few digits with the one nearest to it.
-/

namespace Blackout.Binary64

open Text.Decimal

/-! ### Digits -/

/-- A magnitude and the ends of the interval of numbers that round to it, as numerators over
one denominator. The ends belong to the interval when the magnitude's code is even. -/
structure Interval where
  low : Nat
  value : Nat
  high : Nat
  den : Nat
  closed : Bool

/-- Interval of a positive magnitude, in quarters of its unit in the last place. The gap below
the least mantissa of an exponent is half as wide as the gap above it. -/
def interval (code : Nat) : Interval :=
  let m := mantissa code
  let below := if code % exponentStep = 0 ∧ exponentStep < code then 1 else 2
  let e := exponent code - 2
  let (scale, den) := if 0 ≤ e then (Nat.pow 2 e.toNat, 1) else (1, Nat.pow 2 (-e).toNat)
  ⟨(4 * m - below) * scale, 4 * m * scale, (4 * m + 2) * scale, den, m % 2 = 0⟩

/-- A decimal `digits · 10 ^ exponent`. -/
structure Decimal where
  digits : Nat
  exponent : Int

/-- The decimal's numerator and that of `x / den`, over one denominator. -/
def Decimal.align (d : Decimal) (x den : Nat) : Nat × Nat :=
  if 0 ≤ d.exponent then (d.digits * Nat.pow 10 d.exponent.toNat * den, x)
  else (d.digits * den, x * Nat.pow 10 (-d.exponent).toNat)

def Interval.holds (i : Interval) (d : Decimal) : Bool :=
  let (a, low) := d.align i.low i.den
  let (b, high) := d.align i.high i.den
  if i.closed then decide (low ≤ a ∧ b ≤ high) else decide (low < a ∧ b < high)

/-- Decimal exponent of the leading digit of `num / den`. -/
def leadingExponent (num den : Nat) : Int :=
  if den ≤ num then ((digits (num / den)).length : Int) - 1
  else
    let places := (digits (den / num)).length
    if den ≤ num * Nat.pow 10 (places - 1) then 1 - (places : Int) else -(places : Int)

/-- The `n`-digit decimal that reads back as the magnitude and is nearest to it, if there is
one: of the two neighbours on the grid of `n` digits, the nearer one in the interval. -/
def withDigits? (i : Interval) (n : Nat) : Option Decimal :=
  let p := leadingExponent i.value i.den - (n : Int) + 1
  let lower := if 0 ≤ p then i.value / (i.den * Nat.pow 10 p.toNat)
    else i.value * Nat.pow 10 (-p).toNat / i.den
  let below : Decimal := ⟨lower, p⟩
  let above : Decimal := ⟨lower + 1, p⟩
  let (a, v) := below.align i.value i.den
  let (b, w) := above.align i.value i.den
  let fallFirst := v - a < b - w ∨ (v - a = b - w ∧ lower % 2 = 0)
  let order := if fallFirst then [below, above] else [above, below]
  order.find? i.holds

def shortest (code : Nat) : Decimal :=
  let i := interval code
  ((List.range' 1 17).findSome? (withDigits? i)).getD ⟨0, 0⟩

/-! ### Layout -/

/-- Digits in positional notation, the leading one at `10 ^ lead`. -/
def positional (ds : List Char) (lead : Int) : List Char :=
  if lead < 0 then '0' :: '.' :: List.replicate (lead.natAbs - 1) '0' ++ ds
  else
    let whole := lead.toNat + 1
    let rest := ds.drop whole
    ds.take whole ++ List.replicate (whole - ds.length) '0' ++
      '.' :: (if rest.isEmpty then ['0'] else rest)

/-- Digits in scientific notation, with a signed exponent of two digits or more. -/
def scientific (ds : List Char) (lead : Int) : List Char :=
  let rest := ds.drop 1
  ds.take 1 ++ (if rest.isEmpty then [] else '.' :: rest) ++
    'e' :: (if lead < 0 then '-' else '+') :: padded 2 lead.natAbs

/-- Decimal text of a finite double: always with a point or an exponent, positional from
10 ^ -5 up to 10 ^ 16. -/
def chars (x : Binary64) : List Char :=
  let body :=
    if x.code = 0 then ['0', '.', '0']
    else
      let d := shortest x.code
      let all := digits d.digits
      let ds := (all.reverse.dropWhile (· == '0')).reverse
      let lead := d.exponent + (all.length : Int) - 1
      if -5 ≤ lead ∧ lead < 16 then positional ds lead else scientific ds lead
  if x.negative then '-' :: body else body

end Blackout.Binary64
