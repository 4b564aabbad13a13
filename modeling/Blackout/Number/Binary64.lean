/-!
# Double-precision numbers

A double is a sign and the 63-bit code of its magnitude: 52 bits of fraction below 11 bits of
exponent, so that codes are ordered as magnitudes are. Arithmetic is exact on rationals and
then rounded to the nearest double, ties going to the even code.
-/

namespace Blackout

structure Binary64 where
  negative : Bool
  code : Nat
deriving DecidableEq

namespace Binary64

/-! ### Codes -/

def exponentStep : Nat := 0x10000000000000

/-- Code of infinity; codes above it are not numbers. -/
def infinityCode : Nat := 2047 * exponentStep

def zero (negative : Bool) : Binary64 := ⟨negative, 0⟩

def infinity (negative : Bool) : Binary64 := ⟨negative, infinityCode⟩

def nan : Binary64 := ⟨false, infinityCode + 0x8000000000000⟩

def isFinite (x : Binary64) : Bool := decide (x.code < infinityCode)

/-- Integer part of a magnitude `mantissa · 2 ^ exponent`. -/
def mantissa (code : Nat) : Nat :=
  if code < exponentStep then code else exponentStep + code % exponentStep

/-- Exponent of a magnitude `mantissa · 2 ^ exponent`. -/
def exponent (code : Nat) : Int :=
  if code < exponentStep then -1074 else (code / exponentStep : Nat) - 1075

def ratio (code : Nat) : Nat × Nat :=
  let e := exponent code
  if 0 ≤ e then (mantissa code * Nat.pow 2 e.toNat, 1) else (mantissa code, Nat.pow 2 (-e).toNat)

/-! ### Rounding -/

/-- Quotient rounded to the nearest whole number, ties going to the even one. -/
def roundHalfEven (num den : Nat) : Nat :=
  let quotient := num / den
  let rest := num % den
  if 2 * rest < den then quotient
  else if den < 2 * rest then quotient + 1
  else quotient + quotient % 2

/-- The quotient `num / den` in units of `2 ^ e`, as numerator and denominator. -/
def inUnits (num den : Nat) (e : Int) : Nat × Nat :=
  if 0 ≤ e then (num, den * Nat.pow 2 e.toNat) else (num * Nat.pow 2 (-e).toNat, den)

/-- Exponent of the unit in the last place of `num / den`: the quotient has 53 bits in such
units, or fewer where the exponent has reached its least value. -/
def unitExponent (num den : Nat) : Int :=
  let e := (Nat.log2 num : Int) - Nat.log2 den - 52
  let (n, d) := inUnits num den e
  max (if n < exponentStep * d then e - 1 else e) (-1074)

/-- Code of the double nearest to `num / den`; infinity where the quotient is too large. -/
def nearest (num den : Nat) : Nat :=
  if num = 0 then 0
  else
    let e := unitExponent num den
    let (n, d) := inUnits num den e
    min (roundHalfEven n d + (e + 1074).toNat * exponentStep) infinityCode

/-! ### Arithmetic of magnitudes -/

def mulCode (x y : Nat) : Nat :=
  let (a, b) := ratio x
  let (c, d) := ratio y
  nearest (a * c) (b * d)

def divCode (x y : Nat) : Nat :=
  let (a, b) := ratio x
  let (c, d) := ratio y
  nearest (a * d) (b * c)

def powerOfTen (k : Nat) : Nat := nearest (Nat.pow 10 k) 1

/-- Divides by `10 ^ k` in steps that each round: 308 places at a time, then the rest. -/
def scaleDown (code k : Nat) : Nat :=
  if k ≤ 308 then divCode code (powerOfTen k)
  else if code = 0 then 0
  else scaleDown (divCode code (powerOfTen 308)) (k - 308)
termination_by k

/-- A whole number times a power of ten, rounded first as a whole number and then at each
step of scaling. It is `none` where the scaled number is too large. -/
def scaled? (significand : Nat) (exponent : Int) : Option Nat :=
  let code := nearest significand 1
  if exponent < 0 then some (scaleDown code exponent.natAbs)
  else if code = 0 then some 0
  else if 308 < exponent then none
  else
    let result := mulCode code (powerOfTen exponent.toNat)
    if result < infinityCode then some result else none

/-- Nearest double to a whole number times a power of ten, rounded once. Numbers far outside the
range of doubles are told by their number of digits. -/
def ofDecimal (negative : Bool) (significand : Nat) (exponent : Int) : Binary64 :=
  let scale := (Nat.toDigits 10 significand).length + exponent
  if significand = 0 ∨ scale < -400 then zero negative
  else if 400 < scale then infinity negative
  else if 0 ≤ exponent then ⟨negative, nearest (significand * Nat.pow 10 exponent.toNat) 1⟩
  else ⟨negative, nearest significand (Nat.pow 10 exponent.natAbs)⟩

end Binary64

end Blackout
