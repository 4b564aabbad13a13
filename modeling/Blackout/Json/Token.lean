import Blackout.Json.Basic
import Blackout.Text.Hexadecimal

/-!
# Tokens of JSON text

Text is split into brackets, separators and leaves, which are words, strings and numbers. A
faulty leaf carries its fault. There are two of them: reading a leaf for its value is stricter
than skipping it, since a skipped string may hold a lone surrogate and a skipped number may be
too large. Splitting goes on after a leaf that can be skipped, and stops after any other fault.
-/

namespace Blackout.Json

open Text.Decimal

inductive Fault where
  /-- A character that no JSON text has there. -/
  | malformed
  | truncated
deriving DecidableEq

inductive Leaf where
  | null
  | bool (value : Bool)
  | number (value : Number)
  | text (value : String)
  /-- A leaf that cannot be read for its value, and perhaps cannot be skipped either. -/
  | faulty (kept : Fault) (skipped : Option Fault)
deriving DecidableEq

inductive Token where
  | openArray
  | closeArray
  | openObject
  | closeObject
  | comma
  | colon
  | leaf (value : Leaf)
  | string (value : Leaf)
  | stray
deriving DecidableEq

def Leaf.broken (f : Fault) : Leaf := .faulty f (some f)

def Leaf.skippable : Leaf → Bool
  | .faulty _ (some _) => false
  | _ => true

def Token.goesOn : Token → Bool
  | .stray => false
  | .leaf l | .string l => l.skippable
  | _ => true

namespace Scan

/-! ### Words -/

def word (leaf : Leaf) : List Char → List Char → Leaf × List Char
  | [], cs => (leaf, cs)
  | _ :: _, [] => (.broken .truncated, [])
  | e :: es, c :: cs => if c = e then word leaf es cs else (.broken .malformed, c :: cs)

/-! ### Strings -/

/-- What has been read of a string: its characters in reverse, a leading surrogate that waits
for its partner, and the first fault of its value. -/
structure Held where
  reversed : List Char
  lead : Option Nat
  fault : Option Fault

namespace Held

def empty : Held := ⟨[], none, none⟩

def fail (h : Held) (f : Fault) : Held := { h with lead := none, fault := h.fault <|> some f }

def settle (h : Held) (f : Fault) : Held := if h.lead.isSome then h.fail f else h

def push (h : Held) (c : Char) : Held :=
  let h := h.settle .malformed
  { h with reversed := c :: h.reversed }

/-- Adds a UTF-16 unit given by its number. A leading surrogate waits for a trailing one. -/
def pushUnit (h : Held) (n : Nat) : Held :=
  if 0xDC00 ≤ n ∧ n ≤ 0xDFFF then
    match h.lead with
    | some l => { h with
        reversed := Char.ofNat ((l - 0xD800) * 1024 + (n - 0xDC00) + 0x10000) :: h.reversed
        lead := none }
    | none => h.fail .malformed
  else
    let h := h.settle .malformed
    if 0xD800 ≤ n ∧ n ≤ 0xDBFF then
      if h.fault.isSome then h else { h with lead := some n }
    else h.push (Char.ofNat n)

def close (h : Held) : Leaf :=
  match (h.settle .malformed).fault with
  | none => .text (String.ofList h.reversed.reverse)
  | some f => .faulty f none

def stop (h : Held) (f : Fault) : Leaf := .faulty (h.fault.getD f) (some f)

end Held

def hexUnit? (a b c d : Char) : Option Nat := do
  let high := 16 * (← Text.Hexadecimal.value? a) + (← Text.Hexadecimal.value? b)
  let low := 16 * (← Text.Hexadecimal.value? c) + (← Text.Hexadecimal.value? d)
  return 256 * high + low

def escaped? : Char → Option Char
  | '"' => some '"'
  | '\\' => some '\\'
  | '/' => some '/'
  | 'b' => some '\x08'
  | 'f' => some '\x0c'
  | 'n' => some '\n'
  | 'r' => some '\r'
  | 't' => some '\t'
  | _ => none

/-- Fault of an escape `\u` that fewer than four characters follow: the text is cut short
unless four bytes are left. -/
def shortEscape (cs : List Char) : Fault :=
  if 4 ≤ cs.foldr (fun c n => c.utf8Size + n) 0 then .malformed else .truncated

def string : Held → List Char → Leaf × List Char
  | h, [] => (h.stop .truncated, [])
  | h, '"' :: cs => (h.close, cs)
  | h, ['\\'] => (h.stop .truncated, [])
  | h, '\\' :: 'u' :: a :: b :: c :: d :: cs =>
    match hexUnit? a b c d with
    | some n => string (h.pushUnit n) cs
    | none => (h.stop .malformed, cs)
  | h, '\\' :: 'u' :: cs => (h.stop (shortEscape cs), [])
  | h, '\\' :: e :: cs =>
    match escaped? e with
    | some c => string (h.push c) cs
    | none => ((h.settle .malformed).stop .malformed, cs)
  | h, c :: cs =>
    if c.toNat < 32 then ((h.settle .malformed).stop .malformed, cs) else string (h.push c) cs

/-! ### Numbers -/

/-- Largest significand kept of a number that is not whole: digits that would exceed it are
dropped. -/
def significandLimit : Nat := 0xffffffffffffffff

/-- Takes up digits while the significand stays within its limit. Returns the significand and
the number of digits taken. -/
def absorb (significand : Nat) : List Char → Nat × Nat
  | [] => (significand, 0)
  | c :: cs =>
    let next := 10 * significand + digitValue c
    if next ≤ significandLimit then
      let (s, taken) := absorb next cs
      (s, taken + 1)
    else (significand, 0)

/-- Double of a significand, a power of ten and a sign; a number too large is malformed. -/
def doubleLeaf (negative : Bool) (significand : Nat) (exponent : Int) : Leaf :=
  match Binary64.scaled? significand exponent with
  | some code => .number (.double ⟨negative, code⟩)
  | none => .faulty .malformed none

/-- Number without fraction and exponent: whole if 64 bits hold it, else a double. Minus zero
is a double. -/
def wholeLeaf (negative : Bool) (run : List Char) : Leaf :=
  let n := value run
  if negative then
    if 0 < n ∧ n ≤ 0x8000000000000000 then .number (.whole (-(n : Int)))
    else
      let (significand, taken) := absorb 0 run
      doubleLeaf true significand (run.length - taken : Nat)
  else if n ≤ significandLimit then .number (.whole n)
  else
    let (significand, taken) := absorb 0 run
    doubleLeaf false significand (run.length - taken : Nat)

/-- A missing digit: the text is cut short for a number read for its value. -/
def missingDigit (cs : List Char) : Leaf :=
  .faulty (if cs.isEmpty then .truncated else .malformed) (some .malformed)

def exponentPart (negative : Bool) (significand : Nat) (scale : Int) (cs : List Char) :
    Leaf × List Char :=
  let (sign, cs) := match cs with
    | '+' :: cs => ((1 : Int), cs)
    | '-' :: cs => (-1, cs)
    | cs => (1, cs)
  let run := cs.takeWhile Char.isDigit
  let rest := cs.dropWhile Char.isDigit
  if run.isEmpty then (missingDigit cs, cs)
  else (doubleLeaf negative significand (scale + sign * value run), rest)

/-- Reads the fraction of a number after its point, and the exponent. -/
def fractionPart (negative : Bool) (significand : Nat) (scale : Int) (cs : List Char) :
    Leaf × List Char :=
  let run := cs.takeWhile Char.isDigit
  let rest := cs.dropWhile Char.isDigit
  if run.isEmpty then (missingDigit cs, cs)
  else
    let (significand, taken) := absorb significand run
    let scale := scale - taken
    match rest with
    | 'e' :: rest | 'E' :: rest => exponentPart negative significand scale rest
    | rest => (doubleLeaf negative significand scale, rest)

def number (negative : Bool) (cs : List Char) : Leaf × List Char :=
  let run := cs.takeWhile Char.isDigit
  let rest := cs.dropWhile Char.isDigit
  if run.isEmpty then (missingDigit cs, cs)
  else if run.head? = some '0' ∧ 1 < run.length then (.broken .malformed, rest)
  else
    let (significand, taken) := absorb 0 run
    let scale : Int := (run.length - taken : Nat)
    match rest with
    | '.' :: rest => fractionPart negative significand scale rest
    | 'e' :: rest | 'E' :: rest => exponentPart negative significand scale rest
    | rest => (wholeLeaf negative run, rest)

/-! ### Splitting -/

/-- Blanks between tokens: space, tab, line feed and carriage return. -/
def isSpace (c : Char) : Bool := c == ' ' || c == '\t' || c == '\n' || c == '\r'

/-- First token of text that starts with a character other than a blank, and what follows. -/
def nextToken (c : Char) (cs : List Char) : Token × List Char :=
  let leaf (l : Leaf × List Char) : Token × List Char := (.leaf l.1, l.2)
  match c with
  | '[' => (.openArray, cs)
  | ']' => (.closeArray, cs)
  | '\x7b' => (.openObject, cs)
  | '\x7d' => (.closeObject, cs)
  | ',' => (.comma, cs)
  | ':' => (.colon, cs)
  | 'n' => leaf (word .null ['u', 'l', 'l'] cs)
  | 't' => leaf (word (.bool true) ['r', 'u', 'e'] cs)
  | 'f' => leaf (word (.bool false) ['a', 'l', 's', 'e'] cs)
  | '"' =>
    let (l, cs) := string .empty cs
    (.string l, cs)
  | '-' => leaf (number true cs)
  | c => if c.isDigit then leaf (number false (c :: cs)) else (.stray, [])

/-! ### What is left is shorter -/

theorem word_length (leaf : Leaf) (es cs : List Char) : (word leaf es cs).2.length ≤ cs.length := by
  induction es generalizing cs with
  | nil => simp [word]
  | cons e es ih =>
    cases cs with
    | nil => simp [word]
    | cons c cs =>
      simp only [word]
      split
      · exact Nat.le_trans (ih cs) (by simp)
      · simp

theorem string_length (h : Held) (cs : List Char) : (string h cs).2.length ≤ cs.length := by
  fun_induction string h cs <;> simp_all <;> omega

theorem length_dropWhile_le (p : Char → Bool) (cs : List Char) :
    (cs.dropWhile p).length ≤ cs.length := by
  induction cs with
  | nil => simp
  | cons c cs ih =>
    simp only [List.dropWhile]
    split
    · exact Nat.le_trans ih (by simp)
    · simp

theorem exponentPart_length (negative : Bool) (significand : Nat) (scale : Int) (cs : List Char) :
    (exponentPart negative significand scale cs).2.length ≤ cs.length := by
  simp only [exponentPart]
  have h := length_dropWhile_le Char.isDigit
  split
  · split
    · simp
    · exact Nat.le_trans (h _) (by simp)
  · split
    · simp
    · exact Nat.le_trans (h _) (by simp)
  · split
    · simp
    · exact h _

theorem fractionPart_length (negative : Bool) (significand : Nat) (scale : Int) (cs : List Char) :
    (fractionPart negative significand scale cs).2.length ≤ cs.length := by
  have h := length_dropWhile_le Char.isDigit cs
  have e := exponentPart_length negative (absorb significand (cs.takeWhile Char.isDigit)).1
    (scale - (absorb significand (cs.takeWhile Char.isDigit)).2)
  simp only [fractionPart]
  split
  · simp
  · split
    · rename_i rest hr
      have := e rest
      simp only [hr, List.length_cons] at h
      omega
    · rename_i rest hr
      have := e rest
      simp only [hr, List.length_cons] at h
      omega
    · exact h

theorem number_length (negative : Bool) (cs : List Char) :
    (number negative cs).2.length ≤ cs.length := by
  have h := length_dropWhile_le Char.isDigit cs
  simp only [number]
  split
  · simp
  · split
    · exact h
    · split
      · rename_i rest hr
        simp only [hr, List.length_cons] at h
        exact Nat.le_trans (fractionPart_length ..) (by omega)
      · rename_i rest hr
        simp only [hr, List.length_cons] at h
        exact Nat.le_trans (exponentPart_length ..) (by omega)
      · rename_i rest hr
        simp only [hr, List.length_cons] at h
        exact Nat.le_trans (exponentPart_length ..) (by omega)
      · exact h

theorem number_digit_length (c : Char) (cs : List Char) (hc : c.isDigit = true) :
    (number false (c :: cs)).2.length ≤ cs.length := by
  have h := length_dropWhile_le Char.isDigit cs
  simp only [number, List.takeWhile, List.dropWhile, hc]
  split
  · simp at *
  · split
    · exact h
    · split
      · rename_i rest hr
        simp only [hr, List.length_cons] at h
        exact Nat.le_trans (fractionPart_length ..) (by omega)
      · rename_i rest hr
        simp only [hr, List.length_cons] at h
        exact Nat.le_trans (exponentPart_length ..) (by omega)
      · rename_i rest hr
        simp only [hr, List.length_cons] at h
        exact Nat.le_trans (exponentPart_length ..) (by omega)
      · exact h

theorem nextToken_length (c : Char) (cs : List Char) : (nextToken c cs).2.length ≤ cs.length := by
  simp only [nextToken]
  split <;> try simp
  · exact word_length ..
  · exact word_length ..
  · exact word_length ..
  · exact string_length ..
  · exact number_length ..
  · split
    · exact number_digit_length _ _ (by assumption)
    · simp

/-- Tokens of a text, up to its end or to the first fault that cannot be skipped. -/
def tokens (cs : List Char) : List Token :=
  match cs with
  | [] => []
  | c :: cs =>
    if isSpace c then tokens cs
    else
      let step := nextToken c cs
      if step.1.goesOn then step.1 :: tokens step.2 else [step.1]
termination_by cs.length
decreasing_by
  · simp
  · have := nextToken_length c cs
    simp only [List.length_cons]
    omega

end Scan

end Blackout.Json
