import Blackout.Text.Lowercase.Table

/-!
# Lower-case text

Full Unicode lower case: every letter with a lower-case letter becomes that letter, the dotted
capital I becomes an i and a combining dot, and a capital sigma becomes a final sigma at the
end of a word. A sigma ends a word when a cased letter comes before it and none comes after
it, characters that are ignored for case not counting.
-/

namespace Blackout.Text

namespace Lowercase

def inRanges (ranges : List (Nat × Nat)) (n : Nat) : Bool :=
  ranges.any fun (first, last) => decide (first ≤ n ∧ n ≤ last)

/-- Lower-case letter of one letter; all other characters stand for themselves. -/
def letter (c : Char) : Char :=
  let n := c.toNat
  let holds : Nat × Nat × Nat × Nat → Bool := fun (first, last, step, _) =>
    decide (first ≤ n ∧ n ≤ last ∧ (n - first) % step = 0)
  match mappings.find? holds with
  | some (first, _, _, target) => Char.ofNat (target + (n - first))
  | none => c

/-- Whether the first character that is not ignored for case is a cased letter. -/
def startsCased (cs : List Char) : Bool :=
  match cs.dropWhile fun c => inRanges ignorableRanges c.toNat with
  | c :: _ => inRanges casedRanges c.toNat
  | [] => false

/-- Lower case of the characters that follow `before`, which is in reverse. -/
def chars (before : List Char) : List Char → List Char
  | [] => []
  | c :: cs =>
    let lower :=
      if c = '\u03A3' then
        if startsCased before && !startsCased cs then ['\u03C2'] else ['\u03C3']
      else if c = '\u0130' then ['i', '\u0307']
      else [letter c]
    lower ++ chars (c :: before) cs

end Lowercase

def lowercase (s : String) : String := String.ofList (Lowercase.chars [] s.toList)

end Blackout.Text
