import Blackout.Text.Decimal
import Blackout.Text.Hexadecimal

/-!
# Match identifiers

A match is identified by 128 bits. Their text is 32 hexadecimal digits in five groups with
hyphens between them. Also read are the digits without hyphens, and the grouped form between
braces or after `urn:uuid:`.
-/

namespace Blackout

structure MatchId where
  bits : BitVec 128
deriving DecidableEq

inductive MatchIdError where
  | unexpected (character : Char) (position : Nat)
  | plainLength (length : Nat)
  | groupCount (count : Nat)
  | groupLength (group length : Nat)
deriving DecidableEq

open Text Text.Decimal

def MatchIdError.message : MatchIdError → String
  | unexpected character position =>
    "invalid character: expected an optional prefix of `urn:uuid:` followed by [0-9a-fA-F-], " ++
      "found `" ++ character.toString ++ "` at " ++ natText position
  | plainLength length =>
    "invalid length: expected length 32 for simple format, found " ++ natText length
  | groupCount count => "invalid group count: expected 5, found " ++ natText count
  | groupLength group length =>
    "invalid group length in group " ++ natText group ++ ": expected " ++
      natText ([8, 4, 4, 4, 12].getD group 12) ++ ", found " ++ natText length

namespace MatchId

/-! ### Writing -/

def groups : List Nat := [8, 4, 4, 4, 12]

/-- Lower-case hexadecimal digits, most significant first, with zeros in front. -/
def digits (id : MatchId) : List Char :=
  let ds := Nat.toDigits 16 id.bits.toNat
  List.replicate (32 - ds.length) '0' ++ ds

def text (id : MatchId) : String :=
  let ds := id.digits
  String.ofList (ds.take 8 ++ '-' :: (ds.drop 8).take 4 ++ '-' :: (ds.drop 12).take 4 ++
    '-' :: (ds.drop 16).take 4 ++ '-' :: ds.drop 20)

/-- Identifier of 128 random bits, six of which are set to mark it as random. -/
def ofRandom (random : BitVec 128) : MatchId :=
  let mark : BitVec 128 := (4#128 <<< 76) ||| (2#128 <<< 62)
  let marked : BitVec 128 := (15#128 <<< 76) ||| (3#128 <<< 62)
  ⟨(random &&& ~~~marked) ||| mark⟩

/-! ### Reading -/

def value? (cs : List Char) : Option Nat :=
  cs.foldlM (fun v c => (Hexadecimal.value? c).map (16 * v + ·)) 0

/-- Identifier of 32 hexadecimal digits. -/
def ofPlain? (cs : List Char) : Option MatchId :=
  if cs.length = 32 then (value? cs).map fun v => ⟨BitVec.ofNat 128 v⟩ else none

def ofGrouped? (cs : List Char) : Option MatchId :=
  let hyphens := [8, 13, 18, 23].all fun i => cs[i]? == some '-'
  if cs.length = 36 ∧ hyphens then
    ofPlain? (cs.take 8 ++ (cs.drop 9).take 4 ++ (cs.drop 14).take 4 ++ (cs.drop 19).take 4 ++
      cs.drop 24)
  else none

def braced? (cs : List Char) : Option (List Char) :=
  match cs with
  | '\x7b' :: rest => if rest.getLast? = some '\x7d' then some rest.dropLast else none
  | _ => none

/-- What follows `urn:uuid:`. -/
def named? (cs : List Char) : Option (List Char) :=
  if cs.take 9 = "urn:uuid:".toList then some (cs.drop 9) else none

def size (cs : List Char) : Nat := cs.foldr (fun c n => c.utf8Size + n) 0

/-- Positions, in bytes, of the hyphens among hexadecimal digits, or the first other character
with its position. -/
def hyphens (position : Nat) : List Char → Except MatchIdError (List Nat)
  | [] => .ok []
  | c :: cs =>
    if c = '-' then (hyphens (position + 1) cs).map (position :: ·)
    else if (Hexadecimal.value? c).isSome then hyphens (position + 1) cs
    else .error (.unexpected c position)

/-- What is wrong with the groups of a text that has four hyphens at these positions. -/
def groupFault (length : Nat) (found : List Nat) : MatchIdError :=
  let starts := [0, 9, 14, 19]
  let ends := [8, 13, 18, 23]
  let pairs := (List.range 4).map fun i => (i, found.getD i 0, starts.getD i 0, ends.getD i 0)
  match pairs.find? fun (_, hyphen, _, stop) => hyphen != stop with
  | some (i, hyphen, start, _) => .groupLength i (hyphen - start)
  | none => .groupLength 4 (length - 24)

def fault (cs : List Char) : MatchIdError :=
  let (body, offset, plain) := match braced? cs, named? cs with
    | some body, _ => (body, 1, false)
    | none, some body => (body, 9, false)
    | none, none => (cs, 0, true)
  match hyphens 0 body with
  | .error (.unexpected c position) => .unexpected c (position + offset + 1)
  | .error e => e
  | .ok found =>
    if found.isEmpty ∧ plain then .plainLength (size cs)
    else if found.length ≠ 4 then .groupCount (found.length + 1)
    else groupFault (size cs) found

def ofText (text : String) : Except MatchIdError MatchId :=
  let cs := text.toList
  let found := ofPlain? cs <|> ofGrouped? cs <|> ((braced? cs).bind ofGrouped?) <|>
    ((named? cs).bind ofGrouped?)
  match found with
  | some id => .ok id
  | none => .error (fault cs)

end MatchId

end Blackout
