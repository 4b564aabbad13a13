import Blackout.Number.Shortest

/-!
# JSON values

A JSON value with whole numbers kept exactly. An object lists its members in the order in which
they are written; `ofMembers` puts them in the order of their keys, one member for a key.
-/

namespace Blackout

/-- A number: whole if it was written so and fits in 64 bits, else a double. -/
inductive Number where
  | whole (value : Int)
  | double (value : Binary64)
deriving DecidableEq

inductive Json where
  | null
  | bool (value : Bool)
  | number (value : Number)
  | text (value : String)
  | array (items : List Json)
  | object (members : List (String × Json))
deriving BEq, Inhabited

namespace Json

/-! ### Building and looking -/

/-- Adds a member; a member of the same key is replaced. -/
def insertMember (key : String) (value : Json) : List (String × Json) → List (String × Json)
  | [] => [(key, value)]
  | (k, v) :: rest =>
    if key = k then (key, value) :: rest
    else if key < k then (key, value) :: (k, v) :: rest
    else (k, v) :: insertMember key value rest

/-- Object of members in any order; of repeated keys the last one counts. -/
def ofMembers (members : List (String × Json)) : Json :=
  object (members.foldl (fun acc m => insertMember m.1 m.2 acc) [])

def isObject : Json → Bool
  | object _ => true
  | _ => false

def get? (key : String) : Json → Option Json
  | object members => members.lookup key
  | _ => none

def ofNat (n : Nat) : Json := number (.whole n)

def ofInt (i : Int) : Json := number (.whole i)

def ofOption {α : Type} (f : α → Json) : Option α → Json
  | some a => f a
  | none => null

def ofList {α : Type} (f : α → Json) (items : List α) : Json := array (items.map f)

end Json

end Blackout
