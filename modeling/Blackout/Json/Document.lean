import Blackout.Json.Token

/-!
# JSON documents

A document is read into a tree as far as its text allows, with faults where they stand. So
whoever reads the tree from left to right meets the first fault of the text in its place: a
value of the wrong type comes before a fault of the text behind it.

The tree is built by a machine that takes one token at a time. Its state is what may come next
together with the containers that are still open.
-/

namespace Blackout.Json

/-- Part of a document. A container whose text breaks off between its parts ends with a fault.
The key of a member can be faulty. -/
inductive Node where
  | leaf (value : Leaf)
  | array (items : List Node) (tail : Option Fault)
  | object (members : List (Except Fault String × Node)) (tail : Option Fault)
deriving Inhabited

abbrev Member := Except Fault String × Node

structure Document where
  root : Node
  trailing : Option Fault

/-! ### The machine -/

/-- An open container around the value that comes next, with what it holds already, latest
first. -/
inductive Frame where
  | item (done : List Node)
  | member (done : List Member) (key : Except Fault String)

/-- What comes next, inside the open containers `stack`, innermost first. -/
inductive State where
  | value (stack : List Frame)
  /-- The first item of an array, or its end. -/
  | firstItem (stack : List Frame)
  /-- A comma or the end of an array. -/
  | afterItem (done : List Node) (stack : List Frame)
  /-- The first key of an object, or its end. -/
  | firstKey (stack : List Frame)
  | key (done : List Member) (stack : List Frame)
  | colon (done : List Member) (key : Except Fault String) (stack : List Frame)
  /-- A comma or the end of an object. -/
  | afterMember (done : List Member) (stack : List Frame)
  /-- Nothing: the root is complete. -/
  | finished (root : Node)

def deliver (value : Node) : List Frame → State
  | [] => .finished value
  | .item done :: stack => .afterItem (value :: done) stack
  | .member done key :: stack => .afterMember ((key, value) :: done) stack

def unwind (value : Node) : List Frame → Node
  | [] => value
  | .item done :: stack => unwind (.array (value :: done).reverse none) stack
  | .member done key :: stack => unwind (.object ((key, value) :: done).reverse none) stack

def State.stop (f : Fault) : State → Document
  | value stack => ⟨unwind (.leaf (.broken f)) stack, none⟩
  | firstItem stack => ⟨unwind (.array [] (some f)) stack, none⟩
  | afterItem done stack => ⟨unwind (.array done.reverse (some f)) stack, none⟩
  | firstKey stack => ⟨unwind (.object [] (some f)) stack, none⟩
  | key done stack => ⟨unwind (.object done.reverse (some f)) stack, none⟩
  | colon done k stack =>
    ⟨unwind (.object ((k, .leaf (.broken f)) :: done).reverse none) stack, none⟩
  | afterMember done stack => ⟨unwind (.object done.reverse (some f)) stack, none⟩
  | finished root => ⟨root, some f⟩

def State.finish : State → Document
  | finished root => ⟨root, none⟩
  | state => state.stop .truncated

def takeValue (stack : List Frame) : Token → State ⊕ Document
  | .openArray => .inl (.firstItem stack)
  | .openObject => .inl (.firstKey stack)
  | .leaf l | .string l =>
    if l.skippable then .inl (deliver (.leaf l) stack)
    else .inr ⟨unwind (.leaf l) stack, none⟩
  | _ => .inr (State.stop .malformed (.value stack))

/-- Takes a key. A string that cannot be skipped ends the text within it. -/
def takeKey (done : List Member) (stack : List Frame) : Token → State ⊕ Document
  | .string (.text s) => .inl (.colon done (.ok s) stack)
  | .string (.faulty kept none) => .inl (.colon done (.error kept) stack)
  | .string (.faulty kept (some f)) => .inr (State.stop f (.colon done (.error kept) stack))
  | _ => .inr (State.stop .malformed (.key done stack))

def State.step (state : State) (token : Token) : State ⊕ Document :=
  match state, token with
  | value stack, t => takeValue stack t
  | firstItem stack, .closeArray => .inl (deliver (.array [] none) stack)
  | firstItem stack, t => takeValue (.item [] :: stack) t
  | afterItem done stack, .comma => .inl (.value (.item done :: stack))
  | afterItem done stack, .closeArray => .inl (deliver (.array done.reverse none) stack)
  | firstKey stack, .closeObject => .inl (deliver (.object [] none) stack)
  | firstKey stack, t => takeKey [] stack t
  | key done stack, t => takeKey done stack t
  | colon done k stack, .colon => .inl (.value (.member done k :: stack))
  | afterMember done stack, .comma => .inl (.key done stack)
  | afterMember done stack, .closeObject => .inl (deliver (.object done.reverse none) stack)
  | state, _ => .inr (state.stop .malformed)

def State.run (state : State) : List Token → Document
  | [] => state.finish
  | t :: ts =>
    match state.step t with
    | .inl next => next.run ts
    | .inr document => document

def Document.ofText (text : String) : Document := (State.value []).run (Scan.tokens text.toList)

/-! ### Values as trees -/

mutual

def toNode : Json → Node
  | null => .leaf .null
  | bool b => .leaf (.bool b)
  | number n => .leaf (.number n)
  | text s => .leaf (.text s)
  | array items => .array (itemNodes items) none
  | object members => .object (memberNodes members) none

def itemNodes : List Json → List Node
  | [] => []
  | item :: rest => item.toNode :: itemNodes rest

def memberNodes : List (String × Json) → List Member
  | [] => []
  | (key, value) :: rest => (.ok key, value.toNode) :: memberNodes rest

end

mutual

/-- Value of a tree without faults. Of members with the same key the last one counts, and a
double that is not finite becomes null. -/
def Node.toJson : Node → Json
  | .leaf .null => .null
  | .leaf (.bool b) => .bool b
  | .leaf (.number (.double x)) => if x.isFinite then .number (.double x) else .null
  | .leaf (.number n) => .number n
  | .leaf (.text s) => .text s
  | .leaf (.faulty ..) => .null
  | .array items _ => .array (itemValues items)
  | .object members _ => .ofMembers (memberValues members)

def itemValues : List Node → List Json
  | [] => []
  | item :: rest => item.toJson :: itemValues rest

/-- Values of members; faulty keys have none. -/
def memberValues : List Member → List (String × Json)
  | [] => []
  | (.ok key, value) :: rest => (key, value.toJson) :: memberValues rest
  | (.error _, _) :: rest => memberValues rest

end

end Blackout.Json
