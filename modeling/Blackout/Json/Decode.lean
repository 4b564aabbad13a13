import Blackout.Json.Document
import Blackout.MatchId
import Blackout.Text.Quoted

/-!
# Decoding documents

A reader turns a part of a document into a value or into the first error, taking the parts
from left to right. Records are described by their fields: they are written as objects, or as
arrays of their fields in order.

What a reader demands depends a little on where the part comes from: text nests up to 127
levels deep, and surplus items of a record that is written as an array are treated differently.
-/

namespace Blackout.Json

open Text.Decimal

/-! ### Errors -/

inductive Found where
  | bool (value : Bool)
  | whole (value : Int)
  | double (value : Binary64)
  | text (value : String)
  | null
  | array
  | object
deriving DecidableEq

inductive DataError where
  | wrongType (found : Found) (expected : String)
  | wrongValue (found : Found) (expected : String)
  | wrongLength (length : Nat) (expected : String)
  | missingField (name : String)
  | duplicateField (name : String)
  | unknownVariant (name : String) (known : List String)
  /-- No form of a part that may take several forms. -/
  | noVariant (type : String)
  | badMatchId (error : MatchIdError)
deriving DecidableEq

inductive ReadError where
  | fault (fault : Fault)
  | data (error : DataError)
deriving DecidableEq

def Found.words : Found → String
  | bool true => "boolean `true`"
  | bool false => "boolean `false`"
  | whole i => "integer `" ++ intText i ++ "`"
  | double x => "floating point `" ++ String.ofList x.chars ++ "`"
  | text s => "string " ++ Text.quoted s
  | null => "null"
  | array => "sequence"
  | object => "map"

def choice (names : List String) : String :=
  let quoted := names.map fun name => "`" ++ name ++ "`"
  match quoted with
  | [] => "there are no variants"
  | [a] => "expected " ++ a
  | [a, b] => "expected " ++ a ++ " or " ++ b
  | all => "expected one of " ++ ", ".intercalate all

def DataError.message : DataError → String
  | wrongType found expected => "invalid type: " ++ found.words ++ ", expected " ++ expected
  | wrongValue found expected => "invalid value: " ++ found.words ++ ", expected " ++ expected
  | wrongLength length expected => "invalid length " ++ natText length ++ ", expected " ++ expected
  | missingField name => "missing field `" ++ name ++ "`"
  | duplicateField name => "duplicate field `" ++ name ++ "`"
  | unknownVariant name known => "unknown variant `" ++ name ++ "`, " ++ choice known
  | noVariant type => "data did not match any variant of untagged enum " ++ type
  | badMatchId error => "UUID parsing failed: " ++ error.message

/-! ### Where a part comes from -/

inductive Origin where
  /-- Text, which is read as far as it is decoded. -/
  | text
  /-- A part that has been read whole before it is decoded. -/
  | whole
  | value
  | table
deriving DecidableEq

/-- Origin of a part, and the levels of nesting that are left inside it, if they are limited. -/
structure Context where
  origin : Origin
  levels : Option Nat

def maxLevels : Nat := 127

abbrev Reader (α : Type) := Context → Node → Except ReadError α

namespace Context

def document : Context := ⟨.text, some maxLevels⟩

def whole : Context := ⟨.whole, none⟩

def value : Context := ⟨.value, none⟩

def table : Context := ⟨.table, none⟩

/-- Context inside a container. Text nested too deeply is malformed. -/
def enter (c : Context) : Except ReadError Context :=
  match c.levels with
  | none => .ok c
  | some 0 => .error (.fault .malformed)
  | some (n + 1) => .ok { c with levels := some n }

end Context

def checkTail (tail : Option Fault) : Except ReadError Unit :=
  match tail with
  | none => .ok ()
  | some f => .error (.fault f)

/-! ### Whole parts -/

mutual

def Node.skip : Node → Except ReadError Unit
  | .leaf (.faulty _ (some f)) => .error (.fault f)
  | .leaf _ => .ok ()
  | .array items tail => do
    skipItems items
    checkTail tail
  | .object members tail => do
    skipMembers members
    checkTail tail

def skipItems : List Node → Except ReadError Unit
  | [] => .ok ()
  | item :: rest => do
    item.skip
    skipItems rest

/-- Skips members; their keys are not read. -/
def skipMembers : List Member → Except ReadError Unit
  | [] => .ok ()
  | (_, value) :: rest => do
    value.skip
    skipMembers rest

end

mutual

def Node.keep (c : Context) : Node → Except ReadError Unit
  | .leaf (.faulty f _) => .error (.fault f)
  | .leaf _ => .ok ()
  | .array items tail => do
    keepItems (← c.enter) items
    checkTail tail
  | .object members tail => do
    keepMembers (← c.enter) members
    checkTail tail

def keepItems (c : Context) : List Node → Except ReadError Unit
  | [] => .ok ()
  | item :: rest => do
    item.keep c
    keepItems c rest

def keepMembers (c : Context) : List Member → Except ReadError Unit
  | [] => .ok ()
  | (key, value) :: rest => do
    match key with
    | .error f => throw (.fault f)
    | .ok _ =>
      value.keep c
      keepMembers c rest

end

/-! ### Single values -/

/-- Error for a part of another type than expected; a faulty leaf is a fault first. -/
def Node.mismatch (expected : String) : Node → ReadError
  | .leaf (.faulty f _) => .fault f
  | .leaf .null => .data (.wrongType .null expected)
  | .leaf (.bool b) => .data (.wrongType (.bool b) expected)
  | .leaf (.number (.whole i)) => .data (.wrongType (.whole i) expected)
  | .leaf (.number (.double x)) => .data (.wrongType (.double x) expected)
  | .leaf (.text s) => .data (.wrongType (.text s) expected)
  | .array .. => .data (.wrongType .array expected)
  | .object .. => .data (.wrongType .object expected)

def readText : Reader String
  | _, .leaf (.text s) => .ok s
  | _, node => .error (node.mismatch "a string")

def readBool : Reader Bool
  | _, .leaf (.bool b) => .ok b
  | _, node => .error (node.mismatch "a boolean")

def readWhole (least greatest : Int) (expected : String) : Reader Int
  | _, .leaf (.number (.whole i)) =>
    if least ≤ i ∧ i ≤ greatest then .ok i else .error (.data (.wrongValue (.whole i) expected))
  | _, node => .error (node.mismatch expected)

/-- Reads a signed number of 32 bits. -/
def readInt32 : Reader Int := readWhole (-0x80000000) 0x7fffffff "i32"

/-- Reads an amount of 64 bits. -/
def readAmount : Reader Nat := fun c node =>
  (readWhole 0 0xffffffffffffffff "u64" c node).map Int.toNat

/-- Reads a count of 64 bits. -/
def readCount : Reader Nat := fun c node =>
  (readWhole 0 0xffffffffffffffff "usize" c node).map Int.toNat

def readJson : Reader Json := fun c node => do
  node.keep c
  return node.toJson

def readMatchId : Reader MatchId
  | _, .leaf (.text s) =>
    match MatchId.ofText s with
    | .ok id => .ok id
    | .error e => .error (.data (.badMatchId e))
  | _, node => .error (node.mismatch "a UUID string")

def readOption {α : Type} (reader : Reader α) : Reader (Option α)
  | _, .leaf .null => .ok none
  | c, node => (reader c node).map some

def readItems {α : Type} (reader : Reader α) (c : Context) : List Node → Except ReadError (List α)
  | [] => .ok []
  | item :: rest => do
    let a ← reader c item
    return a :: (← readItems reader c rest)

def readList {α : Type} (reader : Reader α) : Reader (List α)
  | c, .array items tail => do
    let all ← readItems reader (← c.enter) items
    checkTail tail
    return all
  | _, node => .error (node.mismatch "a sequence")

/-! ### Names -/

abbrev Names (α : Type) := List (String × α)

def Names.find {α : Type} (names : Names α) (name : String) : Except ReadError α :=
  match names.lookup name with
  | some a => .ok a
  | none => .error (.data (.unknownVariant name (names.map Prod.fst)))

/-- Checks that what stands under a name is nothing: null, or an empty object in a part that
has been read whole. -/
def checkNothing : Reader Unit
  | _, .leaf .null => .ok ()
  | ⟨.whole, _⟩, .object [] _ => .ok ()
  | _, node => .error (node.mismatch "unit")

/-- Reads a name, which may also be the only key of an object. -/
def readName {α : Type} (names : Names α) : Reader α
  | _, .leaf (.text s) => names.find s
  | c, .object [(.ok key, value)] _ => do
    let a ← names.find key
    checkNothing c value
    return a
  | _, .object .. => .error (.data (.wrongValue .object "map with a single key"))
  | _, node => .error (node.mismatch "string or map")

/-! ### Records -/

/-- A field of a record: its name, whether it has to be there, and how it is read into the
record. -/
structure Field (α : Type) where
  name : String
  required : Bool
  set : Context → Node → α → Except ReadError α

/-- A record: what it is called, its fields in order, and the record without any of them. -/
structure Shape (α : Type) where
  title : String
  blank : α
  fields : List (Field α)

def Field.make {α β : Type} (name : String) (required : Bool) (reader : Reader β)
    (put : α → β → α) : Field α :=
  ⟨name, required, fun c node a => (reader c node).map (put a)⟩

def Field.optional {α β : Type} (name : String) (reader : Reader β) (put : α → β → α) : Field α :=
  Field.make name false reader put

def Field.needed {α β : Type} (name : String) (reader : Reader β) (put : α → β → α) :
    Field α :=
  Field.make name true reader put

namespace Shape

variable {α : Type}

/-- Number of fields, in words, after what the record is called. -/
def sizeText (shape : Shape α) : String :=
  let n := shape.fields.length
  shape.title ++ " with " ++ natText n ++ (if n = 1 then " element" else " elements")

/-- Reads members in order into a record. Unknown ones are skipped, and `seen` holds the names
of the known ones. -/
def readMembers (shape : Shape α) (c : Context) :
    List Member → List String → α → Except ReadError (α × List String)
  | [], seen, a => .ok (a, seen)
  | (.error f, _) :: _, _, _ => .error (.fault f)
  | (.ok key, value) :: rest, seen, a =>
    match shape.fields.find? (·.name = key) with
    | none => do
      value.skip
      shape.readMembers c rest seen a
    | some field => do
      if seen.contains key then throw (.data (.duplicateField key))
      shape.readMembers c rest (key :: seen) (← field.set c value a)

def checkComplete (shape : Shape α) (seen : List String) : Except ReadError Unit :=
  match shape.fields.find? fun field => field.required && !seen.contains field.name with
  | some field => .error (.data (.missingField field.name))
  | none => .ok ()

/-- Checks the items that are left when every field of a record has been read. `taken` items
belong to the record. -/
def checkSurplus (c : Context) (taken : Nat) (rest : List Node) : Except ReadError Unit :=
  if rest.isEmpty then .ok ()
  else match c.origin with
    | .text => .error (.fault .malformed)
    | .whole => .error (.data (.wrongLength (taken + rest.length)
        (natText taken ++ if taken = 1 then " element in sequence" else " elements in sequence")))
    | .value => .error (.data (.wrongLength (taken + rest.length) "fewer elements in array"))
    | .table => .ok ()

/-- Reads items in order into the fields of a record. Fields at the end may be missing unless
they are required. -/
def readPositions (shape : Shape α) (c : Context) (tail : Option Fault) (taken : Nat) :
    List (Field α) → List Node → α → Except ReadError α
  | [], rest, a => do
    checkSurplus c taken rest
    checkTail tail
    return a
  | field :: fields, [], a => do
    checkTail tail
    if field.required then throw (.data (.wrongLength taken shape.sizeText))
    shape.readPositions c tail taken fields [] a
  | field :: fields, item :: rest, a => do
    shape.readPositions c tail (taken + 1) fields rest (← field.set c item a)

def read (shape : Shape α) : Reader α
  | c, .object members tail => do
    let (a, seen) ← shape.readMembers (← c.enter) members [] shape.blank
    checkTail tail
    shape.checkComplete seen
    return a
  | c, .array items tail => do
    shape.readPositions (← c.enter) tail 0 shape.fields items shape.blank
  | _, node => .error (node.mismatch shape.title)

end Shape

/-! ### Tagged records -/

/-- Reads the tag of a tagged record, which has to be one of the known names. -/
def readTag {α : Type} (names : Names α) : Reader α
  | _, .leaf (.text s) => names.find s
  | _, node => .error (node.mismatch "variant identifier")

/-- Reads the members of a tagged record. Returns the value of the tag, if it is there, and the
other members. -/
def splitTag {α : Type} (tag : String) (names : Names α) (c : Context) :
    List Member → Option α → Except ReadError (Option α × List Member)
  | [], found => .ok (found, [])
  | (.error f, _) :: _, _ => .error (.fault f)
  | (.ok key, value) :: rest, found =>
    if key = tag then do
      if found.isSome then throw (.data (.duplicateField tag))
      let a ← readTag names c value
      splitTag tag names c rest (some a)
    else do
      value.keep c
      let (found, others) ← splitTag tag names c rest found
      return (found, (.ok key, value) :: others)

/-- Reads a tagged record whole: an object that has the tag among its members, or an array that
starts with it. Returns the value of the tag and the record without it. -/
def readTagged {α : Type} (title tag : String) (names : Names α) : Reader (α × Node)
  | c, .object members tail => do
    let (found, others) ← splitTag tag names (← c.enter) members none
    checkTail tail
    match found with
    | some a => return (a, .object others none)
    | none => throw (.data (.missingField tag))
  | c, .array items tail => do
    let c ← c.enter
    match items with
    | [] =>
      checkTail tail
      throw (.data (.missingField tag))
    | first :: rest =>
      let a ← readTag names c first
      keepItems c rest
      checkTail tail
      return (a, .array rest none)
  | _, node => .error (node.mismatch title)

/-- Checks a tagged record without fields: as an object it may hold anything, as an array
nothing. -/
def checkBare : Node → Except ReadError Unit
  | .array items _ => Shape.checkSurplus .whole 0 items
  | _ => .ok ()

/-! ### Documents -/

/-- Reads a document; text after it is malformed. -/
def Document.read {α : Type} (reader : Reader α) (document : Document) : Except ReadError α := do
  let a ← reader .document document.root
  checkTail document.trailing
  return a

def readString {α : Type} (reader : Reader α) (text : String) : Except ReadError α :=
  (Document.ofText text).read reader

def readValue {α : Type} (reader : Reader α) (value : Json) : Except ReadError α :=
  reader .value value.toNode

end Blackout.Json
