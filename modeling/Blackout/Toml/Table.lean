import Blackout.Json.Basic

/-!
# TOML tables

A table is filled by pairs, whose keys may be dotted, and by headers. Every table remembers how
it came about, since that decides what may still be added: a header may complete a table that
only longer headers have named, and dotted keys may add to tables that dotted keys have made,
but nothing is defined twice.
-/

namespace Blackout.Toml

inductive Definition where
  | header
  | implied
  | dotted
deriving DecidableEq

inductive Item where
  /-- A value, to which nothing can be added. -/
  | value (value : Json)
  | table (definition : Definition) (entries : List (String × Item))
  | tables (all : List (List (String × Item)))

abbrev Entries := List (String × Item)

namespace Entries

def put (key : String) (item : Item) : Entries → Entries
  | [] => [(key, item)]
  | (k, old) :: rest => if k = key then (key, item) :: rest else (k, old) :: put key item rest

/-- Changes the table under a path of keys, each of which leads to a table or to the latest one
of an array. Missing tables are made with the definition `made`; where that is by dotted keys,
the path may not lead through a table with a header. -/
def change (made : Definition) (f : Definition → Entries → Option Entries) :
    List String → Definition → Entries → Option Entries
  | [], definition, entries => f definition entries
  | key :: path, _, entries =>
    match entries.lookup key with
    | none => do
      let inner ← change made f path made []
      return put key (.table made inner) entries
    | some (.table definition inner) =>
      if made = .dotted ∧ definition = .header then none
      else do
        let inner ← change made f path definition inner
        return put key (.table definition inner) entries
    | some (.tables (latest :: earlier)) => do
      let latest ← change made f path .header latest
      return put key (.tables (latest :: earlier)) entries
    | some _ => none

/-- Adds a pair. A dotted key adds to a table made by dotted keys, and any other to the table
itself. -/
def addPair (path : List String) (key : String) (value : Json) (entries : Entries) :
    Option Entries :=
  let add (definition : Definition) (inner : Entries) : Option Entries :=
    if (definition == .dotted) == path.isEmpty then none
    else if (inner.lookup key).isSome then none
    else some (put key (.value value) inner)
  change .dotted add path .header entries

def openTable (path : List String) (key : String) (entries : Entries) : Option Entries :=
  let add (_ : Definition) (inner : Entries) : Option Entries :=
    match inner.lookup key with
    | none => some (put key (.table .header []) inner)
    | some (.table .implied content) => some (put key (.table .header content) inner)
    | some _ => none
  change .implied add path .header entries

def openItem (path : List String) (key : String) (entries : Entries) : Option Entries :=
  let add (_ : Definition) (inner : Entries) : Option Entries :=
    match inner.lookup key with
    | none => some (put key (.tables [[]]) inner)
    | some (.tables all) => some (put key (.tables ([] :: all)) inner)
    | some _ => none
  change .implied add path .header entries

def addPairAt (opened path : List String) (key : String) (value : Json) (entries : Entries) :
    Option Entries :=
  change .implied (fun _ inner => addPair path key value inner) opened .header entries

end Entries

/-! ### Tables as values -/

mutual

def Item.toJson : Item → Json
  | .value value => value
  | .table _ entries => .ofMembers (entryValues entries)
  | .tables all => .array (tableValues all).reverse

def entryValues : List (String × Item) → List (String × Json)
  | [] => []
  | (key, item) :: rest => (key, item.toJson) :: entryValues rest

def tableValues : List (List (String × Item)) → List Json
  | [] => []
  | entries :: rest => .ofMembers (entryValues entries) :: tableValues rest

end

def Entries.toJson (entries : Entries) : Json := .ofMembers (entryValues entries)

end Blackout.Toml
