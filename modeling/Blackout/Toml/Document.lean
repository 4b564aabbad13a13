import Blackout.Toml.Scalar
import Blackout.Toml.Table
import Blackout.Toml.Text

/-!
# TOML documents

A document is a list of lines, each a pair or a header, which fill the tables one after the
other. Arrays and inline tables nest up to 79 levels deep, and a key has up to 79 parts.
-/

namespace Blackout.Toml

open Scanner

/-- A line of a document; the last part of its key stands apart. -/
inductive Line where
  | pair (path : List String) (key : String) (value : Json)
  | table (path : List String) (key : String)
  | item (path : List String) (key : String)

/-- Levels of nesting, and parts of a key, that a document may have. -/
def maxDepth : Nat := 79

/-! ### Keys and pairs -/

def isBare (c : Char) : Bool := c.isAlphanum || c == '_' || c == '-'

def keyPart : Scanner String := Text.short <|> do
  let cs ← run isBare
  if cs.isEmpty then failure else return String.ofList cs

/-- A key: its last part and the parts before it. -/
def key : Scanner (List String × String) := do
  let parts ← separated (char '.') do
    spaces
    let part ← keyPart
    spaces
    return part
  if maxDepth < parts.length then failure
  match parts.getLast? with
  | some last => return (parts.dropLast, last)
  | none => failure

def pair (value : Scanner Json) : Scanner (List String × String × Json) := do
  let (path, last) ← key
  char '='
  spaces
  return (path, last, ← value)

/-! ### Values -/

/-- An array. Its items may stand on several lines, and a comma may follow the last one. -/
def array (value : Scanner Json) : Scanner Json := do
  char '['
  let items ← separatedOrNone (char ',') do
    blankLines
    let item ← value
    blankLines
    return item
  if !items.isEmpty then
    let _ ← possibly (char ',')
  blankLines
  char ']'
  return .array items

/-- An inline table. It stands on one line, and no comma follows the last pair. -/
def inlineTable (value : Scanner Json) : Scanner Json := do
  char '\x7b'
  let pairs ← separatedOrNone (char ',') do
    let p ← pair value
    spaces
    return p
  spaces
  char '\x7d'
  let entries ← pairs.foldlM (fun entries (path, last, v) => Entries.addPair path last v entries) []
  return Entries.toJson entries

def value : Nat → List Char → Option (Json × List Char)
  | 0, cs => (Scalar.value <|> do return .text (← Text.string) : Scanner Json) cs
  | n + 1, cs =>
    ((do return .text (← Text.string)) <|> array (value n) <|> inlineTable (value n) <|>
      Scalar.value : Scanner Json) cs

/-! ### Lines -/

def pairLine : Scanner Line := do
  let (path, last, v) ← pair (value maxDepth)
  lineEnd
  return .pair path last v

def tableLine : Scanner Line := do
  char '['
  let (path, last) ← key
  char ']'
  lineEnd
  return .table path last

def itemLine : Scanner Line := do
  word ['[', '[']
  let (path, last) ← key
  word [']', ']']
  lineEnd
  return .item path last

/-- A line without a pair or header, or a comment. -/
def emptyLine : Scanner Unit := newline <|> do
  comment
  newline <|> finish

def lines : Scanner (List Line) := do
  spaces
  let all ← many do
    let line ← (do emptyLine; return none) <|> do
      return some (← itemLine <|> tableLine <|> pairLine)
    spaces
    return line
  finish
  return all.filterMap id

/-! ### Documents -/

/-- Content of the root, and the path of the table that was opened last. -/
structure Filling where
  root : Entries
  opened : List String

def Filling.add (filling : Filling) : Line → Option Filling
  | .pair path last v => do
    let root ← Entries.addPairAt filling.opened path last v filling.root
    return { filling with root := root }
  | .table path last => do
    return ⟨← Entries.openTable path last filling.root, path ++ [last]⟩
  | .item path last => do
    return ⟨← Entries.openItem path last filling.root, path ++ [last]⟩

/-- Value of a text. A byte order mark in front is skipped. -/
def ofText? (text : String) : Option Json := do
  let cs := text.toList
  let cs := if cs.head? = some '\ufeff' then cs.tail else cs
  let (all, _) ← lines cs
  let filling ← all.foldlM Filling.add ⟨[], []⟩
  return Entries.toJson filling.root

end Blackout.Toml
