import Blackout.RuleSet.Policy
import Blackout.Toml.Document

/-!
# Rule set files

A rule set is loaded from a file in UTF-8, which holds TOML if its name ends in `.toml` in any
case and JSON otherwise. It is read, checked for faults, and then turned into its policy.
-/

namespace Blackout

inductive RuleSetFormat where
  | json
  | toml
deriving DecidableEq

inductive FileFault where
  | missing
  | directory
  | notText
  | other (reason : String)
deriving DecidableEq

/-- Bytes of a file, or why it cannot be read. -/
abbrev FileContent := Except FileFault ByteArray

inductive LoadError where
  | unreadable (fault : FileFault)
  | badJson (error : Json.ReadError)
  | badToml
  | invalid (faults : List RuleSetFault)

/-! ### Wording -/

def FileFault.message : FileFault → String
  | missing => "No such file or directory (os error 2)"
  | directory => "Is a directory (os error 21)"
  | notText => "stream did not contain valid UTF-8"
  | other reason => reason

def Json.ReadError.message : Json.ReadError → String
  | fault .malformed => "the text is not JSON"
  | fault .truncated => "the text ends early"
  | data error => error.message

def badTomlMessage : String := "the text is no rule set"

def LoadError.message : LoadError → String
  | unreadable fault => "Failed to read rule set file: " ++ fault.message
  | badJson error => "Failed to parse JSON: " ++ error.message
  | badToml => "Failed to parse TOML: " ++ badTomlMessage
  | invalid faults => "Validation failed: " ++ "; ".intercalate (faults.map RuleSetFault.message)

/-! ### Loading -/

namespace RuleSetFormat

/-- Name of the file at the end of a path, unless the path ends elsewhere. -/
def fileName? (path : String) : Option (List Char) :=
  let parts := path.toList.splitOn '/'
  match (parts.filter fun part => !part.isEmpty && part != ['.']).getLast? with
  | some name => if name = ['.', '.'] then none else some name
  | none => none

/-- What follows the last point of a name. A point in front does not count. -/
def extension? (name : List Char) : Option (List Char) :=
  let reversed := name.reverse
  let ending := reversed.takeWhile (· != '.')
  if (reversed.drop (ending.length + 1)).isEmpty then none else some ending.reverse

def ofPath (path : String) : RuleSetFormat :=
  match (fileName? path).bind extension? with
  | some ending => if ending.map Char.toLower = "toml".toList then toml else json
  | none => json

end RuleSetFormat

namespace RuleSetPolicy

def ofChecked (s : RuleSetDef) : Except LoadError RuleSetPolicy :=
  match checkRuleSet s with
  | [] => (ofDef s).mapError fun fault => .invalid [fault]
  | faults => .error (.invalid faults)

def ofJson (text : String) : Except LoadError RuleSetPolicy :=
  match Json.readString RuleSetDef.read text with
  | .ok s => ofChecked s
  | .error e => .error (.badJson e)

def ofToml (text : String) : Except LoadError RuleSetPolicy :=
  match (Toml.ofText? text).map fun value => RuleSetDef.read .table value.toNode with
  | some (.ok s) => ofChecked s
  | _ => .error .badToml

def ofText : RuleSetFormat → String → Except LoadError RuleSetPolicy
  | .json, text => ofJson text
  | .toml, text => ofToml text

def ofFile (path : String) (content : FileContent) : Except LoadError RuleSetPolicy :=
  match content with
  | .error fault => .error (.unreadable fault)
  | .ok bytes =>
    match String.fromUTF8? bytes with
    | some text => ofText (.ofPath path) text
    | none => .error (.unreadable .notText)

end RuleSetPolicy

end Blackout
