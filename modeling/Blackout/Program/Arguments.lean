/-!
# Arguments of the daemon

The daemon takes three options, each with a value, under a long and a short name. A value
follows its name as the next argument, or directly: after an equals sign, or after a short name
also without one. An argument that starts with a hyphen is never the next value, unless it is
the hyphen alone. The rule set and the start time can also be given in the environment, where
arguments do not give them.
-/

namespace Blackout.Daemon

inductive Setting where
  | rules
  | startTime
  | logLevel
deriving DecidableEq

structure Settings where
  rules : String
  startTime : Option String
  logLevel : String
deriving DecidableEq

structure Given where
  rules : Option String
  startTime : Option String
  logLevel : Option String

inductive UsageError where
  | unexpected (argument : String)
  | missingValue (setting : Setting)
  | repeated (setting : Setting)
  | missingRules
deriving DecidableEq

inductive Request where
  | run (settings : Settings)
  | help
deriving DecidableEq

namespace Setting

def name : Setting → String
  | rules => "rules"
  | startTime => "start-time"
  | logLevel => "log-level"

def text : Setting → String
  | rules => "--rules <RULES>"
  | startTime => "--start-time <START_TIME>"
  | logLevel => "--log-level <LOG_LEVEL>"

def ofName? (name : String) : Option Setting :=
  [rules, startTime, logLevel].find? fun setting => setting.name = name

def ofLetter? : Char → Option Setting
  | 'r' => some rules
  | 's' => some startTime
  | 'l' => some logLevel
  | _ => none

end Setting

def UsageError.message : UsageError → String
  | unexpected argument => "unexpected argument '" ++ argument ++ "' found"
  | missingValue setting => "a value is required for '" ++ setting.text ++ "' but none was supplied"
  | repeated setting => "the argument '" ++ setting.text ++ "' cannot be used multiple times"
  | missingRules => "the following required arguments were not provided: --rules <RULES>"

/-! ### Values of options -/

namespace Given

def nothing : Given := ⟨none, none, none⟩

def get? (given : Given) : Setting → Option String
  | .rules => given.rules
  | .startTime => given.startTime
  | .logLevel => given.logLevel

/-- Takes up the value of an option, which is given once. The path of the rule set is not
empty. -/
def set (given : Given) (setting : Setting) (value : String) : Except UsageError Given :=
  if (given.get? setting).isSome then .error (.repeated setting)
  else match setting with
    | .rules =>
      if value.isEmpty then .error (.missingValue .rules)
      else .ok { given with rules := some value }
    | .startTime => .ok { given with startTime := some value }
    | .logLevel => .ok { given with logLevel := some value }

end Given

/-! ### Reading arguments -/

inductive Piece where
  | option (setting : Setting) (attached : Option String)
  | help
  /-- The mark after which there are no more options. -/
  | mark
  /-- A hyphen with something that is no option. -/
  | unknown
  | plain

def Piece.ofArgument (argument : String) : Piece :=
  match argument.toList with
  | ['-', '-'] => mark
  | '-' :: '-' :: cs =>
    let name := String.ofList (cs.takeWhile (· != '='))
    let value := match cs.dropWhile (· != '=') with
      | [] => none
      | _ :: value => some (String.ofList value)
    match Setting.ofName? name with
    | some setting => option setting value
    | none => if name = "help" ∧ value.isNone then help else unknown
  | '-' :: 'h' :: _ => help
  | '-' :: c :: cs =>
    match Setting.ofLetter? c with
    | none => unknown
    | some setting => option setting (match cs with
      | [] => none
      | '=' :: cs => some (String.ofList cs)
      | cs => some (String.ofList cs))
  | _ => plain

/-- Reads arguments in order, with the option that waits for its value; `none` asks for help. -/
def readArguments (waiting : Option Setting) (given : Given) :
    List String → Except UsageError (Option Given)
  | [] =>
    match waiting with
    | some setting => .error (.missingValue setting)
    | none => .ok (some given)
  | argument :: rest =>
    match Piece.ofArgument argument, waiting with
    | .plain, some setting => do readArguments none (← given.set setting argument) rest
    | .plain, none => .error (.unexpected argument)
    | .unknown, _ => .error (.unexpected argument)
    | _, some setting => .error (.missingValue setting)
    | .option setting none, none => readArguments (some setting) given rest
    | .option setting (some value), none => do readArguments none (← given.set setting value) rest
    | .help, none => .ok none
    | .mark, none =>
      match rest with
      | [] => .ok (some given)
      | extra :: _ => .error (.unexpected extra)

/-- Takes an option from the environment unless an argument has given it. -/
def Given.fill (given : Given) (setting : Setting) (value : Option String) :
    Except UsageError Given :=
  match given.get? setting, value with
  | none, some value => given.set setting value
  | _, _ => .ok given

/-- Request of arguments, where the environment gives a rule set and a start time. -/
def Request.ofArguments (rules startTime : Option String) (arguments : List String) :
    Except UsageError Request := do
  match ← readArguments none .nothing arguments with
  | none => return help
  | some given =>
    let given ← given.fill .rules rules
    let given ← given.fill .startTime startTime
    match given.rules with
    | some rules => return run ⟨rules, given.startTime, given.logLevel.getD "info"⟩
    | none => throw .missingRules

/-! ### Help -/

def environmentText (name : String) (value : Option String) : String :=
  " [env: " ++ name ++ "=" ++ value.getD "" ++ "]"

def helpLines (rules startTime : Option String) : List String := [
  "Blackout-aware rule match delivery",
  "",
  "Usage: rulebookd [OPTIONS] --rules <RULES>",
  "",
  "Options:",
  "  -r, --rules <RULES>            Rule set file (JSON, or TOML with a .toml extension)" ++
    environmentText "RULEBOOK_RULES" rules,
  "  -s, --start-time <START_TIME>  Initial pseudo clock time (default: now)" ++
    environmentText "RULEBOOK_START_TIME" startTime,
  "  -l, --log-level <LOG_LEVEL>    Log level [default: info]",
  "  -h, --help                     Print help"]

end Blackout.Daemon
