import Std.Time.DateTime.Timestamp
import Blackout.Calendar.Zone.Posix
import Blackout.Program.Daemon
import Blackout.Program.Validation

/-!
# The programs

The daemon, and the validation of rule set files, which runs under a name that starts with
`validate`. The local zone is taken from the environment if it is a POSIX rule.
-/

namespace Blackout.Program

def readFile (path : String) : IO FileContent := do
  try
    return .ok (← IO.FS.readBinFile path)
  catch
    | .noFileOrDirectory .. => return .error .missing
    | .inappropriateType .. => return .error .directory
    | e => return .error (.other (toString e))

def localZone : IO Zone := do
  match ← IO.getEnv "TZ" with
  | some rule => return (Zone.ofPosix? rule).getD .universal
  | none => return .universal

def presentTime : IO Instant := do
  let now ← Std.Time.Timestamp.now
  let nanos := now.toNanosecondsSinceUnixEpoch.toInt
  return ⟨nanos / nanosPerSecond, (nanos % nanosPerSecond).toNat⟩

def newMatchId : IO MatchId := do
  let bytes ← IO.getRandomBytes 16
  return .ofRandom (BitVec.ofNat 128 (bytes.toList.foldl (fun n b => 256 * n + b.toNat) 0))

def validate (arguments : List String) : IO UInt32 := do
  let path := arguments.head?
  let content ← match path with
    | some path => readFile path
    | none => pure (.error .missing)
  let report := Validation.report path content
  report.output.forM IO.println
  report.errors.forM IO.eprintln
  return report.code.toUInt32

/-- The bytes up to the next line feed, which is kept, or up to the end of the input. -/
partial def readLine (input : IO.FS.Stream) (line : ByteArray) : IO ByteArray := do
  let next ← input.read 1
  if next.isEmpty then return line
  let line := line ++ next
  if next[0]? = some 10 then return line
  readLine input line

/-- Answers commands until the input ends or one of them brings the service down. Input that is not
UTF-8 is an error. -/
partial def serve (here : Zone) (service : Service) : IO UInt32 := do
  let bytes ← readLine (← IO.getStdin) ByteArray.empty
  if bytes.isEmpty then return 0
  let some line := String.fromUTF8? bytes
    | throw (IO.userError ("Failed to read stdin: " ++ FileFault.message .notText))
  match Daemon.commandOf? line with
  | none => serve here service
  | some command =>
    match service.respond? here (← newMatchId) command with
    | none =>
      IO.eprintln Daemon.breakdownMessage
      return Daemon.breakdownCode.toUInt32
    | some (replies, service) =>
      let output ← IO.getStdout
      replies.forM fun reply => output.putStr reply.line
      output.flush
      serve here service

def runDaemon (settings : Daemon.Settings) : IO UInt32 := do
  let here ← localZone
  match Daemon.start here settings (← readFile settings.rules) (← presentTime) with
  | .error e =>
    IO.eprintln ("Error: " ++ e.message)
    return 1
  | .ok service =>
    try
      serve here service
    catch e =>
      IO.eprintln ("Error: " ++ toString e)
      return 1

def daemon (arguments : List String) : IO UInt32 := do
  let rules ← IO.getEnv "RULEBOOK_RULES"
  let startTime ← IO.getEnv "RULEBOOK_START_TIME"
  match Daemon.Request.ofArguments rules startTime arguments with
  | .error e =>
    IO.eprintln ("error: " ++ e.message)
    return 2
  | .ok .help =>
    (Daemon.helpLines rules startTime).forM IO.println
    return 0
  | .ok (.run settings) => runDaemon settings

end Blackout.Program

def main (arguments : List String) : IO UInt32 := do
  let name := (← IO.appPath).fileName.getD ""
  if name.startsWith "validate" then Blackout.Program.validate arguments
  else Blackout.Program.daemon arguments
