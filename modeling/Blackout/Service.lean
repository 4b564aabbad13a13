import Blackout.RuleSet.File
import Blackout.Session
import Blackout.Wire.Command
import Blackout.Wire.Reply

/-!
# The delivery service

The service applies commands, one a line, to a session and answers each with replies. A line
that fails is answered with one error reply, unless it breaks down: then it is not answered, and
the service is at an end.

Every match gets an identifier of its own when it comes in. Identifiers are supplied from
outside, one for every line.
-/

namespace Blackout

structure Submission where
  id : MatchId
  payload : Json

abbrev Service := Session Submission

inductive ServiceError where
  | malformed (error : Json.ReadError)
  /-- The text of a command's time is no time. -/
  | invalidTime (text : String)
  | session (error : SessionError)

def ServiceError.message : ServiceError → String
  | malformed error => "Malformed command: " ++ error.message
  | invalidTime text =>
    "Invalid time '" ++ text ++ "' (expected RFC 3339 or YYYY-MM-DD HH:MM:SS)"
  | session error => error.message

/-! ### Replies -/

def Event.reply : Event Submission → Reply
  | delivered rule token late => .delivered rule token.id late token.payload
  | deferred rule stop pending => .deferred rule stop.rfc3339 pending
  | released rule count => .released rule count

def PendingRule.status (p : PendingRule) : PendingStatus := ⟨p.rule, p.count, p.stop.rfc3339⟩

/-- Replies to a line: those of its outcome, or the error. After a breakdown there are none. -/
def repliesOf? : Except (Failure ServiceError) (List Reply) → Option (List Reply)
  | .ok replies => some replies
  | .error (.reported e) => some [.error e.message]
  | .error .breakdown => none

/-! ### Commands and lines -/

namespace Service

/-- What a line leads to, and the service after it. -/
abbrev Answer := Except (Failure ServiceError) (List Reply) × Service

def answer (outcome : Outcome Submission) : Answer :=
  match outcome with
  | (.ok events, session) => (.ok (events.map Event.reply), session)
  | (.error failure, session) => (.error (failure.map .session), session)

/-- Applies a command. A match that comes in is identified by `fresh`. -/
def handle (here : Zone) (fresh : MatchId) (service : Service) : Command → Answer
  | .submit rule payload => answer (service.processMatches here [(rule, ⟨fresh, payload⟩)])
  | .advance amount unit => answer (service.advance amount unit)
  | .advanceTo time =>
    match Instant.ofText? here time with
    | some target => answer (service.advanceTo target)
    | none => (.error (.reported (.invalidTime time)), service)
  | .now => (.ok [.now (OffsetTime.universal service.now).rfc3339], service)
  | .status =>
    (.ok [.status (OffsetTime.universal service.now).rfc3339
      (service.pendingRules.map PendingRule.status)], service)

def handleLine (here : Zone) (fresh : MatchId) (service : Service) (line : String) : Answer :=
  match Json.readString Command.read line with
  | .ok command => service.handle here fresh command
  | .error e => (.error (.reported (.malformed e)), service)

/-- Replies to a line and the service after it, unless the line brings the service down. -/
def respond? (here : Zone) (fresh : MatchId) (service : Service) (line : String) :
    Option (List Reply × Service) :=
  let (result, service) := service.handleLine here fresh line
  (repliesOf? result).map fun replies => (replies, service)

def ofPolicy (policy : RuleSetPolicy) (now : Instant) : Service :=
  Session.start (Registry.ofPolicy policy) now

end Service

end Blackout
