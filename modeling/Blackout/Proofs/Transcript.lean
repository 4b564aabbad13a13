import Blackout.Proofs.Reading
import Blackout.Proofs.Run
import Blackout.Service

/-!
# Transcripts of the service

A line that the service is given is refused for a cause and changes nothing, or it submits a match,
moves the clock, or asks for the time or for what is withheld. `Responds` says what comes of each.
A line breaks the service down if it submits a match that has to be judged at a time that the
clocks of its rule's window cannot show, and no other line does.

The transcript of a service has its replies line by line, as far as the service goes.
-/

namespace Blackout

/-- The command is a match of a rule whose window is read on clocks that cannot show the time. -/
def Command.BreaksDown (here : Zone) (registry : Registry) (now : Instant) : Command → Prop
  | submit rule _ => ∃ window, registry.get? rule = some window ∧
    (window.mode.zone here).shows now = false
  | _ => False

namespace Service

variable {here : Zone} {fresh : MatchId} {service next : Service} {line : String}
  {replies : List Reply}

def BreaksDown (here : Zone) (registry : Registry) (now : Instant) (line : String) : Prop :=
  ∃ command, Json.readString Command.read line = .ok command ∧ command.BreaksDown here registry now

/-- Why a line is refused at `now`. -/
inductive Refused (here : Zone) (registry : Registry) (now : Instant) (line : String) :
    ServiceError → Prop where
  | malformed {error : Json.ReadError}
    (hline : Json.readString Command.read line = .error error) :
    Refused here registry now line (.malformed error)
  | unevaluable {rule : String} {payload : Json} {window : Window} {error : WindowError}
    (hline : Json.readString Command.read line = .ok (.submit rule payload))
    (hwindow : registry.get? rule = some window)
    (herror : window.isActive here now = .error (.reported error) ∨
      window.isActive here now = .ok true ∧ window.nextEnd here now = .error (.reported error)) :
    Refused here registry now line (.session (.blackout rule error))
  | unreachable {amount : Nat} {unit : TimeUnit} {error : ClockError}
    (hline : Json.readString Command.read line = .ok (.advance amount unit))
    (herror : now.advance amount unit = .error error) :
    Refused here registry now line (.session (.clock error))
  | unreadable {time : String}
    (hline : Json.readString Command.read line = .ok (.advanceTo time))
    (htime : Instant.ofText? here time = none) :
    Refused here registry now line (.invalidTime time)
  | backward {time : String} {target : Instant}
    (hline : Json.readString Command.read line = .ok (.advanceTo time))
    (htime : Instant.ofText? here time = some target) (hback : target < now) :
    Refused here registry now line (.session (.clock (.backward now target)))

inductive Moves (here : Zone) (now : Instant) (line : String) : Instant → Prop where
  | advance {amount : Nat} {unit : TimeUnit} {next : Instant}
    (hline : Json.readString Command.read line = .ok (.advance amount unit))
    (hnext : now.advance amount unit = .ok next) :
    Moves here now line next
  | advanceTo {time : String} {target : Instant}
    (hline : Json.readString Command.read line = .ok (.advanceTo time))
    (htime : Instant.ofText? here time = some target) (hle : now ≤ target) :
    Moves here now line target

/-- The replies to a line and the service after it, by what the line is and what comes of it. -/
inductive Responds (here : Zone) (fresh : MatchId) (service : Service) (line : String) :
    List Reply → Service → Prop where
  | refused {error : ServiceError}
    (hrefused : Refused here service.registry service.now line error) :
    Responds here fresh service line [.error error.message] service
  | submitted {rule : String} {payload : Json} {event : Event Submission} {routed : Service}
    (hline : Json.readString Command.read line = .ok (.submit rule payload))
    (hrouted : service.Routed here rule ⟨fresh, payload⟩ event routed) :
    Responds here fresh service line (event.reply :: routed.flush.1.map Event.reply)
      routed.flush.2
  | moved {now : Instant} (hmoves : Moves here service.now line now) :
    Responds here fresh service line (({ service with now := now }).flush.1.map Event.reply)
      ({ service with now := now }).flush.2
  | now (hline : Json.readString Command.read line = .ok .now) :
    Responds here fresh service line [.now (OffsetTime.universal service.now).rfc3339] service
  | status (hline : Json.readString Command.read line = .ok .status) :
    Responds here fresh service line
      [.status (OffsetTime.universal service.now).rfc3339
        (service.pendingRules.map PendingRule.status)] service

theorem processMatches_of_routeMatch_eq_error {rule : String} {submission : Submission}
    {e : Failure SessionError} (h : service.routeMatch here rule submission = .error e) :
    service.processMatches here [(rule, submission)] = (.error e, service) := by
  apply Session.processMatches_of_error
  unfold Session.routeMatches
  rw [h]

theorem processMatches_singleton (here : Zone) (service : Service) (rule : String)
    (submission : Submission) :
    (∃ event routed, service.Routed here rule submission event routed ∧
      service.processMatches here [(rule, submission)] =
        (.ok (event :: routed.flush.1), routed.flush.2)) ∨
    ∃ e, service.routeMatch here rule submission = .error e ∧
      service.processMatches here [(rule, submission)] = (.error e, service) := by
  cases h : service.routeMatch here rule submission with
  | error e => exact .inr ⟨e, rfl, processMatches_of_routeMatch_eq_error h⟩
  | ok outcome =>
    obtain ⟨event, routed⟩ := outcome
    have hroute : Session.routeMatches here [(rule, submission)] service =
        (.ok [event], routed) := by
      unfold Session.routeMatches
      rw [h]
      rfl
    exact .inl ⟨event, routed, Session.routed_of_routeMatch h, Session.processMatches_of_ok hroute⟩

/-! ### Lines that break down -/

theorem respond?_of_read {command : Command}
    (hline : Json.readString Command.read line = .ok command) :
    service.respond? here fresh line =
      (repliesOf? (service.handle here fresh command).1).map fun replies =>
        (replies, (service.handle here fresh command).2) := by
  unfold respond? handleLine
  rw [hline]

theorem handle_of_breaksDown {command : Command}
    (hdown : command.BreaksDown here service.registry service.now) :
    service.handle here fresh command = (.error .breakdown, service) := by
  cases command with
  | submit rule payload =>
    obtain ⟨window, hwindow, hdark⟩ := hdown
    have hfails : service.registry.Fails here service.now rule .breakdown :=
      ⟨window, .breakdown, hwindow, .inl (Window.isActive_eq_breakdown_iff.mpr hdark), rfl⟩
    unfold handle
    dsimp only
    rw [processMatches_of_routeMatch_eq_error (Session.routeMatch_eq_error_iff.mpr hfails)]
    rfl
  | _ => cases hdown

theorem respond?_of_breaksDown (hdown : BreaksDown here service.registry service.now line) :
    service.respond? here fresh line = none := by
  obtain ⟨command, hline, hdown⟩ := hdown
  rw [respond?_of_read hline, handle_of_breaksDown hdown]
  rfl

/-! ### Lines that are answered -/

/-- Handling a command answers the line that it was read from, and in no other way than `Responds`
says. -/
def Answered (here : Zone) (fresh : MatchId) (service : Service) (line : String)
    (command : Command) : Prop :=
  ∃ replies, repliesOf? (service.handle here fresh command).1 = some replies ∧
    service.Responds here fresh line replies (service.handle here fresh command).2

theorem answered_submit {rule : String} {payload : Json}
    (hline : Json.readString Command.read line = .ok (.submit rule payload))
    (hup : ¬ Command.BreaksDown here service.registry service.now (.submit rule payload)) :
    service.Answered here fresh line (.submit rule payload) := by
  unfold Answered handle
  dsimp only
  rcases processMatches_singleton here service rule ⟨fresh, payload⟩ with
    ⟨event, routed, hrouted, h⟩ | ⟨e, herror, h⟩
  · rw [h]
    exact ⟨_, rfl, .submitted hline hrouted⟩
  · rw [h]
    obtain ⟨window, failure, hwindow, hcause, rfl⟩ := Session.routeMatch_eq_error_iff.mp herror
    cases failure with
    | reported error => exact ⟨_, rfl, .refused (.unevaluable hline hwindow hcause)⟩
    | breakdown =>
      refine absurd ⟨window, hwindow, ?_⟩ hup
      rcases hcause with hactive | ⟨-, hend⟩
      · exact Window.isActive_eq_breakdown_iff.mp hactive
      · exact Window.nextEnd_eq_breakdown_iff.mp hend

theorem answered_advance {amount : Nat} {unit : TimeUnit}
    (hline : Json.readString Command.read line = .ok (.advance amount unit)) :
    service.Answered here fresh line (.advance amount unit) := by
  unfold Answered handle Session.advance
  dsimp only
  rcases service.moveClock_cases (service.now.advance amount unit) with
    ⟨now, hnext, h⟩ | ⟨e, herror, h⟩
  · rw [h]
    exact ⟨_, rfl, .moved (.advance hline hnext)⟩
  · rw [h]
    exact ⟨_, rfl, .refused (.unreachable hline herror)⟩

theorem answered_advanceTo {time : String}
    (hline : Json.readString Command.read line = .ok (.advanceTo time)) :
    service.Answered here fresh line (.advanceTo time) := by
  unfold Answered handle
  dsimp only
  cases htime : Instant.ofText? here time with
  | none => exact ⟨_, rfl, .refused (.unreadable hline htime)⟩
  | some target =>
    dsimp only
    unfold Session.advanceTo Instant.advanceTo
    split
    · next hback => exact ⟨_, rfl, .refused (.backward hline htime hback)⟩
    · next hforward => exact ⟨_, rfl, .moved (.advanceTo hline htime (Reading.not_lt.mp hforward))⟩

theorem answered_of_read (fresh : MatchId) {command : Command}
    (hline : Json.readString Command.read line = .ok command)
    (hup : ¬ command.BreaksDown here service.registry service.now) :
    service.Answered here fresh line command := by
  cases command with
  | submit rule payload => exact answered_submit hline hup
  | advance amount unit => exact answered_advance hline
  | advanceTo time => exact answered_advanceTo hline
  | now => exact ⟨_, rfl, .now hline⟩
  | status => exact ⟨_, rfl, .status hline⟩

/-- Every line that does not break the service down is answered. -/
theorem exists_responds (fresh : MatchId)
    (hup : ¬ BreaksDown here service.registry service.now line) :
    ∃ replies next, service.respond? here fresh line = some (replies, next) ∧
      service.Responds here fresh line replies next := by
  cases hline : Json.readString Command.read line with
  | error e =>
    refine ⟨_, service, ?_, .refused (.malformed hline)⟩
    unfold respond? handleLine
    rw [hline]
    rfl
  | ok command =>
    obtain ⟨replies, hreplies, hresponds⟩ :=
      answered_of_read fresh hline fun hdown => hup ⟨command, hline, hdown⟩
    refine ⟨replies, _, ?_, hresponds⟩
    rw [respond?_of_read hline, hreplies]
    rfl

theorem respond?_eq_none_iff (fresh : MatchId) : service.respond? here fresh line = none ↔
    BreaksDown here service.registry service.now line := by
  refine ⟨fun hnone => ?_, respond?_of_breaksDown⟩
  by_contra hup
  obtain ⟨replies, next, hanswer, -⟩ := exists_responds fresh hup
  cases hnone.symm.trans hanswer

theorem responds_of_respond? (h : service.respond? here fresh line = some (replies, next)) :
    service.Responds here fresh line replies next := by
  have hup : ¬ BreaksDown here service.registry service.now line := by
    rw [← respond?_eq_none_iff fresh, h]
    exact nofun
  obtain ⟨_, _, hanswer, hresponds⟩ := exists_responds fresh hup
  cases h.symm.trans hanswer
  exact hresponds

/-! ### Transcripts -/

/-- Replies to lines in turn, each line with the identifier for what it submits, until one of them
brings the service down. -/
def transcript (here : Zone) : Service → List (MatchId × String) → List (List Reply)
  | _, [] => []
  | service, (fresh, line) :: rest =>
    match service.respond? here fresh line with
    | some (replies, next) => replies :: transcript here next rest
    | none => []

end Service

end Blackout
