import Blackout.Session.Queue

/-!
# Sessions

A session routes the matches of rules: those of a rule in blackout are withheld, all others are
delivered at once. When the clock has passed the end of a blackout, the withheld matches that
the window's trigger selects are delivered as released.

An operation returns its outcome and the session after it. An operation that fails, be it with an
error or with a breakdown, keeps what it did before it failed.
-/

namespace Blackout

structure Session (α : Type) where
  registry : Registry
  now : Instant
  queue : Queue α

inductive Event (α : Type) where
  /-- A match is handed on; `released` tells whether it had been withheld. -/
  | delivered (rule : String) (token : α) (released : Bool)
  /-- A match is withheld; `pending` matches of its rule now wait for `stop`. -/
  | deferred (rule : String) (stop : OffsetTime) (pending : Nat)
  /-- A blackout has ended; `count` deliveries follow. -/
  | released (rule : String) (count : Nat)

/-- Outcome of an operation on a session, and the session after it. -/
abbrev Outcome (α : Type) := Except (Failure SessionError) (List (Event α)) × Session α

def deliveries {α : Type} (events : List (Event α)) : List (String × α) :=
  events.filterMap fun
    | .delivered rule token _ => some (rule, token)
    | _ => none

/-- Events of releases: each release is announced and then delivered. -/
def Release.events {α : Type} (release : Release α) : List (Event α) :=
  .released release.rule release.released.length ::
    release.released.map fun token => .delivered release.rule token true

namespace Session

variable {α : Type}

def start (registry : Registry) (now : Instant) : Session α := ⟨registry, now, .empty⟩

/-- Rules with withheld matches, in the order of the registry. -/
def pendingRules (session : Session α) : List PendingRule :=
  session.queue.pendingRules session.registry

def flush (session : Session α) : List (Event α) × Session α :=
  let (releases, queue) := session.queue.flush session.registry session.now
  (releases.flatMap Release.events, { session with queue := queue })

def routeMatch (here : Zone) (session : Session α) (rule : String) (token : α) :
    Except (Failure SessionError) (Event α × Session α) := do
  if ← session.registry.isInBlackout here rule session.now then
    let (stop, queue) ← session.queue.defer here session.registry rule token session.now
    return (.deferred rule stop (queue.pendingCount rule), { session with queue := queue })
  else return (.delivered rule token false, session)

/-- Withholds or delivers matches in order, up to the first one that fails. -/
def routeMatches (here : Zone) : List (String × α) → Session α → Outcome α
  | [], session => (.ok [], session)
  | (rule, token) :: rest, session =>
    match session.routeMatch here rule token with
    | .error failure => (.error failure, session)
    | .ok (event, session) =>
      let (outcome, session) := routeMatches here rest session
      (outcome.map (event :: ·), session)

def processMatches (here : Zone) (session : Session α) (batch : List (String × α)) : Outcome α :=
  match routeMatches here batch session with
  | (.error failure, session) => (.error failure, session)
  | (.ok events, session) =>
    let (released, session) := session.flush
    (.ok (events ++ released), session)

/-- Sets the clock, unless that failed, and then releases what has ended. -/
def moveClock (session : Session α) (moved : Except ClockError Instant) : Outcome α :=
  match moved with
  | .error e => (.error (.reported (.clock e)), session)
  | .ok now =>
    let (events, session) := { session with now := now }.flush
    (.ok events, session)

def advance (session : Session α) (amount : Nat) (unit : TimeUnit) : Outcome α :=
  session.moveClock (session.now.advance amount unit)

def advanceTo (session : Session α) (target : Instant) : Outcome α :=
  session.moveClock (session.now.advanceTo target)

end Session

end Blackout
