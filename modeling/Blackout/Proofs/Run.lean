import Blackout.Proofs.Bounds
import Blackout.Proofs.Clock
import Blackout.Proofs.Queue
import Blackout.Session

/-!
# Runs of a session

An operation routes a batch of matches or moves the clock, and a run is operations one after
another, some of which may fail. What is routed is delivered at once or withheld at an end of its
rule's window. No operation changes the registry or moves the clock backward.
-/

namespace Blackout

inductive Operation (α : Type) where
  | process (batch : List (String × α))
  | advance (amount : Nat) (unit : TimeUnit)
  | advanceTo (target : Instant)

/-- A match of the rule fails at `now`: it cannot be told whether the rule is in its blackout, or it
is and there is no end to wait for. -/
def Registry.Fails (here : Zone) (registry : Registry) (now : Instant) (rule : String)
    (e : Failure SessionError) : Prop :=
  ∃ window failure, registry.get? rule = some window ∧
    (window.isActive here now = .error failure ∨
      window.isActive here now = .ok true ∧ window.nextEnd here now = .error failure) ∧
    e = failure.map (.blackout rule)

namespace Session

variable {α : Type} {here : Zone} {session next : Session α} {rule : String} {token : α}
  {event : Event α} {events : List (Event α)} {batch : List (String × α)}

/-! ### Routing -/

/-- What becomes of a match: it is delivered, or its rule is in its blackout and it is withheld
until the next end of the rule's window. -/
inductive Routed (here : Zone) (session : Session α) (rule : String) (token : α) :
    Event α → Session α → Prop where
  | delivered (hactive : session.registry.isInBlackout here rule session.now = .ok false) :
    Routed here session rule token (.delivered rule token false) session
  | deferred {window : Window} {stop : OffsetTime}
    (hactive : session.registry.isInBlackout here rule session.now = .ok true)
    (hwindow : session.registry.get? rule = some window)
    (hend : window.nextEnd here session.now = .ok stop) :
    Routed here session rule token
      (.deferred rule stop ((session.queue.withheld rule).length + 1))
      { session with queue := session.queue.push rule token stop }

theorem routed_of_routeMatch (h : session.routeMatch here rule token = .ok (event, next)) :
    session.Routed here rule token event next := by
  unfold routeMatch at h
  obtain ⟨active, hactive, h⟩ := bind_eq_ok.mp h
  cases active with
  | false =>
    cases h
    exact .delivered hactive
  | true =>
    obtain ⟨⟨stop, queue⟩, hdefer, h⟩ := bind_eq_ok.mp h
    obtain ⟨window, hwindow, hend, rfl⟩ := Queue.defer_eq_ok hdefer
    cases h
    rw [Queue.pendingCount_push]
    exact .deferred hactive hwindow hend

theorem isInBlackout_eq_error_iff {registry : Registry} {now : Instant}
    {e : Failure SessionError} :
    registry.isInBlackout here rule now = .error e ↔ ∃ window failure,
      registry.get? rule = some window ∧ window.isActive here now = .error failure ∧
        e = failure.map (.blackout rule) := by
  unfold Registry.isInBlackout
  cases registry.get? rule with
  | none => simp
  | some window => simp [mapError_eq_error_iff]

theorem isInBlackout_eq_true_iff {registry : Registry} {now : Instant} :
    registry.isInBlackout here rule now = .ok true ↔ ∃ window,
      registry.get? rule = some window ∧ window.isActive here now = .ok true := by
  unfold Registry.isInBlackout
  cases registry.get? rule with
  | none => simp
  | some window => simp [mapError_eq_ok_iff]

theorem isActive_of_isInBlackout {registry : Registry} {now : Instant} {window : Window}
    {active : Bool} (hwindow : registry.get? rule = some window)
    (h : registry.isInBlackout here rule now = .ok active) :
    window.isActive here now = .ok active := by
  unfold Registry.isInBlackout at h
  rw [hwindow] at h
  exact mapError_eq_ok_iff.mp h

theorem defer_eq_error_iff {registry : Registry} {queue : Queue α} {now : Instant}
    {window : Window} {e : Failure SessionError} (hwindow : registry.get? rule = some window) :
    queue.defer here registry rule token now = .error e ↔
      ∃ failure, window.nextEnd here now = .error failure ∧ e = failure.map (.blackout rule) := by
  unfold Queue.defer
  rw [hwindow]
  dsimp only
  cases window.nextEnd here now with
  | ok stop => simp
  | error failure => simp [eq_comm]

theorem routeMatch_eq_error_iff {e : Failure SessionError} :
    session.routeMatch here rule token = .error e ↔
      session.registry.Fails here session.now rule e := by
  unfold routeMatch
  rw [bind_eq_error, isInBlackout_eq_error_iff]
  constructor
  · rintro (⟨window, failure, hwindow, hfails, he⟩ | ⟨active, hactive, h⟩)
    · exact ⟨window, failure, hwindow, .inl hfails, he⟩
    · cases active with
      | false => cases h
      | true =>
        obtain ⟨window, hwindow, hactive⟩ := isInBlackout_eq_true_iff.mp hactive
        rcases bind_eq_error.mp h with h | ⟨_, _, h⟩
        · obtain ⟨failure, hend, he⟩ := (defer_eq_error_iff hwindow).mp h
          exact ⟨window, failure, hwindow, .inr ⟨hactive, hend⟩, he⟩
        · cases h
  · rintro ⟨window, failure, hwindow, hfails | ⟨hactive, hend⟩, he⟩
    · exact .inl ⟨window, failure, hwindow, hfails, he⟩
    · have hdefer : session.queue.defer here session.registry rule token session.now = .error e :=
        (defer_eq_error_iff hwindow).mpr ⟨failure, hend, he⟩
      exact .inr ⟨true, isInBlackout_eq_true_iff.mpr ⟨window, hwindow, hactive⟩,
        bind_eq_error.mpr (.inl hdefer)⟩

theorem routeMatches_keeps {P : Session α → Prop}
    (hstep : ∀ {session rule token event next}, P session →
      Routed here session rule token event next → P next)
    (hstart : P session) : P (routeMatches here batch session).2 := by
  induction batch generalizing session with
  | nil => exact hstart
  | cons routed rest ih =>
    obtain ⟨rule, token⟩ := routed
    unfold routeMatches
    cases h : session.routeMatch here rule token with
    | error e => exact hstart
    | ok outcome => exact ih (hstep hstart (routed_of_routeMatch h))

theorem routeMatches_cons_eq_ok_iff {rest : List (String × α)} :
    routeMatches here ((rule, token) :: rest) session = (.ok events, next) ↔
      ∃ event middle later, session.routeMatch here rule token = .ok (event, middle) ∧
        routeMatches here rest middle = (.ok later, next) ∧ events = event :: later := by
  rw [routeMatches]
  constructor
  · intro h
    split at h
    · cases h
    · next event middle hmatch =>
      cases hrest : routeMatches here rest middle with
      | mk outcome final =>
        rw [hrest] at h
        cases outcome with
        | error e => cases h
        | ok later =>
          cases h
          exact ⟨event, middle, later, hmatch, hrest, rfl⟩
  · rintro ⟨event, middle, later, hmatch, hrest, rfl⟩
    rw [hmatch]
    dsimp only
    rw [hrest]
    rfl

theorem routeMatches_cons_eq_ok {rest : List (String × α)}
    (h : routeMatches here ((rule, token) :: rest) session = (.ok events, next)) :
    ∃ event middle later, session.Routed here rule token event middle ∧
      routeMatches here rest middle = (.ok later, next) ∧ events = event :: later := by
  obtain ⟨event, middle, later, hmatch, hrest, hevents⟩ := routeMatches_cons_eq_ok_iff.mp h
  exact ⟨event, middle, later, routed_of_routeMatch hmatch, hrest, hevents⟩

/-- The parts of a batch are routed one after the other. -/
theorem routeMatches_append_eq_ok_iff {first second : List (String × α)} :
    routeMatches here (first ++ second) session = (.ok events, next) ↔
      ∃ a middle b, routeMatches here first session = (.ok a, middle) ∧
        routeMatches here second middle = (.ok b, next) ∧ events = a ++ b := by
  induction first generalizing session events with
  | nil =>
    constructor
    · exact fun h => ⟨[], session, events, rfl, h, rfl⟩
    · rintro ⟨a, middle, b, hnone, hsecond, rfl⟩
      cases hnone
      exact hsecond
  | cons head rest ih =>
    obtain ⟨rule, token⟩ := head
    rw [List.cons_append, routeMatches_cons_eq_ok_iff]
    constructor
    · rintro ⟨event, start, later, hmatch, hlater, rfl⟩
      obtain ⟨a, middle, b, hrest, hsecond, rfl⟩ := ih.mp hlater
      exact ⟨event :: a, middle, b,
        routeMatches_cons_eq_ok_iff.mpr ⟨event, start, a, hmatch, hrest, rfl⟩, hsecond, rfl⟩
    · rintro ⟨_, middle, b, hfirst, hsecond, rfl⟩
      obtain ⟨event, start, a, hmatch, hrest, rfl⟩ := routeMatches_cons_eq_ok_iff.mp hfirst
      exact ⟨event, start, a ++ b, hmatch, ih.mpr ⟨a, middle, b, hrest, hsecond, rfl⟩, rfl⟩

/-! ### Operations -/

def perform (here : Zone) (session : Session α) : Operation α → Outcome α
  | .process batch => session.processMatches here batch
  | .advance amount unit => session.advance amount unit
  | .advanceTo target => session.advanceTo target

theorem processMatches_of_ok (h : routeMatches here batch session = (.ok events, next)) :
    session.processMatches here batch = (.ok (events ++ next.flush.1), next.flush.2) := by
  unfold processMatches
  rw [h]

theorem processMatches_of_error {e : Failure SessionError}
    (h : routeMatches here batch session = (.error e, next)) :
    session.processMatches here batch = (.error e, next) := by
  unfold processMatches
  rw [h]

theorem moveClock_cases (session : Session α) (moved : Except ClockError Instant) :
    (∃ now, moved = .ok now ∧ session.moveClock moved =
      (.ok ({ session with now := now }).flush.1, ({ session with now := now }).flush.2)) ∨
    (∃ e, moved = .error e ∧
      session.moveClock moved = (.error (.reported (.clock e)), session)) := by
  cases moved with
  | ok now => exact .inl ⟨now, rfl, rfl⟩
  | error e => exact .inr ⟨e, rfl, rfl⟩

theorem perform_cases (here : Zone) (session : Session α) (op : Operation α) :
    (∃ batch, op = .process batch ∧
      session.perform here op = session.processMatches here batch) ∨
    (∃ now, session.now ≤ now ∧ session.perform here op =
      (.ok ({ session with now := now }).flush.1, ({ session with now := now }).flush.2)) ∨
    (∃ e, session.perform here op = (.error (.reported (.clock e)), session)) := by
  cases op with
  | process batch => exact .inl ⟨batch, rfl, rfl⟩
  | advance amount unit =>
    rcases session.moveClock_cases (session.now.advance amount unit) with ⟨now, hnow, h⟩ | ⟨e, -, h⟩
    · exact .inr (.inl ⟨now, Instant.le_of_advance hnow, h⟩)
    · exact .inr (.inr ⟨e, h⟩)
  | advanceTo target =>
    rcases session.moveClock_cases (session.now.advanceTo target) with ⟨now, hnow, h⟩ | ⟨e, -, h⟩
    · exact .inr (.inl ⟨now, Instant.le_of_advanceTo hnow, h⟩)
    · exact .inr (.inr ⟨e, h⟩)

/-! ### Runs -/

/-- Session after a run, whether its operations succeed or fail. -/
def after (here : Zone) (session : Session α) (ops : List (Operation α)) : Session α :=
  ops.foldl (fun session op => (session.perform here op).2) session

/-- Events of a run in order. An operation that fails has none. -/
def log (here : Zone) : Session α → List (Operation α) → List (Event α)
  | _, [] => []
  | session, op :: rest =>
    (session.perform here op).1.toOption.getD [] ++ log here (session.perform here op).2 rest

theorem after_keeps {P : Session α → Prop}
    (hstep : ∀ {session} op, P session → P (session.perform here op).2) (hstart : P session)
    (ops : List (Operation α)) : P (session.after here ops) := by
  induction ops generalizing session with
  | nil => exact hstart
  | cons op rest ih => exact ih (hstep op hstart)

/-! ### Registry and clock -/

theorem routeMatches_registry_now (here : Zone) (batch : List (String × α))
    (session : Session α) :
    (routeMatches here batch session).2.registry = session.registry ∧
      (routeMatches here batch session).2.now = session.now := by
  refine routeMatches_keeps
    (P := fun s => s.registry = session.registry ∧ s.now = session.now) ?_ ⟨rfl, rfl⟩
  intro _ _ _ _ _ h hrouted
  cases hrouted with
  | delivered => exact h
  | deferred => exact h

theorem processMatches_registry_now (here : Zone) (batch : List (String × α))
    (session : Session α) :
    (session.processMatches here batch).2.registry = session.registry ∧
      (session.processMatches here batch).2.now = session.now := by
  obtain ⟨hregistry, hnow⟩ := routeMatches_registry_now here batch session
  cases h : routeMatches here batch session with
  | mk outcome routed =>
    rw [h] at hregistry hnow
    cases outcome with
    | error e =>
      rw [processMatches_of_error h]
      exact ⟨hregistry, hnow⟩
    | ok events =>
      rw [processMatches_of_ok h]
      exact ⟨hregistry, hnow⟩

theorem perform_registry (op : Operation α) :
    (session.perform here op).2.registry = session.registry := by
  rcases perform_cases here session op with ⟨batch, -, h⟩ | ⟨now, -, h⟩ | ⟨e, h⟩
  · rw [h]
    exact (processMatches_registry_now here batch session).1
  · rw [h]
    rfl
  · rw [h]

theorem le_perform_now (op : Operation α) : session.now ≤ (session.perform here op).2.now := by
  rcases perform_cases here session op with ⟨batch, -, h⟩ | ⟨now, hle, h⟩ | ⟨e, h⟩
  · rw [h, (processMatches_registry_now here batch session).2]
    exact Reading.le_refl _
  · rw [h]
    exact hle
  · rw [h]
    exact Reading.le_refl _

theorem after_registry (ops : List (Operation α)) :
    (session.after here ops).registry = session.registry :=
  after_keeps (P := fun s => s.registry = session.registry)
    (fun op h => (perform_registry op).trans h) rfl ops

theorem le_after_now (ops : List (Operation α)) : session.now ≤ (session.after here ops).now :=
  after_keeps (P := fun s => session.now ≤ s.now)
    (fun op h => Reading.le_trans h (le_perform_now op)) (Reading.le_refl _) ops

end Session

end Blackout
