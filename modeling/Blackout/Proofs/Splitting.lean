import Blackout.Proofs.Advance
import Blackout.Proofs.Episodes

/-!
# Operations in parts

A batch may be handed in by parts, and the clock may be advanced by stages. Both put a flush where
there was none. After the first part of a batch nothing is due, so that flush releases nothing.
After the first stage of an advance it releases what the flush at the end would have released: an
entry that is due stays due, and is released as a whole by the first flush that finds it so. Only
the order of the rules can differ.
-/

namespace Blackout

variable {α : Type}

/-- What a match that comes in is answered with: it is delivered at once, or it is deferred. -/
inductive Event.Answers : String × α → Event α → Prop where
  | delivered (rule : String) (token : α) : Answers (rule, token) (.delivered rule token false)
  | deferred (rule : String) (token : α) (stop : OffsetTime) (pending : Nat) :
    Answers (rule, token) (.deferred rule stop pending)

namespace Session

variable {here : Zone} {session next : Session α} {rule : String} {token : α} {event : Event α}
  {events : List (Event α)} {batch : List (String × α)}

/-! ### Batches -/

theorem Routed.answers (h : session.Routed here rule token event next) :
    event.Answers (rule, token) := by
  cases h with
  | delivered => exact .delivered rule token
  | deferred => exact .deferred rule token _ _

theorem answers_of_routeMatches (h : routeMatches here batch session = (.ok events, next)) :
    List.Forall₂ Event.Answers batch events := by
  induction batch generalizing session events with
  | nil =>
    cases h
    exact .nil
  | cons head rest ih =>
    obtain ⟨rule, token⟩ := head
    obtain ⟨event, middle, later, hrouted, hrest, rfl⟩ := routeMatches_cons_eq_ok h
    exact .cons hrouted.answers (ih hrest)

/-- **Batching does not matter.** In every session that a run leads to from an empty queue, where
all windows are read in universal time, a batch succeeds exactly if its two parts do, one after the
other, with the same events and the same session after it. The events answer the matches one by one
in order, and none of them is a release. -/
theorem processMatches_append {registry : Registry} (hutc : registry.Universal) {now : Instant}
    {ops : List (Operation α)} (hrun : (start registry now).after here ops = session) :
    (∀ first second events next,
      session.processMatches here (first ++ second) = (.ok events, next) ↔
        ∃ a middle b, session.processMatches here first = (.ok a, middle) ∧
          middle.processMatches here second = (.ok b, next) ∧ events = a ++ b) ∧
    ∀ batch events next, session.processMatches here batch = (.ok events, next) →
      List.Forall₂ Event.Answers batch events ∧
        ∀ event ∈ events, ∀ rule, ¬ event.Releases rule := by
  subst hrun
  have hp := (punctual_start hutc here now).after (α := α) ops
  constructor
  · intro first second events next
    rw [hp.processMatches_eq, hp.processMatches_eq, routeMatches_append_eq_ok_iff]
    refine exists_congr fun a => exists_congr fun middle => exists_congr fun b => ?_
    refine and_congr_right fun hfirst => ?_
    -- the first part leaves the session punctual, so the flush after it releases nothing
    have hmiddle := hp.routeMatches first
    rw [hfirst] at hmiddle
    rw [hmiddle.processMatches_eq]
  · intro batch events next h
    rw [hp.processMatches_eq] at h
    exact ⟨answers_of_routeMatches h, fun event hevent rule =>
      not_releases_of_routeMatches h rule event hevent⟩

/-- Two matches of a rule in its blackout, and one of another rule between them, come in two parts
or as one batch, after a match that is withheld already. -/
theorem processMatches_append_afternoon :
    ∃ (stop : OffsetTime) (events : List (Event Nat)) (next : Session Nat),
      Registry.Universal (.push .empty "r" .afternoon) ∧
      (start (.push .empty "r" .afternoon) (afternoon 54000 []).now).after .universal
        [.process [("r", 6)]] = afternoon 54000 [("r", ⟨stop, [6]⟩)] ∧
      (afternoon 54000 [("r", ⟨stop, [6]⟩)]).processMatches .universal
        ([("r", 7), ("s", 1)] ++ [("r", 8)]) = (.ok events, next) ∧
      events = [.deferred "r" stop 2, .delivered "s" 1 false, .deferred "r" stop 3] ∧
      List.Forall₂ Event.Answers [("r", 7), ("s", 1), ("r", 8)] events ∧
      ∃ a middle b,
        (afternoon 54000 [("r", ⟨stop, [6]⟩)]).processMatches .universal [("r", 7), ("s", 1)] =
          (.ok a, middle) ∧
        middle.processMatches .universal [("r", 8)] = (.ok b, next) ∧ events = a ++ b := by
  have hutc : Registry.Universal (.push .empty "r" .afternoon) := by
    intro listed hlisted
    rw [List.mem_singleton.mp hlisted]
    exact ⟨_, _, _, Window.ofBounds_afternoon⟩
  have hrun : (start (.push .empty "r" .afternoon) (afternoon 54000 []).now).after .universal
      [.process [("r", 6)]] =
        afternoon 54000 [("r", ⟨⟨(afternoon 58500 []).now, 0⟩, [6]⟩)] := rfl
  obtain ⟨hparts, hone⟩ := processMatches_append hutc hrun
  have hbatch : (afternoon 54000 [("r", ⟨⟨(afternoon 58500 []).now, 0⟩, [6]⟩)]).processMatches
      .universal ([("r", 7), ("s", 1)] ++ [("r", 8)]) =
        (.ok [.deferred "r" ⟨(afternoon 58500 []).now, 0⟩ 2, .delivered "s" 1 false,
          .deferred "r" ⟨(afternoon 58500 []).now, 0⟩ 3],
          afternoon 54000 [("r", ⟨⟨(afternoon 58500 []).now, 0⟩, [6, 7, 8]⟩)]) := rfl
  exact ⟨_, _, _, hutc, hrun, hbatch, rfl, (hone _ _ _ hbatch).1, (hparts _ _ _ _).mp hbatch⟩

end Session

/-! ### Flushes one after another -/

namespace Queue

variable {queue : Queue α} {registry : Registry} {rule : String} {window : Window}
  {sooner later : Instant}

theorem Due.mono (hdue : queue.Due sooner rule) (hle : sooner ≤ later) :
    queue.Due later rule := by
  obtain ⟨entry, hentry, hpassed⟩ := hdue
  exact ⟨entry, hentry, Reading.lt_of_lt_of_le hpassed hle⟩

theorem due_flush_iff (hlisted : rule ∈ registry.entries.map Prod.fst) :
    (queue.flush registry sooner).2.Due later rule ↔
      ¬ queue.Due sooner rule ∧ queue.Due later rule := by
  unfold flush
  by_cases hdue : queue.Due sooner rule
  · have hgone := get?_flushRules_of_due hlisted hdue
    constructor
    · rintro ⟨entry, hentry, -⟩
      cases hgone.symm.trans hentry
    · exact fun h => absurd hdue h.1
  · unfold Due
    rw [get?_flushRules_of_not_due hdue]
    exact (and_iff_right hdue).symm

theorem flush_flush (hle : sooner ≤ later) :
    ((queue.flush registry sooner).2.flush registry later).2 =
      (queue.flush registry later).2 := by
  have hentries : ((queue.flush registry sooner).2.flush registry later).2.entries =
      (queue.flush registry later).2.entries := by
    rw [flush, entries_flushRules, flush, entries_flushRules, List.filter_filter, flush,
      entries_flushRules]
    refine List.filter_congr fun entry _ => ?_
    rw [Bool.eq_iff_iff, Bool.and_eq_true, decide_eq_true_iff, decide_eq_true_iff,
      decide_eq_true_iff]
    -- entries of rules that are not listed are kept by every flush
    by_cases hlisted : entry.1 ∈ registry.entries.map Prod.fst
    · have hdue : (queue.flush registry sooner).2.Due later entry.1 ↔
          ¬ queue.Due sooner entry.1 ∧ queue.Due later entry.1 := due_flush_iff hlisted
      have hmono : queue.Due sooner entry.1 → queue.Due later entry.1 := fun h => h.mono hle
      unfold flush at hdue
      tauto
    · tauto
  exact congrArg Queue.mk hentries

theorem releaseOf?_flush (hle : sooner ≤ later) (hlisted : rule ∈ registry.entries.map Prod.fst) :
    (queue.releaseOf? sooner rule window).toList ++
      ((queue.flush registry sooner).2.releaseOf? later rule window).toList =
        (queue.releaseOf? later rule window).toList := by
  by_cases hdue : queue.Due sooner rule
  · have hnot : ¬ (queue.flush registry sooner).2.Due later rule := fun h =>
      ((due_flush_iff hlisted).mp h).1 hdue
    obtain ⟨entry, hentry, hpassed⟩ := hdue
    rw [releaseOf?_of_due hentry hpassed, releaseOf?_of_not_due hnot,
      releaseOf?_of_due hentry (Reading.lt_of_lt_of_le hpassed hle)]
    rfl
  · have hkept : (queue.flush registry sooner).2.get? rule = queue.get? rule :=
      get?_flushRules_of_not_due hdue
    rw [releaseOf?_of_not_due hdue, releaseOf?, hkept, ← releaseOf?]
    rfl

end Queue

namespace Session

variable {session middle next : Session α} {first second events : List (Event α)}
  {sooner later : Instant}

/-- The same is released of every rule, announcements and matches alike. -/
def SameReleases (first second : List (Event α)) : Prop :=
  ∀ rule : String, first.filter (fun event => event.Releases rule) =
    second.filter (fun event => event.Releases rule)

theorem sameReleases_flush (session : Session α) (hle : sooner ≤ later) :
    SameReleases (({ session with now := sooner }).flush.1 ++
      ({ ({ session with now := sooner }).flush.2 with now := later }).flush.1)
      ({ session with now := later }).flush.1 := by
  intro rule
  rw [List.filter_append, filter_flush, filter_flush, filter_flush]
  change ((session.registry.entries.lookup rule).bind
      (session.queue.releaseOf? sooner rule)).toList.flatMap Release.events ++
    ((session.registry.entries.lookup rule).bind
      ((session.queue.flush session.registry sooner).2.releaseOf? later rule)).toList.flatMap
        Release.events =
    ((session.registry.entries.lookup rule).bind
      (session.queue.releaseOf? later rule)).toList.flatMap Release.events
  cases hwindow : session.registry.entries.lookup rule with
  | none => rfl
  | some window =>
    have hlisted : rule ∈ session.registry.entries.map Prod.fst :=
      List.mem_map_of_mem (mem_of_lookup hwindow)
    rw [Option.bind_some, Option.bind_some, Option.bind_some, ← List.flatMap_append,
      Queue.releaseOf?_flush hle hlisted]

/-- Moving the clock by stages does what moving it at once does, up to the order in which different
rules are released. -/
theorem moveClock_moveClock (session : Session α) (hle : sooner ≤ later) :
    ∃ first middle second next events,
      session.moveClock (.ok sooner) = (.ok first, middle) ∧ middle.now = sooner ∧
      middle.moveClock (.ok later) = (.ok second, next) ∧
      session.moveClock (.ok later) = (.ok events, next) ∧
      SameReleases (first ++ second) events := by
  have hnext : ({ ({ session with now := sooner }).flush.2 with now := later }).flush.2 =
      ({ session with now := later }).flush.2 :=
    congrArg (fun queue => (⟨session.registry, later, queue⟩ : Session α))
      (Queue.flush_flush hle)
  refine ⟨({ session with now := sooner }).flush.1, ({ session with now := sooner }).flush.2,
    ({ ({ session with now := sooner }).flush.2 with now := later }).flush.1,
    ({ session with now := later }).flush.2, ({ session with now := later }).flush.1, rfl, rfl, ?_,
    rfl, session.sameReleases_flush hle⟩
  rw [← hnext]
  rfl

theorem moveClock_eq_ok {moved : Except ClockError Instant}
    (h : session.moveClock moved = (.ok events, next)) : moved = .ok next.now := by
  rcases session.moveClock_cases moved with ⟨now, hnow, hok⟩ | ⟨e, -, herror⟩
  · cases hok.symm.trans h
    exact hnow
  · cases herror.symm.trans h

theorem advance_advance {unit : TimeUnit} {a b : Nat} (hnow : session.now.Representable)
    (hsooner : session.now.advance a unit = .ok sooner)
    (hlater : sooner.advance b unit = .ok later) :
    ∃ first middle second next events, session.advance a unit = (.ok first, middle) ∧
      middle.advance b unit = (.ok second, next) ∧
      session.advance (a + b) unit = (.ok events, next) ∧
      SameReleases (first ++ second) events := by
  have hboth := (Instant.advance_add_iff hnow a b).mp ⟨sooner, hsooner, hlater⟩
  obtain ⟨first, middle, second, next, events, hfirst, hmiddle, hsecond, hevents, hsame⟩ :=
    session.moveClock_moveClock (Instant.le_of_advance hlater)
  refine ⟨first, middle, second, next, events, ?_, ?_, ?_, hsame⟩
  · rw [advance, hsooner, hfirst]
  · rw [advance, hmiddle, hlater, hsecond]
  · rw [advance, hboth, hevents]

/-- **An advance may be made by stages.** In a session in any state, whose windows are read in any
zones, and whose clock shows a time of the calendar: advances by two amounts of a unit succeed, one
after the other, exactly if the advance by both amounts does. Then they lead to the same session,
with the same clock and queue, and release the same of every rule. Moving the clock to one time
and then to a later one does the same as moving it to the later one. -/
theorem advance_in_stages {session : Session α} (hnow : session.now.Representable) :
    (∀ unit a b next,
      (∀ first middle second, session.advance a unit = (.ok first, middle) →
        middle.advance b unit = (.ok second, next) →
          ∃ events, session.advance (a + b) unit = (.ok events, next) ∧
            SameReleases (first ++ second) events) ∧
      ∀ events, session.advance (a + b) unit = (.ok events, next) →
        ∃ first middle second, session.advance a unit = (.ok first, middle) ∧
          middle.advance b unit = (.ok second, next) ∧ SameReleases (first ++ second) events) ∧
    ∀ sooner later, session.now ≤ sooner → sooner ≤ later →
      ∃ first middle second next events, session.advanceTo sooner = (.ok first, middle) ∧
        middle.advanceTo later = (.ok second, next) ∧
        session.advanceTo later = (.ok events, next) ∧ SameReleases (first ++ second) events := by
  constructor
  · intro unit a b next
    constructor
    · intro first middle second hfirst hsecond
      obtain ⟨_, _, _, _, events, hfirst', hsecond', hevents, hsame⟩ :=
        advance_advance hnow (moveClock_eq_ok hfirst) (moveClock_eq_ok hsecond)
      cases hfirst.symm.trans hfirst'
      cases hsecond.symm.trans hsecond'
      exact ⟨events, hevents, hsame⟩
    · intro events hevents
      obtain ⟨sooner, hsooner, hlater⟩ :=
        (Instant.advance_add_iff hnow a b).mpr (moveClock_eq_ok hevents)
      obtain ⟨first, middle, second, _, _, hfirst, hsecond, hevents', hsame⟩ :=
        advance_advance hnow hsooner hlater
      cases hevents.symm.trans hevents'
      exact ⟨first, middle, second, hfirst, hsecond, hsame⟩
  · intro sooner later hsooner hlater
    obtain ⟨first, middle, second, next, events, hfirst, hmiddle, hsecond, hevents, hsame⟩ :=
      session.moveClock_moveClock hlater
    refine ⟨first, middle, second, next, events, ?_, ?_, ?_, hsame⟩
    · rw [advanceTo, Instant.advanceTo_of_le hsooner, hfirst]
    · rw [advanceTo, hmiddle, Instant.advanceTo_of_le hlater, hsecond]
    · rw [advanceTo, Instant.advanceTo_of_le (Reading.le_trans hsooner hlater), hevents]

/-- A match is withheld, and the clock is some nanoseconds into the last second of its blackout. -/
def lastSecond (nanos : Nat) : Session Nat :=
  ⟨.push .empty "r" .afternoon, ⟨(afternoon 58499 []).now.seconds, nanos⟩,
    ⟨[("r", ⟨⟨(afternoon 58500 []).now, 0⟩, [7]⟩)]⟩⟩

/-- From within a leap second, a first stage of 400 milliseconds does not leave it, and a second one
of 200 leaves it for the time after the blackout. -/
theorem advance_in_stages_leap_second :
    ∃ next events, (lastSecond 1500000000).now.Representable ∧
      (lastSecond 1500000000).advance 400 .milliseconds = (.ok [], lastSecond 1900000000) ∧
      (lastSecond 1900000000).advance 200 .milliseconds =
        (.ok [.released "r" 1, .delivered "r" 7 true], next) ∧
      next.now = ⟨(afternoon 58500 []).now.seconds, 100000000⟩ ∧
      (lastSecond 1500000000).advance (400 + 200) .milliseconds = (.ok events, next) ∧
      SameReleases ([] ++ [.released "r" 1, .delivered "r" 7 true]) events := by
  have hnow : (lastSecond 1500000000).now.Representable :=
    (Reading.representable_iff _).mpr (by decide)
  have hfirst : (lastSecond 1500000000).advance 400 .milliseconds =
      (.ok [], lastSecond 1900000000) := by
    unfold lastSecond
    rfl
  have hsecond : (lastSecond 1900000000).advance 200 .milliseconds =
      (.ok [.released "r" 1, .delivered "r" 7 true],
        ⟨.push .empty "r" .afternoon, ⟨(afternoon 58500 []).now.seconds, 100000000⟩, ⟨[]⟩⟩) := by
    unfold lastSecond
    rfl
  obtain ⟨hstages, -⟩ := advance_in_stages hnow
  obtain ⟨events, hevents, hsame⟩ := (hstages .milliseconds 400 200 _).1 _ _ _ hfirst hsecond
  exact ⟨_, events, hnow, hfirst, hsecond, rfl, hevents, hsame⟩

end Session

end Blackout
