import Blackout.Proofs.Withholding

/-!
# Batches that fail

A match fails if its rule's window cannot be evaluated, which depends on the registry and the clock
and not on the queue. A batch fails at the first match that does. The matches before it have been
routed by then, so those of rules in their blackout are in the queue, although their events are
lost. The session is as it was exactly if there are none.
-/

namespace Blackout

variable {α : Type} {here : Zone} {rule r : String} {token : α}
  {batch rest : List (String × α)} {e : Failure SessionError}

/-- Matches of a rule in a batch, in their order. -/
def tokensOf (rule : String) (batch : List (String × α)) : List α :=
  (batch.filter fun m => m.1 = rule).map Prod.snd

theorem tokensOf_cons_self :
    tokensOf rule ((rule, token) :: rest) = token :: tokensOf rule rest := by
  unfold tokensOf
  rw [List.filter_cons_of_pos (by simp), List.map_cons]

theorem tokensOf_cons_of_ne (hne : r ≠ rule) :
    tokensOf r ((rule, token) :: rest) = tokensOf r rest := by
  unfold tokensOf
  rw [List.filter_cons_of_neg (by simpa using Ne.symm hne)]

theorem tokensOf_ne_nil_iff : tokensOf rule batch ≠ [] ↔ ∃ m ∈ batch, m.1 = rule := by
  simp [tokensOf, List.filter_eq_nil_iff]

/-! ### The first match that fails -/

namespace Session

variable {session next : Session α} {events : List (Event α)}

/-- A batch stops at the first match that fails, with what was routed before it. -/
theorem routeMatches_eq_error_iff :
    routeMatches here batch session = (.error e, next) ↔
      ∃ done rule token rest events, batch = done ++ (rule, token) :: rest ∧
        routeMatches here done session = (.ok events, next) ∧
        next.routeMatch here rule token = .error e := by
  induction batch generalizing session with
  | nil =>
    constructor
    · intro h
      cases h
    · rintro ⟨done, rule, token, rest, events, h, -⟩
      cases done <;> cases h
  | cons head tail ih =>
    obtain ⟨name, first⟩ := head
    constructor
    · intro h
      rw [routeMatches] at h
      split at h
      · next hmatch =>
        cases h
        exact ⟨[], name, first, tail, [], rfl, rfl, hmatch⟩
      · next event middle hmatch =>
        cases hrest : routeMatches here tail middle with
        | mk outcome final =>
          rw [hrest] at h
          cases outcome with
          | ok later => cases h
          | error e' =>
            cases h
            obtain ⟨done, rule, token, rest, events, rfl, hdone, hfails⟩ := ih.mp hrest
            exact ⟨(name, first) :: done, rule, token, rest, event :: events, rfl,
              routeMatches_cons_eq_ok_iff.mpr ⟨event, middle, events, hmatch, hdone, rfl⟩, hfails⟩
    · rintro ⟨done, rule, token, rest, events, hsplit, hdone, hfails⟩
      cases done with
      | nil =>
        cases hsplit
        cases hdone
        rw [routeMatches, hfails]
      | cons routed done =>
        cases hsplit
        obtain ⟨event, middle, later, hmatch, hlater, -⟩ := routeMatches_cons_eq_ok_iff.mp hdone
        have hrest := ih.mpr ⟨done, rule, token, rest, later, rfl, hlater, hfails⟩
        rw [routeMatches, hmatch]
        dsimp only
        rw [hrest]
        rfl

/-! ### What the matches before it leave -/

/-- The session `next` has taken the matches `done` in: those of a rule in its blackout are added to
the rule's entry, which now waits for the next end of its window. All else is as before. -/
structure Takes (here : Zone) (session : Session α) (done : List (String × α)) (next : Session α) :
    Prop where
  registry : next.registry = session.registry
  now : next.now = session.now
  added : ∀ r, session.registry.isInBlackout here r session.now = .ok true → tokensOf r done ≠ [] →
    ∃ window stop, session.registry.get? r = some window ∧
      window.nextEnd here session.now = .ok stop ∧
      next.queue.get? r = some ⟨stop, session.queue.withheld r ++ tokensOf r done⟩
  kept : ∀ r, session.registry.isInBlackout here r session.now ≠ .ok true ∨ tokensOf r done = [] →
    next.queue.get? r = session.queue.get? r

theorem Takes.nil (here : Zone) (session : Session α) : session.Takes here [] session where
  registry := rfl
  now := rfl
  added _ _ hsome := absurd rfl hsome
  kept _ _ := rfl

theorem Takes.cons_delivered {done : List (String × α)} (ht : session.Takes here done next)
    (hactive : session.registry.isInBlackout here rule session.now = .ok false) :
    session.Takes here ((rule, token) :: done) next where
  registry := ht.registry
  now := ht.now
  added r hblackout hsome := by
    have hne : r ≠ rule := by
      rintro rfl
      cases hactive.symm.trans hblackout
    rw [tokensOf_cons_of_ne hne] at hsome ⊢
    exact ht.added r hblackout hsome
  kept r h := by
    refine ht.kept r ?_
    by_cases hr : r = rule
    · subst hr
      rw [hactive]
      exact .inl nofun
    · rwa [tokensOf_cons_of_ne hr] at h

theorem Takes.cons_deferred {done : List (String × α)} {window : Window} {stop : OffsetTime}
    (ht : { session with queue := session.queue.push rule token stop }.Takes here done next)
    (hactive : session.registry.isInBlackout here rule session.now = .ok true)
    (hwindow : session.registry.get? rule = some window)
    (hend : window.nextEnd here session.now = .ok stop) :
    session.Takes here ((rule, token) :: done) next where
  registry := ht.registry
  now := ht.now
  added r hblackout hsome := by
    by_cases hr : r = rule
    · subst hr
      rw [tokensOf_cons_self]
      by_cases hlater : tokensOf r done = []
      · refine ⟨window, stop, hwindow, hend, ?_⟩
        rw [ht.kept r (.inr hlater), Queue.get?_push, if_pos rfl, hlater]
      · obtain ⟨listed, last, hlisted, hlast, hentry⟩ := ht.added r hblackout hlater
        refine ⟨listed, last, hlisted, hlast, ?_⟩
        rw [hentry, Queue.withheld_push, if_pos rfl, List.append_assoc, List.singleton_append]
    · rw [tokensOf_cons_of_ne hr] at hsome ⊢
      obtain ⟨listed, last, hlisted, hlast, hentry⟩ := ht.added r hblackout hsome
      refine ⟨listed, last, hlisted, hlast, ?_⟩
      rw [hentry, Queue.withheld_push, if_neg hr]
  kept r h := by
    have hr : r ≠ rule := by
      rintro rfl
      rw [tokensOf_cons_self] at h
      rcases h with h | h
      · exact h hactive
      · cases h
    rw [tokensOf_cons_of_ne hr] at h
    rw [ht.kept r h, Queue.get?_push, if_neg hr]

theorem takes_of_routeMatches (h : routeMatches here batch session = (.ok events, next)) :
    session.Takes here batch next := by
  induction batch generalizing session events with
  | nil =>
    cases h
    exact .nil here _
  | cons head rest ih =>
    obtain ⟨rule, token⟩ := head
    obtain ⟨event, middle, later, hrouted, hrest, -⟩ := routeMatches_cons_eq_ok h
    cases hrouted with
    | delivered hactive => exact (ih hrest).cons_delivered hactive
    | deferred hactive hwindow hend => exact (ih hrest).cons_deferred hactive hwindow hend

/-- Nothing was taken in exactly if no rule of the matches is in its blackout. -/
theorem Takes.get?_eq_iff {done : List (String × α)} (ht : session.Takes here done next) :
    (∀ r, next.queue.get? r = session.queue.get? r) ↔
      ∀ m ∈ done, session.registry.isInBlackout here m.1 session.now ≠ .ok true := by
  constructor
  · intro hsame m hm hblackout
    have hsome := tokensOf_ne_nil_iff.mpr ⟨m, hm, rfl⟩
    obtain ⟨_, _, -, -, hentry⟩ := ht.added m.1 hblackout hsome
    rw [hsame] at hentry
    -- the entry would have to hold the added matches already
    exact hsome (List.self_eq_append_right.mp (Queue.withheld_of_get? hentry))
  · intro hnone r
    refine ht.kept r ?_
    by_cases hsome : tokensOf r done = []
    · exact .inr hsome
    · obtain ⟨m, hm, rfl⟩ := tokensOf_ne_nil_iff.mp hsome
      exact .inl (hnone m hm)

/-- Routing changes neither the registry nor the clock, so no match fails later that would not have
failed at first. -/
theorem not_fails_of_routeMatches (h : routeMatches here batch session = (.ok events, next)) :
    ∀ m ∈ batch, ∀ e, ¬ session.registry.Fails here session.now m.1 e := by
  induction batch generalizing session events with
  | nil => exact nofun
  | cons head rest ih =>
    obtain ⟨rule, token⟩ := head
    obtain ⟨event, middle, later, hmatch, hrest, -⟩ := routeMatches_cons_eq_ok_iff.mp h
    have hlater := ih hrest
    have hrouted := routed_of_routeMatch hmatch
    intro m hm e hfails
    rcases List.mem_cons.mp hm with rfl | hm
    · rw [routeMatch_eq_error_iff.mpr hfails] at hmatch
      cases hmatch
    · refine hlater m hm e ?_
      cases hrouted with
      | delivered => exact hfails
      | deferred => exact hfails

theorem processMatches_eq_error_iff :
    session.processMatches here batch = (.error e, next) ↔
      routeMatches here batch session = (.error e, next) := by
  cases h : routeMatches here batch session with
  | mk outcome routed =>
    cases outcome with
    | error error =>
      rw [processMatches_of_error h]
    | ok events =>
      rw [processMatches_of_ok h]
      constructor <;> intro hfailed <;> cases hfailed

/-- **A failed batch keeps what came before it failed.** A batch fails exactly if some match of it
does. Then the matches before the first that fails have been taken in: a rule that has some of them
and is in its blackout has them in its entry, with its next end, while the entries of all other
rules, the registry and the clock are as before. So the batch leaves no trace exactly if no match
before the first that fails is of a rule in its blackout. -/
theorem processMatches_failed (here : Zone) (session : Session α) (batch : List (String × α)) :
    ((∃ e next, session.processMatches here batch = (.error e, next)) ↔
      ∃ m ∈ batch, ∃ e, session.registry.Fails here session.now m.1 e) ∧
    ∀ e next, session.processMatches here batch = (.error e, next) →
      ∃ done rule token rest, batch = done ++ (rule, token) :: rest ∧
        (∀ m ∈ done, ∀ e, ¬ session.registry.Fails here session.now m.1 e) ∧
        session.registry.Fails here session.now rule e ∧
        session.Takes here done next ∧
        ((∀ r, next.queue.get? r = session.queue.get? r) ↔
          ∀ m ∈ done, session.registry.isInBlackout here m.1 session.now ≠ .ok true) := by
  have hfailed {e : Failure SessionError} {next : Session α}
      (h : session.processMatches here batch = (.error e, next)) :
      ∃ done rule token rest events, batch = done ++ (rule, token) :: rest ∧
        routeMatches here done session = (.ok events, next) ∧
        session.registry.Fails here session.now rule e := by
    obtain ⟨done, rule, token, rest, events, hsplit, hdone, hmatch⟩ :=
      routeMatches_eq_error_iff.mp (processMatches_eq_error_iff.mp h)
    have htakes := takes_of_routeMatches hdone
    have hfails := routeMatch_eq_error_iff.mp hmatch
    rw [htakes.registry, htakes.now] at hfails
    exact ⟨done, rule, token, rest, events, hsplit, hdone, hfails⟩
  constructor
  · constructor
    · rintro ⟨e, next, h⟩
      obtain ⟨done, rule, token, rest, _, rfl, -, hfails⟩ := hfailed h
      exact ⟨(rule, token), List.mem_append_right done List.mem_cons_self, e, hfails⟩
    · rintro ⟨m, hm, e, hfails⟩
      cases h : routeMatches here batch session with
      | mk outcome next =>
        cases outcome with
        | ok events => exact absurd hfails (not_fails_of_routeMatches h m hm e)
        | error error => exact ⟨error, next, processMatches_of_error h⟩
  · intro e next h
    obtain ⟨done, rule, token, rest, events, hsplit, hdone, hfails⟩ := hfailed h
    have htakes := takes_of_routeMatches hdone
    exact ⟨done, rule, token, rest, hsplit, not_fails_of_routeMatches hdone, hfails, htakes,
      htakes.get?_eq_iff⟩

end Session

def Window.firstOfMonth : Window :=
  ⟨⟨none, some 0, none, some 1, none⟩, ⟨none, some 0, none, some 2, none⟩,
    .monthly 1 ⟨0⟩ 2 ⟨0⟩, .all, .utc⟩

theorem Window.ofBounds_firstOfMonth :
    ofBounds ⟨none, some 0, none, some 1, none⟩ ⟨none, some 0, none, some 2, none⟩ .all .utc =
      .ok firstOfMonth := rfl

/-- Three in the afternoon of the last day of the calendar. -/
def Session.lastAfternoon (entries : List (String × Withheld Nat)) : Session Nat :=
  ⟨.pushAll .empty [("r", .afternoon), ("s", .firstOfMonth)],
    .onDay (Date.mk 262142 12 31).dayNumber ⟨54000⟩, ⟨entries⟩⟩

/-- The occurrence of the month after the last one has no reading, so the second match fails. The
first one stays withheld. -/
theorem Session.processMatches_failed_last_afternoon :
    ∃ (stop : OffsetTime) (error : WindowError), (lastAfternoon []).registry.Universal ∧
      (lastAfternoon []).processMatches .universal [("r", 1), ("s", 2)] =
        (.error (.reported (.blackout "s" error)), lastAfternoon [("r", ⟨stop, [1]⟩)]) ∧
      error = .noOccurrence .monthly (.onDay (Date.mk 262142 12 31).dayNumber ⟨54000⟩) ∧
      (∃ m ∈ [("r", 1), ("s", 2)],
        ∃ e, (lastAfternoon []).registry.Fails .universal (lastAfternoon []).now m.1 e) ∧
      ∃ done rule token rest, [("r", 1), ("s", 2)] = done ++ (rule, token) :: rest ∧
        (lastAfternoon []).registry.Fails .universal (lastAfternoon []).now rule
          (.reported (.blackout "s" error)) ∧
        (lastAfternoon []).Takes .universal done (lastAfternoon [("r", ⟨stop, [1]⟩)]) ∧
        ∃ m ∈ done, (lastAfternoon []).registry.isInBlackout .universal m.1
          (lastAfternoon []).now = .ok true := by
  have hutc : (lastAfternoon []).registry.Universal := by
    intro listed hlisted
    rcases List.mem_pair.mp hlisted with rfl | rfl
    · exact ⟨_, _, _, Window.ofBounds_afternoon⟩
    · exact ⟨_, _, _, Window.ofBounds_firstOfMonth⟩
  obtain ⟨hfails, hfailed⟩ :=
    processMatches_failed .universal (lastAfternoon []) [("r", 1), ("s", 2)]
  have hrun : (lastAfternoon []).processMatches .universal [("r", 1), ("s", 2)] =
      (.error (.reported (.blackout "s" (.noOccurrence .monthly
        (.onDay (Date.mk 262142 12 31).dayNumber ⟨54000⟩)))),
        lastAfternoon [("r", ⟨⟨.onDay (Date.mk 262142 12 31).dayNumber ⟨58500⟩, 0⟩, [1]⟩)]) := rfl
  obtain ⟨done, rule, token, rest, hsplit, -, hfirst, htakes, htrace⟩ := hfailed _ _ hrun
  refine ⟨_, _, hutc, hrun, rfl, hfails.mp ⟨_, _, hrun⟩, done, rule, token, rest, hsplit, hfirst,
    htakes, ?_⟩
  by_contra hnone
  -- the entry that the first match made is new
  cases (htrace.mpr fun m hm hblackout => hnone ⟨m, hm, hblackout⟩) "r"

end Blackout
