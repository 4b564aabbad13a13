import Mathlib.Data.List.Infix
import Blackout.Proofs.NextInstant
import Blackout.Proofs.Registry
import Blackout.Proofs.Run

/-!
# Withheld until the announced end

In a session whose windows are read in universal time, every entry of the queue waits for an end
that its rule's window had when the entry was last added to, and the clock is not past it. Next
ends never come earlier as the clock moves on. So a deferral, which sets the end anew, never sets an
earlier one, and what is withheld until an end stays withheld while the clock is not past it. The
operation that moves the clock past the end of an entry releases it.
-/

namespace Blackout

variable {α : Type} {rule : String} {token : α}

/-! ### Registries -/

theorem Window.mode_of_ofBounds {start stop : Point} {trigger : Trigger} {mode : ZoneMode}
    {w : Window} (h : Window.ofBounds start stop trigger mode = .ok w) : w.mode = mode := by
  unfold ofBounds at h
  obtain ⟨kind, -, h⟩ := bind_eq_ok.mp h
  split at h
  · cases h
    rfl
  · cases h

namespace Registry

variable {registry : Registry} {window : Window}

/-- Every window is built from bounds and read in universal time. -/
def Universal (registry : Registry) : Prop :=
  ∀ listed ∈ registry.entries, ∃ start stop trigger,
    Window.ofBounds start stop trigger .utc = .ok listed.2

theorem Universal.of_get? (hutc : registry.Universal) (h : registry.get? rule = some window) :
    window.schedule.Legal ∧ window.mode = .utc := by
  obtain ⟨start, stop, trigger, hw⟩ := hutc _ (mem_of_get? h)
  exact ⟨Window.legal_of_ofBounds hw, Window.mode_of_ofBounds hw⟩

end Registry

theorem Queue.get?_flush_of_due {registry : Registry} {queue : Queue α} {now : Instant}
    {window : Window} (hwindow : registry.get? rule = some window) (hdue : queue.Due now rule) :
    (queue.flush registry now).2.get? rule = none :=
  get?_flushRules_of_due (List.mem_map_of_mem (Registry.mem_of_get? hwindow)) hdue

/-! ### Entries that last -/

structure Withheld.Grows (entry later : Withheld α) : Prop where
  kept : entry.matches_ <+: later.matches_
  stop : entry.stop.instant ≤ later.stop.instant

theorem Withheld.Grows.refl (entry : Withheld α) : entry.Grows entry :=
  ⟨List.prefix_refl _, Reading.le_refl _⟩

theorem Withheld.Grows.trans {a b c : Withheld α} (hab : a.Grows b) (hbc : b.Grows c) :
    a.Grows c :=
  ⟨hab.kept.trans hbc.kept, Reading.le_trans hab.stop hbc.stop⟩

/-- The event hands on withheld matches of the rule, or announces that. -/
def Event.Releases (rule : String) : Event α → Prop
  | .delivered name _ late => name = rule ∧ late = true
  | .deferred .. => False
  | .released name _ => name = rule

theorem Release.eq_of_releases {release : Release α} {event : Event α}
    (h : event ∈ release.events) (hreleases : event.Releases rule) : release.rule = rule := by
  unfold events at h
  rcases List.mem_cons.mp h with rfl | h
  · exact hreleases
  · obtain ⟨token, -, rfl⟩ := List.mem_map.mp h
    exact hreleases.1

namespace Session

variable {here : Zone} {session next : Session α} {entry : Withheld α} {event : Event α}
  {events : List (Event α)} {batch : List (String × α)}

def Holds (session : Session α) (rule : String) (entry : Withheld α) : Prop :=
  ∃ later, session.queue.get? rule = some later ∧ entry.Grows later

/-- Windows are read in universal time, and every entry waits for an end that is not past. -/
structure Punctual (here : Zone) (session : Session α) : Prop where
  universal : session.registry.Universal
  announced : ∀ {rule entry}, session.queue.get? rule = some entry →
    ∃ window since, session.registry.get? rule = some window ∧ since ≤ session.now ∧
      window.nextEnd here since = .ok entry.stop
  ahead : ∀ {rule entry}, session.queue.get? rule = some entry →
    session.now ≤ entry.stop.instant

theorem punctual_start {registry : Registry} (hutc : registry.Universal) (here : Zone)
    (now : Instant) : (start registry now : Session α).Punctual here where
  universal := hutc
  announced h := nomatch h
  ahead h := nomatch h

/-! ### Routing -/

namespace Punctual

theorem routed (hp : session.Punctual here)
    (h : session.Routed here rule token event next) : next.Punctual here := by
  cases h with
  | delivered => exact hp
  | @deferred window stop hactive hwindow hend =>
    refine ⟨hp.universal, ?_, ?_⟩
    · intro r entry hentry
      rcases Queue.get?_push_eq_some hentry with ⟨rfl, rfl⟩ | ⟨-, hentry⟩
      · exact ⟨window, session.now, hwindow, Reading.le_refl _, hend⟩
      · exact hp.announced hentry
    · intro r entry hentry
      rcases Queue.get?_push_eq_some hentry with ⟨rfl, rfl⟩ | ⟨-, hentry⟩
      · obtain ⟨hlegal, hutc⟩ := hp.universal.of_get? hwindow
        exact Reading.le_of_lt (Window.lt_nextEnd_utc hlegal hutc hend)
      · exact hp.ahead hentry

theorem holds_routed (hp : session.Punctual here) {r : String} {token : α}
    (h : session.Routed here r token event next) (hholds : session.Holds rule entry) :
    next.Holds rule entry := by
  cases h with
  | delivered => exact hholds
  | @deferred window stop hactive hwindow hend =>
    obtain ⟨current, hcurrent, hgrows⟩ := hholds
    by_cases hr : rule = r
    · subst hr
      refine ⟨⟨stop, session.queue.withheld rule ++ [token]⟩, ?_, hgrows.trans ⟨?_, ?_⟩⟩
      · exact (Queue.get?_push ..).trans (if_pos rfl)
      · rw [Queue.withheld_of_get? hcurrent]
        exact List.prefix_append _ _
      · -- both ends are ends of one window, and the new one was asked for later
        obtain ⟨window', since, hwindow', hsince, hannounced⟩ := hp.announced hcurrent
        cases hwindow.symm.trans hwindow'
        obtain ⟨hlegal, hutc⟩ := hp.universal.of_get? hwindow
        exact Window.nextEnd_mono_utc hlegal hutc hannounced hend hsince
    · exact ⟨current, ((Queue.get?_push ..).trans (if_neg hr)).trans hcurrent, hgrows⟩

theorem routeMatches (hp : session.Punctual here) (batch : List (String × α)) :
    (routeMatches here batch session).2.Punctual here :=
  routeMatches_keeps (fun hp h => hp.routed h) hp

theorem holds_routeMatches (hp : session.Punctual here) (hholds : session.Holds rule entry)
    (batch : List (String × α)) : (Session.routeMatches here batch session).2.Holds rule entry :=
  (routeMatches_keeps (P := fun s => s.Punctual here ∧ s.Holds rule entry)
    (fun h hrouted => ⟨h.1.routed hrouted, h.1.holds_routed hrouted h.2⟩) ⟨hp, hholds⟩).2

end Punctual

theorem not_releases_of_routed (h : session.Routed here rule token event next) (r : String) :
    ¬ event.Releases r := by
  cases h with
  | delivered =>
    intro hreleases
    cases hreleases.2
  | deferred => exact id

theorem not_releases_of_routeMatches (h : routeMatches here batch session = (.ok events, next))
    (r : String) : ∀ event ∈ events, ¬ event.Releases r := by
  induction batch generalizing session events with
  | nil =>
    cases h
    exact fun event hevent => nomatch hevent
  | cons routed rest ih =>
    obtain ⟨rule, token⟩ := routed
    obtain ⟨first, middle, later, hrouted, hrest, rfl⟩ := routeMatches_cons_eq_ok h
    rw [List.forall_mem_cons]
    exact ⟨not_releases_of_routed hrouted r, ih hrest⟩

/-- A match that is announced as withheld is in the batch in the same place, waits for an end that
is ahead, and is the last one counted of its rule's entry. -/
theorem Punctual.deferred_of_routeMatches (hp : session.Punctual here)
    (h : Session.routeMatches here batch session = (.ok events, next)) {n pending : Nat}
    {stop : OffsetTime} (hn : events[n]? = some (.deferred rule stop pending)) :
    session.now < stop.instant ∧ ∃ token entry, batch[n]? = some (rule, token) ∧
      entry.stop = stop ∧ entry.matches_[pending - 1]? = some token ∧ next.Holds rule entry := by
  induction batch generalizing session events n with
  | nil =>
    cases h
    cases hn
  | cons routed rest ih =>
    obtain ⟨r, token⟩ := routed
    obtain ⟨first, middle, later, hrouted, hrest, rfl⟩ := routeMatches_cons_eq_ok h
    cases n with
    | zero =>
      rw [List.getElem?_cons_zero, Option.some.injEq] at hn
      subst hn
      have hmiddle := hp.routed hrouted
      cases hrouted with
      | @deferred window _ hactive hwindow hend =>
        obtain ⟨hlegal, hutc⟩ := hp.universal.of_get? hwindow
        refine ⟨Window.lt_nextEnd_utc hlegal hutc hend, token,
          ⟨stop, session.queue.withheld rule ++ [token]⟩, rfl, rfl, ?_, ?_⟩
        · exact List.getElem?_concat_length
        · have hpushed := hmiddle.holds_routeMatches
            ⟨_, (Queue.get?_push ..).trans (if_pos rfl), .refl _⟩ rest
          rw [hrest] at hpushed
          exact hpushed
    | succ n =>
      have hnow : middle.now = session.now := by
        cases hrouted <;> rfl
      rw [List.getElem?_cons_succ] at hn
      rw [← hnow]
      exact ih (hp.routed hrouted) hrest hn

/-! ### Flushing -/

theorem not_due_of_holds {now : Instant} (hholds : session.Holds rule entry)
    (hle : now ≤ entry.stop.instant) : ¬ session.queue.Due now rule := by
  obtain ⟨later, hlater, hgrows⟩ := hholds
  intro hdue
  obtain ⟨_, hentry, hpassed⟩ := hdue
  cases hlater.symm.trans hentry
  exact Reading.not_lt.mpr (Reading.le_trans hle hgrows.stop) hpassed

theorem due_of_mem_flush {now : Instant} (hevent : event ∈ ({ session with now := now }).flush.1)
    (hreleases : event.Releases rule) : session.queue.Due now rule := by
  obtain ⟨release, hmem, hevent⟩ := List.mem_flatMap.mp hevent
  rw [← Release.eq_of_releases hevent hreleases]
  exact Queue.due_of_mem_flushRules hmem

namespace Punctual

theorem listed (hp : session.Punctual here) (hentry : session.queue.get? rule = some entry) :
    ∃ window, session.registry.entries.lookup rule = some window := by
  obtain ⟨_, _, hwindow, -⟩ := hp.announced hentry
  exact Registry.exists_lookup hwindow

theorem get?_flush_of_due (hp : session.Punctual here) {now : Instant}
    (hdue : session.queue.Due now rule) :
    ({ session with now := now }).flush.2.queue.get? rule = none := by
  obtain ⟨entry, hentry, -⟩ := id hdue
  obtain ⟨_, _, hwindow, -⟩ := hp.announced hentry
  exact Queue.get?_flush_of_due hwindow hdue

theorem get?_flush_eq_some_iff (hp : session.Punctual here) {now : Instant} :
    ({ session with now := now }).flush.2.queue.get? rule = some entry ↔
      session.queue.get? rule = some entry ∧ now ≤ entry.stop.instant := by
  by_cases hdue : session.queue.Due now rule
  · rw [hp.get?_flush_of_due hdue]
    obtain ⟨other, hother, hpassed⟩ := hdue
    constructor
    · intro h
      cases h
    · rintro ⟨hentry, hle⟩
      cases hother.symm.trans hentry
      exact absurd hpassed (Reading.not_lt.mpr hle)
  · have hkept : ({ session with now := now }).flush.2.queue.get? rule =
        session.queue.get? rule := Queue.get?_flushRules_of_not_due hdue
    rw [hkept]
    refine ⟨fun hentry => ⟨hentry, ?_⟩, fun h => h.1⟩
    exact Reading.not_lt.mp fun hpassed => hdue ⟨entry, hentry, hpassed⟩

theorem flush (hp : session.Punctual here) {now : Instant} (hle : session.now ≤ now) :
    ({ session with now := now }).flush.2.Punctual here where
  universal := hp.universal
  announced h := by
    obtain ⟨window, since, hwindow, hsince, hend⟩ :=
      hp.announced (hp.get?_flush_eq_some_iff.mp h).1
    exact ⟨window, since, hwindow, Reading.le_trans hsince hle, hend⟩
  ahead h := (hp.get?_flush_eq_some_iff.mp h).2

/-- Nothing is due until the clock moves on, so a batch releases nothing. -/
theorem processMatches_eq (hp : session.Punctual here) (batch : List (String × α)) :
    session.processMatches here batch = Session.routeMatches here batch session := by
  cases h : Session.routeMatches here batch session with
  | mk outcome routed =>
    have hrouted := hp.routeMatches batch
    rw [h] at hrouted
    cases outcome with
    | error e => exact processMatches_of_error h
    | ok events =>
      have hnone : ∀ rule, ¬ routed.queue.Due routed.now rule := by
        rintro rule ⟨entry, hentry, hpassed⟩
        exact Reading.not_lt.mpr (hrouted.ahead hentry) hpassed
      have hflush : routed.flush = ([], routed) := by
        unfold Session.flush Queue.flush
        rw [Queue.flushRules_of_none_due hnone]
        rfl
      rw [processMatches_of_ok h, hflush, List.append_nil]

/-! ### Operations -/

theorem perform (hp : session.Punctual here) (op : Operation α) :
    (session.perform here op).2.Punctual here := by
  rcases perform_cases here session op with ⟨batch, -, h⟩ | ⟨now, hle, h⟩ | ⟨e, h⟩
  · rw [h, hp.processMatches_eq]
    exact hp.routeMatches batch
  · rw [h]
    exact hp.flush hle
  · rw [h]
    exact hp

theorem holds_perform (hp : session.Punctual here) (hholds : session.Holds rule entry)
    {op : Operation α} (hle : (session.perform here op).2.now ≤ entry.stop.instant) :
    (session.perform here op).2.Holds rule entry := by
  rcases perform_cases here session op with ⟨batch, -, h⟩ | ⟨now, -, h⟩ | ⟨e, h⟩
  · rw [h, hp.processMatches_eq]
    exact hp.holds_routeMatches hholds batch
  · rw [h] at hle ⊢
    obtain ⟨later, hlater, hgrows⟩ := hholds
    exact ⟨later, hp.get?_flush_eq_some_iff.mpr ⟨hlater, Reading.le_trans hle hgrows.stop⟩, hgrows⟩
  · rw [h]
    exact hholds

theorem not_releases_of_perform (hp : session.Punctual here) (hholds : session.Holds rule entry)
    {op : Operation α} (h : session.perform here op = (.ok events, next))
    (hle : next.now ≤ entry.stop.instant) : ∀ event ∈ events, ¬ event.Releases rule := by
  rcases perform_cases here session op with ⟨batch, -, hop⟩ | ⟨now, -, hop⟩ | ⟨e, hop⟩
  · rw [hop, hp.processMatches_eq] at h
    exact not_releases_of_routeMatches h rule
  · rw [hop] at h
    cases h
    intro event hevent hreleases
    exact not_due_of_holds hholds hle (due_of_mem_flush hevent hreleases)
  · rw [hop] at h
    cases h

theorem grows_of_perform (hp : session.Punctual here)
    (hentry : session.queue.get? rule = some entry) {op : Operation α} {later : Withheld α}
    (hlater : (session.perform here op).2.queue.get? rule = some later) : entry.Grows later := by
  rcases perform_cases here session op with ⟨batch, -, h⟩ | ⟨now, -, h⟩ | ⟨e, h⟩
  · rw [h, hp.processMatches_eq] at hlater
    obtain ⟨held, hheld, hgrows⟩ := hp.holds_routeMatches ⟨entry, hentry, .refl entry⟩ batch
    cases hheld.symm.trans hlater
    exact hgrows
  · rw [h] at hlater
    cases hentry.symm.trans (hp.get?_flush_eq_some_iff.mp hlater).1
    exact .refl entry
  · rw [h] at hlater
    cases hentry.symm.trans hlater
    exact .refl entry

theorem releases_of_perform (hp : session.Punctual here)
    (hentry : session.queue.get? rule = some entry) {op : Operation α}
    (h : session.perform here op = (.ok events, next)) (hpassed : entry.stop.instant < next.now) :
    next.queue.get? rule = none ∧ ∃ window, (rule, window) ∈ session.registry.entries ∧
      Release.events ⟨rule, window.trigger.select entry.matches_⟩ <:+: events := by
  rcases perform_cases here session op with ⟨batch, -, hop⟩ | ⟨now, -, hop⟩ | ⟨e, hop⟩
  · -- a batch does not move the clock, which is not past the end
    have hnow := (processMatches_registry_now here batch session).2
    rw [← hop, h] at hnow
    rw [hnow] at hpassed
    exact absurd hpassed (Reading.not_lt.mpr (hp.ahead hentry))
  · rw [hop] at h
    cases h
    have hpassed : entry.stop.instant < now := hpassed
    refine ⟨hp.get?_flush_of_due ⟨entry, hentry, hpassed⟩, ?_⟩
    obtain ⟨window, hlisted⟩ := hp.listed hentry
    refine ⟨window, mem_of_lookup hlisted, ?_⟩
    exact List.infix_of_mem_flatten
      (List.mem_map_of_mem (Queue.mem_flushRules_of_due hlisted hentry hpassed))
  · rw [hop] at h
    cases h

/-! ### Runs -/

theorem after (hp : session.Punctual here) (ops : List (Operation α)) :
    (session.after here ops).Punctual here :=
  after_keeps (fun op hp => hp.perform op) hp ops

theorem holds_after (hp : session.Punctual here) (hholds : session.Holds rule entry)
    {ops : List (Operation α)} (hle : (session.after here ops).now ≤ entry.stop.instant) :
    (session.after here ops).Holds rule entry ∧
      ∀ event ∈ session.log here ops, ¬ event.Releases rule := by
  induction ops generalizing session with
  | nil => exact ⟨hholds, fun event hevent => nomatch hevent⟩
  | cons op rest ih =>
    -- the clock never goes back, so it is not past the end after the first operation either
    have hfirst : (session.perform here op).2.now ≤ entry.stop.instant :=
      Reading.le_trans (le_after_now rest) hle
    obtain ⟨hlast, hlog⟩ := ih (hp.perform op) (hp.holds_perform hholds hfirst) hle
    refine ⟨hlast, fun event hevent => ?_⟩
    rw [log, List.mem_append] at hevent
    rcases hevent with hevent | hevent
    · cases hop : session.perform here op with
      | mk outcome next =>
        rw [hop] at hevent hfirst
        cases outcome with
        | error e => cases hevent
        | ok events => exact hp.not_releases_of_perform hholds hop hfirst event hevent
    · exact hlog event hevent

theorem grows_of_after (hp : session.Punctual here)
    (hentry : session.queue.get? rule = some entry) {ops : List (Operation α)}
    (hkept : ∀ front, front <+: ops → (session.after here front).queue.hasPending rule = true) :
    ∃ later, (session.after here ops).queue.get? rule = some later ∧ entry.Grows later := by
  induction ops generalizing session entry with
  | nil => exact ⟨entry, hentry, .refl entry⟩
  | cons op rest ih =>
    obtain ⟨middle, hmiddle⟩ := Option.isSome_iff_exists.mp (hkept [op] ⟨rest, rfl⟩)
    obtain ⟨later, hlater, hgrows⟩ := ih (hp.perform op) hmiddle
      fun front hfront => hkept (op :: front) ((List.prefix_cons_inj op).mpr hfront)
    exact ⟨later, hlater, (hp.grows_of_perform hentry hmiddle).trans hgrows⟩

end Punctual

/-- **Nothing is released before its announced end.** In every session that a run leads to from an
empty queue, where all windows are read in universal time:
* a match announced as withheld until `stop` waits for an end that is ahead of the clock, and
  while the clock is not past `stop` it keeps its place in the queue and no event hands on withheld
  matches of its rule;
* the same holds of all that an entry withholds while the clock is not past the entry's end,
  whether or not it was announced;
* while a rule keeps an entry, no operation sets an earlier end;
* the operation that moves the clock past the end of an entry releases the entry. -/
theorem withheld_until_stop {registry : Registry} (hutc : registry.Universal) {now : Instant}
    {ops : List (Operation α)} (hrun : (start registry now).after here ops = session) :
    (∀ (batch : List (String × α)) events next (n : Nat) rule (stop : OffsetTime) pending,
      session.perform here (.process batch) = (.ok events, next) →
      events[n]? = some (.deferred rule stop pending) →
      session.now < stop.instant ∧ (∀ event ∈ events, ¬ event.Releases rule) ∧
      ∃ token, batch[n]? = some (rule, token) ∧
        ∀ later, (next.after here later).now ≤ stop.instant →
          (∀ event ∈ next.log here later, ¬ event.Releases rule) ∧
          ((next.after here later).queue.withheld rule)[pending - 1]? = some token) ∧
    (∀ rule (entry : Withheld α) (later : List (Operation α)),
      session.queue.get? rule = some entry →
      (session.after here later).now ≤ entry.stop.instant →
      (∀ event ∈ session.log here later, ¬ event.Releases rule) ∧
      entry.matches_ <+: (session.after here later).queue.withheld rule) ∧
    (∀ rule (entry : Withheld α) (later : List (Operation α)),
      session.queue.get? rule = some entry →
      (∀ front, front <+: later → (session.after here front).queue.hasPending rule = true) →
      ∃ last, (session.after here later).queue.get? rule = some last ∧
        entry.stop.instant ≤ last.stop.instant) ∧
    (∀ rule (entry : Withheld α) (op : Operation α) events next,
      session.queue.get? rule = some entry →
      session.perform here op = (.ok events, next) → entry.stop.instant < next.now →
      next.queue.get? rule = none ∧ ∃ window, (rule, window) ∈ registry.entries ∧
        Release.events ⟨rule, window.trigger.select entry.matches_⟩ <:+: events) := by
  subst hrun
  have hp := (punctual_start hutc here now).after (α := α) ops
  refine ⟨?_, ?_, ?_, ?_⟩
  · intro batch events next n rule stop pending h hn
    have hnext := hp.perform (.process batch)
    rw [h] at hnext
    have hrouted : routeMatches here batch _ = (.ok events, next) :=
      (hp.processMatches_eq batch).symm.trans h
    obtain ⟨hahead, token, entry, htoken, hstop, hplace, hholds⟩ :=
      hp.deferred_of_routeMatches hrouted hn
    refine ⟨hahead, not_releases_of_routeMatches hrouted rule, token, htoken, ?_⟩
    intro later hle
    rw [← hstop] at hle
    obtain ⟨⟨last, hlast, hgrows⟩, hlog⟩ := hnext.holds_after hholds hle
    refine ⟨hlog, ?_⟩
    rw [Queue.withheld_of_get? hlast]
    obtain ⟨rest, hrest⟩ := hgrows.kept
    rw [← hrest, List.getElem?_append_left (List.getElem?_eq_some_iff.mp hplace).1]
    exact hplace
  · intro rule entry later hentry hle
    obtain ⟨⟨last, hlast, hgrows⟩, hlog⟩ := hp.holds_after ⟨entry, hentry, .refl entry⟩ hle
    refine ⟨hlog, ?_⟩
    rw [Queue.withheld_of_get? hlast]
    exact hgrows.kept
  · intro rule entry later hentry hkept
    obtain ⟨last, hlast, hgrows⟩ := hp.grows_of_after hentry hkept
    exact ⟨last, hlast, hgrows.stop⟩
  · intro rule entry op events next hentry h hpassed
    have hreleases := hp.releases_of_perform hentry h hpassed
    rw [after_registry] at hreleases
    exact hreleases

end Session

def Window.afternoon : Window :=
  ⟨⟨some 30, some 14, none, none, none⟩, ⟨some 15, some 16, none, none, none⟩,
    .daily ⟨52200⟩ ⟨58500⟩, .all, .utc⟩

theorem Window.ofBounds_afternoon :
    ofBounds ⟨some 30, some 14, none, none, none⟩ ⟨some 15, some 16, none, none, none⟩ .all .utc =
      .ok afternoon := rfl

def Session.afternoon (second : Nat) (entries : List (String × Withheld Nat)) : Session Nat :=
  ⟨.push .empty "r" .afternoon, .onDay (Date.mk 2025 7 1).dayNumber ⟨second⟩, ⟨entries⟩⟩

/-- A match that comes at 15:00 is withheld until 16:15 and is still withheld at 16:15. A second
later it is released. -/
theorem Session.withheld_until_stop_afternoon :
    ∃ stop, Registry.Universal (.push .empty "r" .afternoon) ∧
      (afternoon 54000 []).perform .universal (.process [("r", 7)]) =
        (.ok [.deferred "r" stop 1], afternoon 54000 [("r", ⟨stop, [7]⟩)]) ∧
      (afternoon 54000 []).now < stop.instant ∧
      (afternoon 54000 [("r", ⟨stop, [7]⟩)]).after .universal [.advance 75 .minutes] =
        afternoon 58500 [("r", ⟨stop, [7]⟩)] ∧
      (∀ event ∈ (afternoon 54000 [("r", ⟨stop, [7]⟩)]).log .universal [.advance 75 .minutes],
        ¬ event.Releases "r") ∧
      (afternoon 58500 [("r", ⟨stop, [7]⟩)]).perform .universal (.advance 1 .seconds) =
        (.ok [.released "r" 1, .delivered "r" 7 true], afternoon 58501 []) ∧
      (afternoon 58501 []).queue.get? "r" = none := by
  have hutc : Registry.Universal (.push .empty "r" .afternoon) := by
    intro listed hlisted
    rw [List.mem_singleton.mp hlisted]
    exact ⟨_, _, _, Window.ofBounds_afternoon⟩
  have hwithheld : (afternoon 54000 []).perform .universal (.process [("r", 7)]) =
      (.ok [.deferred "r" ⟨(afternoon 58500 []).now, 0⟩ 1],
        afternoon 54000 [("r", ⟨⟨(afternoon 58500 []).now, 0⟩, [7]⟩)]) := rfl
  have hmoved : (afternoon 54000 [("r", ⟨⟨(afternoon 58500 []).now, 0⟩, [7]⟩)]).after .universal
      [.advance 75 .minutes] = afternoon 58500 [("r", ⟨⟨(afternoon 58500 []).now, 0⟩, [7]⟩)] := rfl
  have hreleased : (afternoon 58500 [("r", ⟨⟨(afternoon 58500 []).now, 0⟩, [7]⟩)]).perform
      .universal (.advance 1 .seconds) =
        (.ok [.released "r" 1, .delivered "r" 7 true], afternoon 58501 []) := rfl
  obtain ⟨hannounced, -, -, -⟩ := withheld_until_stop hutc
    (show (start (.push .empty "r" .afternoon) (afternoon 54000 []).now).after .universal [] =
      afternoon 54000 [] from rfl)
  obtain ⟨-, -, -, hended⟩ := withheld_until_stop hutc
    (show (start (.push .empty "r" .afternoon) (afternoon 54000 []).now).after .universal
      [.process [("r", 7)], .advance 75 .minutes] =
        afternoon 58500 [("r", ⟨⟨(afternoon 58500 []).now, 0⟩, [7]⟩)] from rfl)
  obtain ⟨hahead, -, _, -, hlater⟩ := hannounced _ _ _ 0 _ _ _ hwithheld rfl
  have hstill := hlater [.advance 75 .minutes] (by rw [hmoved]; exact Reading.le_refl _)
  have hgone := hended "r" ⟨⟨(afternoon 58500 []).now, 0⟩, [7]⟩ _ _ _ rfl hreleased (by decide)
  exact ⟨_, hutc, hwithheld, hahead, hmoved, hstill.1, hreleased, hgone.1⟩

end Blackout
