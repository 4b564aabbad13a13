import Blackout.Proofs.Apart
import Blackout.Proofs.Withholding

/-!
# One release for an occurrence

The queue knows nothing of occurrences: it has an end for each rule, which every deferral sets anew,
and compares it with the clock. Where the occurrences of a rule's window are apart, an entry still
holds exactly what was withheld during one occurrence, and waits for the end of that one. So each
occurrence that the clock has passed, and in which something was withheld, is released once, and
nothing else is.
-/

namespace Blackout

variable {α : Type}

/-! ### What a run withholds -/

/-- A match that is withheld, and when it came. -/
structure Deferral (α : Type) where
  rule : String
  token : α
  time : Instant

def Event.deferral? (token : α) (now : Instant) : Event α → Option (Deferral α)
  | .deferred rule _ _ => some ⟨rule, token, now⟩
  | _ => none

def Operation.batch : Operation α → List (String × α)
  | .process batch => batch
  | _ => []

namespace Session

/-- Matches of a batch that are withheld, up to the first match that fails. -/
def deferralsOf (here : Zone) : List (String × α) → Session α → List (Deferral α)
  | [], _ => []
  | (rule, token) :: rest, session =>
    match session.routeMatch here rule token with
    | .error _ => []
    | .ok (event, next) =>
      (event.deferral? token session.now).toList ++ deferralsOf here rest next

/-- Matches that a run withholds, in order, whether their batches succeed or fail. -/
def deferrals (here : Zone) : Session α → List (Operation α) → List (Deferral α)
  | _, [] => []
  | session, op :: rest =>
    deferralsOf here op.batch session ++ deferrals here (session.perform here op).2 rest

end Session

namespace Occurrence

variable {o : Occurrence} {rule : String} {deferrals : List (Deferral α)} {d : Deferral α}

/-- Matches of a rule that are withheld while an occurrence lasts, read in universal time. -/
def withheld (o : Occurrence) (rule : String) (deferrals : List (Deferral α)) : List α :=
  (deferrals.filter fun d => d.rule = rule && o.holds (d.time.shownAt 0)).map Deferral.token

theorem withheld_concat (hrule : d.rule = rule) (hholds : o.holds (d.time.shownAt 0) = true) :
    o.withheld rule (deferrals ++ [d]) = o.withheld rule deferrals ++ [d.token] := by
  simp [withheld, hrule, hholds]

theorem withheld_concat_of_not
    (hnot : ¬ (d.rule = rule ∧ o.holds (d.time.shownAt 0) = true)) :
    o.withheld rule (deferrals ++ [d]) = o.withheld rule deferrals := by
  simp [withheld, hnot]

theorem exists_of_withheld_ne_nil (h : o.withheld rule deferrals ≠ []) :
    ∃ d ∈ deferrals, d.rule = rule ∧ o.holds (d.time.shownAt 0) = true := by
  obtain ⟨token, htoken⟩ := List.exists_mem_of_ne_nil _ h
  obtain ⟨d, hd, -⟩ := List.mem_map.mp htoken
  exact ⟨d, by simpa using List.mem_filter.mp hd⟩

end Occurrence

/-! ### Releases in a log -/

instance (rule : String) (event : Event α) : Decidable (event.Releases rule) :=
  match event with
  | .delivered name _ late => inferInstanceAs (Decidable (name = rule ∧ late = true))
  | .deferred .. => inferInstanceAs (Decidable False)
  | .released name _ => inferInstanceAs (Decidable (name = rule))

theorem Release.filter_events (release : Release α) (rule : String) :
    release.events.filter (fun event => event.Releases rule) =
      if release.rule = rule then release.events else [] := by
  split
  · next hrule =>
    rw [List.filter_eq_self]
    intro event hevent
    rw [decide_eq_true_iff]
    rcases List.mem_cons.mp hevent with rfl | hevent
    · exact hrule
    · obtain ⟨token, -, rfl⟩ := List.mem_map.mp hevent
      exact ⟨hrule, rfl⟩
  · next hrule =>
    rw [List.filter_eq_nil_iff]
    intro event hevent hreleases
    exact hrule (Release.eq_of_releases hevent (decide_eq_true_iff.mp hreleases))

theorem filter_flatMap_events (releases : List (Release α)) (rule : String) :
    (releases.flatMap Release.events).filter (fun event => event.Releases rule) =
      (releases.filter fun release => release.rule = rule).flatMap Release.events := by
  induction releases with
  | nil => rfl
  | cons release rest ih =>
    rw [List.flatMap_cons, List.filter_append, Release.filter_events, ih]
    by_cases hrule : release.rule = rule
    · rw [if_pos hrule, List.filter_cons_of_pos (by simpa using hrule), List.flatMap_cons]
    · rw [if_neg hrule, List.filter_cons_of_neg (by simpa using hrule), List.nil_append]

namespace Session

variable {here : Zone} {session next : Session α} {window listed : Window} {rule : String}
  {token : α} {event : Event α} {deferrals : List (Deferral α)} {events : List (Event α)}

theorem filter_flush (session : Session α) (rule : String) :
    session.flush.1.filter (fun event => event.Releases rule) =
      ((session.registry.entries.lookup rule).bind
        (session.queue.releaseOf? session.now rule)).toList.flatMap Release.events :=
  (filter_flatMap_events _ rule).trans (congrArg _ (Queue.filter_flushRules ..))

/-! ### The tally of a rule -/

/-- The release of what was withheld during the occurrence of a cycle. -/
def group (s : Schedule) (trigger : Trigger) (rule : String) (deferrals : List (Deferral α))
    (n : Int) : List (Event α) :=
  Release.events ⟨rule, trigger.select ((s.nth n).withheld rule deferrals)⟩

/-- The groups of a log are those of the given cycles, which are all that have passed at `now` and
in which something was withheld. -/
structure Groups (s : Schedule) (trigger : Trigger) (rule : String) (now : Instant)
    (deferrals : List (Deferral α)) (events : List (Event α)) (cycles : List Int) : Prop where
  ordered : cycles.Pairwise (· < ·)
  passed : ∀ n, n ∈ cycles ↔
    (s.nth n).stop < now.shownAt 0 ∧ (s.nth n).withheld rule deferrals ≠ []
  together : ∀ n ∈ cycles, group s trigger rule deferrals n <:+: events
  exactly : events.filter (fun event => event.Releases rule) =
    cycles.flatMap (group s trigger rule deferrals)

namespace Groups

variable {s : Schedule} {trigger : Trigger} {now later : Instant} {cycles : List Int}
  {more : List (Event α)}

theorem append_none (hg : Groups s trigger rule now deferrals events cycles)
    (hpassed : ∀ n, (s.nth n).withheld rule deferrals ≠ [] →
      ((s.nth n).stop < later.shownAt 0 ↔ (s.nth n).stop < now.shownAt 0))
    (hnone : more.filter (fun event => event.Releases rule) = []) :
    Groups s trigger rule later deferrals (events ++ more) cycles := by
  refine ⟨hg.ordered, fun n => ?_, ?_, ?_⟩
  · rw [hg.passed, and_congr_left (hpassed n)]
  · exact fun n hn => List.infix_append_of_infix_left (hg.together n hn)
  · rw [List.filter_append, hnone, List.append_nil]
    exact hg.exactly

theorem append_one (hg : Groups s trigger rule now deferrals events cycles) {k : Int}
    (hlast : ∀ n ∈ cycles, n < k) (hsome : (s.nth k).withheld rule deferrals ≠ [])
    (hpassed : ∀ n, (s.nth n).withheld rule deferrals ≠ [] →
      ((s.nth n).stop < later.shownAt 0 ↔ (s.nth n).stop < now.shownAt 0 ∨ n = k))
    (hone : more.filter (fun event => event.Releases rule) = group s trigger rule deferrals k)
    (htogether : group s trigger rule deferrals k <:+: more) :
    Groups s trigger rule later deferrals (events ++ more) (cycles ++ [k]) := by
  refine ⟨?_, fun n => ?_, fun n hn => ?_, ?_⟩
  · refine List.pairwise_append.mpr ⟨hg.ordered, List.pairwise_singleton _ _, ?_⟩
    intro n hn m hm
    rw [List.mem_singleton.mp hm]
    exact hlast n hn
  · rw [List.mem_append, List.mem_singleton, hg.passed, and_congr_left (hpassed n), or_and_right]
    have hk : n = k → (s.nth n).withheld rule deferrals ≠ [] := fun h => h ▸ hsome
    rw [and_iff_left_of_imp hk]
  · rcases List.mem_append.mp hn with hn | hn
    · exact List.infix_append_of_infix_left (hg.together n hn)
    · rw [List.mem_singleton.mp hn]
      exact List.infix_append_of_infix_right htogether
  · rw [List.filter_append, hg.exactly, hone, List.flatMap_append, List.flatMap_singleton]

/-- A match that is withheld now changes nothing in the occurrences that have passed. -/
theorem of_withheld_eq (hg : Groups s trigger rule now deferrals events cycles)
    {grown : List (Deferral α)} (hkept : ∀ n, (s.nth n).stop < now.shownAt 0 →
      (s.nth n).withheld rule grown = (s.nth n).withheld rule deferrals) :
    Groups s trigger rule now grown events cycles := by
  have hgroup : ∀ n ∈ cycles,
      group s trigger rule grown n = group s trigger rule deferrals n := by
    intro n hn
    unfold group
    rw [hkept n ((hg.passed n).mp hn).1]
  refine ⟨hg.ordered, fun n => ?_, fun n hn => ?_, ?_⟩
  · rw [hg.passed]
    exact and_congr_right fun hpassed => by rw [hkept n hpassed]
  · rw [hgroup n hn]
    exact hg.together n hn
  · rw [hg.exactly]
    exact (List.flatMap_congr hgroup).symm

end Groups

/-- How a session stands, for one rule, to what was withheld and logged: the entry has the matches
of one occurrence that has not passed, and the log has a group for each one that has. -/
structure Tally (s : Schedule) (trigger : Trigger) (rule : String) (session : Session α)
    (deferrals : List (Deferral α)) (events : List (Event α)) : Prop where
  inside : ∀ d ∈ deferrals, d.rule = rule →
    d.time ≤ session.now ∧ ∃ n, (s.nth n).holds (d.time.shownAt 0) = true
  entry : ∀ {entry}, session.queue.get? rule = some entry →
    ∃ n, entry.stop.instant.shownAt 0 = (s.nth n).stop ∧
      entry.matches_ = (s.nth n).withheld rule deferrals ∧ entry.matches_ ≠ []
  pending : ∀ {n}, (s.nth n).withheld rule deferrals ≠ [] →
    session.now.shownAt 0 ≤ (s.nth n).stop →
    ∃ entry, session.queue.get? rule = some entry ∧
      entry.stop.instant.shownAt 0 = (s.nth n).stop
  released : ∃ cycles, Groups s trigger rule session.now deferrals events cycles

theorem tally_start (s : Schedule) (trigger : Trigger) (rule : String) (registry : Registry)
    (now : Instant) : Tally s trigger rule (start registry now : Session α) [] [] where
  inside _ h := nomatch h
  entry h := nomatch h
  pending h := absurd rfl h
  released := by
    refine ⟨[], .nil, fun n => ?_, ?_, rfl⟩
    · simp [Occurrence.withheld]
    · intro n hn
      cases hn

theorem holds_of_isInBlackout (hp : session.Punctual here)
    (hwindow : session.registry.get? rule = some window)
    (hactive : session.registry.isInBlackout here rule session.now = .ok true) :
    ∃ n, (window.schedule.nth n).holds (session.now.shownAt 0) = true := by
  obtain ⟨hlegal, hutc⟩ := hp.universal.of_get? hwindow
  exact Window.exists_holds_utc hlegal hutc (isActive_of_isInBlackout hwindow hactive)

namespace Tally

variable {trigger : Trigger}

section

variable {n : Int} (hlegal : window.schedule.Legal) (hapart : window.schedule.Apart)
  (hholds : (window.schedule.nth n).holds (session.now.shownAt 0) = true)

include hlegal hapart hholds

/-- An entry waits for the end of the occurrence that holds the time. Its own occurrence has
started, since something was withheld in it, and is not past. -/
theorem eq_of_entry (ht : Tally window.schedule trigger rule session deferrals events)
    (hp : session.Punctual here) {entry : Withheld α}
    (hentry : session.queue.get? rule = some entry) :
    entry.stop.instant.shownAt 0 = (window.schedule.nth n).stop ∧
      entry.matches_ = (window.schedule.nth n).withheld rule deferrals := by
  obtain ⟨m, hstop, hmatches, hsome⟩ := ht.entry hentry
  rw [hmatches] at hsome
  obtain ⟨d, hd, hrule, hinside⟩ := Occurrence.exists_of_withheld_ne_nil hsome
  obtain ⟨hstarted, -⟩ := (Schedule.holds_iff _ _).mp hinside
  have hsince := Window.shownAt_le_shownAt.mpr (ht.inside d hd hrule).1
  have hahead := Window.shownAt_le_shownAt.mpr (hp.ahead hentry)
  rw [hstop] at hahead
  cases hapart.eq_of_holds hlegal (Reading.le_trans hstarted hsince) hahead hholds
  exact ⟨hstop, hmatches⟩

theorem withheld_eq (ht : Tally window.schedule trigger rule session deferrals events)
    (hp : session.Punctual here) :
    session.queue.withheld rule = (window.schedule.nth n).withheld rule deferrals := by
  cases hentry : session.queue.get? rule with
  | none =>
    rw [Queue.withheld_of_get?_eq_none hentry]
    by_contra hsome
    obtain ⟨-, hstop⟩ := (Schedule.holds_iff _ _).mp hholds
    obtain ⟨entry, hfound, -⟩ := ht.pending (Ne.symm hsome) (Reading.le_of_lt hstop)
    cases hentry.symm.trans hfound
  | some entry =>
    rw [Queue.withheld_of_get? hentry]
    exact (ht.eq_of_entry hlegal hapart hholds hp hentry).2

theorem withheld_of_ne {m : Int} (hne : m ≠ n) (token : α) :
    (window.schedule.nth m).withheld rule (deferrals ++ [⟨rule, token, session.now⟩]) =
      (window.schedule.nth m).withheld rule deferrals := by
  apply Occurrence.withheld_concat_of_not
  rintro ⟨-, hm⟩
  obtain ⟨hstart, hstop⟩ := (Schedule.holds_iff _ _).mp hm
  exact hne (hapart.eq_of_holds hlegal hstart (Reading.le_of_lt hstop) hholds)

theorem push (ht : Tally window.schedule trigger rule session deferrals events)
    (hp : session.Punctual here) (token : α) {stop : OffsetTime}
    (hstop : stop.instant.shownAt 0 = (window.schedule.nth n).stop) :
    Tally window.schedule trigger rule
      { session with queue := session.queue.push rule token stop }
      (deferrals ++ [⟨rule, token, session.now⟩]) events := by
  have hpushed := (session.queue.get?_push rule rule token stop).trans (if_pos rfl)
  have hother : ∀ m, m ≠ n →
      (window.schedule.nth m).withheld rule (deferrals ++ [⟨rule, token, session.now⟩]) =
        (window.schedule.nth m).withheld rule deferrals :=
    fun m hne => withheld_of_ne hlegal hapart hholds hne token
  have hahead : ¬ (window.schedule.nth n).stop < session.now.shownAt 0 :=
    Reading.not_lt.mpr (Reading.le_of_lt ((Schedule.holds_iff _ _).mp hholds).2)
  refine ⟨?_, ?_, ?_, ?_⟩
  · intro d hd hrule
    rcases List.mem_append.mp hd with hd | hd
    · exact ht.inside d hd hrule
    · rw [List.mem_singleton.mp hd]
      exact ⟨Reading.le_refl _, n, hholds⟩
  · intro entry hentry
    cases hpushed.symm.trans hentry
    refine ⟨n, hstop, ?_, List.append_ne_nil_of_right_ne_nil _ (List.cons_ne_nil _ _)⟩
    dsimp only
    rw [ht.withheld_eq hlegal hapart hholds hp]
    exact (Occurrence.withheld_concat (d := ⟨rule, token, session.now⟩) rfl hholds).symm
  · intro m hsome hle
    by_cases hm : m = n
    · rw [hm]
      exact ⟨_, hpushed, hstop⟩
    · -- nothing is pending of another occurrence, since the entry was of this one already
      rw [hother m hm] at hsome
      obtain ⟨entry, hentry, hmstop⟩ := ht.pending hsome hle
      have hnstop := (ht.eq_of_entry hlegal hapart hholds hp hentry).1
      exact absurd (Schedule.stop_injective hlegal (hmstop.symm.trans hnstop)) hm
  · obtain ⟨cycles, hg⟩ := ht.released
    refine ⟨cycles, hg.of_withheld_eq fun m hpassed => hother m ?_⟩
    rintro rfl
    exact hahead hpassed

end

theorem of_get?_eq (ht : Tally window.schedule trigger rule session deferrals events)
    (hnow : next.now = session.now) (hkept : next.queue.get? rule = session.queue.get? rule)
    {d : Option (Deferral α)} (hd : ∀ other ∈ d, other.rule ≠ rule) :
    Tally window.schedule trigger rule next (deferrals ++ d.toList) events := by
  have hwithheld : ∀ o : Occurrence, o.withheld rule (deferrals ++ d.toList) =
      o.withheld rule deferrals := by
    intro o
    cases d with
    | none => rw [Option.toList_none, List.append_nil]
    | some other => exact Occurrence.withheld_concat_of_not fun h => hd other rfl h.1
  refine ⟨?_, ?_, ?_, ?_⟩
  · intro other hother hrule
    rw [hnow]
    rcases List.mem_append.mp hother with hother | hother
    · exact ht.inside other hother hrule
    · exact absurd hrule (hd other (Option.mem_toList.mp hother))
  · rw [hkept]
    simp only [hwithheld]
    exact ht.entry
  · rw [hkept, hnow]
    simp only [hwithheld]
    exact ht.pending
  · rw [hnow]
    obtain ⟨cycles, hg⟩ := ht.released
    exact ⟨cycles, hg.of_withheld_eq fun n _ => hwithheld _⟩

theorem log (ht : Tally window.schedule trigger rule session deferrals events)
    {later : List (Event α)} (hnone : ∀ event ∈ later, ¬ event.Releases rule) :
    Tally window.schedule trigger rule session deferrals (events ++ later) := by
  obtain ⟨cycles, hg⟩ := ht.released
  refine ⟨ht.inside, ht.entry, ht.pending, cycles, hg.append_none (fun _ _ => .rfl) ?_⟩
  rw [List.filter_eq_nil_iff]
  exact fun event hevent h => hnone event hevent (decide_eq_true_iff.mp h)

/-! ### Operations -/

theorem routed (ht : Tally window.schedule trigger rule session deferrals events)
    (hp : session.Punctual here) (hwindow : session.registry.get? rule = some window)
    (hapart : window.schedule.Apart) {r : String}
    (h : session.Routed here r token event next) :
    Tally window.schedule trigger rule next
      (deferrals ++ (event.deferral? token session.now).toList) events := by
  obtain ⟨hlegal, hutc⟩ := hp.universal.of_get? hwindow
  cases h with
  | delivered => exact ht.of_get?_eq rfl rfl fun other hother => nomatch hother
  | @deferred own stop hactive hown hend =>
    by_cases hr : r = rule
    · subst hr
      cases hown.symm.trans hwindow
      obtain ⟨n, hholds⟩ := holds_of_isInBlackout hp hwindow hactive
      exact ht.push hlegal hapart hholds hp token
        (hapart.eq_stop_of_finds hlegal hholds (Window.nextEnd_utc hlegal hutc hend))
    · refine ht.of_get?_eq ?_ ?_ ?_
      · rfl
      · exact (Queue.get?_push ..).trans (if_neg (Ne.symm hr))
      · intro other hother
        cases hother
        exact hr

theorem routeMatches (ht : Tally window.schedule trigger rule session deferrals events)
    (hp : session.Punctual here) (hwindow : session.registry.get? rule = some window)
    (hapart : window.schedule.Apart) (batch : List (String × α)) :
    Tally window.schedule trigger rule (routeMatches here batch session).2
      (deferrals ++ deferralsOf here batch session) events := by
  induction batch generalizing session deferrals with
  | nil => exact (List.append_nil deferrals).symm ▸ ht
  | cons head rest ih =>
    obtain ⟨r, token⟩ := head
    unfold Session.routeMatches deferralsOf
    cases h : session.routeMatch here r token with
    | error e => exact (List.append_nil deferrals).symm ▸ ht
    | ok outcome =>
      obtain ⟨event, next⟩ := outcome
      have hrouted := routed_of_routeMatch h
      have hregistry : next.registry = session.registry := by
        cases hrouted <;> rfl
      have hrest := ih (ht.routed hp hwindow hapart hrouted) (hp.routed hrouted)
        (hregistry ▸ hwindow)
      rw [List.append_assoc] at hrest
      exact hrest

/-- Of what was withheld, what has passed at a later time has passed already, or it is in the entry,
which is due then. -/
theorem passed_iff (ht : Tally window.schedule trigger rule session deferrals events)
    {now : Instant} (hle : session.now ≤ now) {n : Int}
    (hsome : (window.schedule.nth n).withheld rule deferrals ≠ []) :
    (window.schedule.nth n).stop < now.shownAt 0 ↔
      (window.schedule.nth n).stop < session.now.shownAt 0 ∨
        ∃ entry, session.queue.get? rule = some entry ∧ entry.stop.instant < now ∧
          entry.stop.instant.shownAt 0 = (window.schedule.nth n).stop := by
  constructor
  · intro hpassed
    by_cases hbefore : (window.schedule.nth n).stop < session.now.shownAt 0
    · exact .inl hbefore
    · obtain ⟨entry, hentry, hstop⟩ := ht.pending hsome (Reading.not_lt.mp hbefore)
      rw [← hstop, Window.shownAt_lt_shownAt] at hpassed
      exact .inr ⟨entry, hentry, hpassed, hstop⟩
  · rintro (hbefore | ⟨entry, -, hended, hstop⟩)
    · exact Reading.lt_of_lt_of_le hbefore (Window.shownAt_le_shownAt.mpr hle)
    · rw [← hstop]
      exact Window.shownAt_lt_shownAt.mpr hended

theorem released_flush (ht : Tally window.schedule listed.trigger rule session deferrals events)
    (hp : session.Punctual here) (hlegal : window.schedule.Legal)
    (hlisted : session.registry.entries.lookup rule = some listed) {now : Instant}
    (hle : session.now ≤ now) :
    ∃ cycles, Groups window.schedule listed.trigger rule now deferrals
      (events ++ ({ session with now := now }).flush.1) cycles := by
  obtain ⟨cycles, hg⟩ := ht.released
  have hflush := filter_flush { session with now := now } rule
  dsimp only at hflush
  rw [hlisted, Option.bind_some] at hflush
  by_cases hdue : session.queue.Due now rule
  · obtain ⟨entry, hentry, hended⟩ := hdue
    obtain ⟨k, hstop, hmatches, hheld⟩ := ht.entry hentry
    have hgroup : Release.events ⟨rule, listed.trigger.select entry.matches_⟩ =
        group window.schedule listed.trigger rule deferrals k := by
      rw [hmatches]
      rfl
    rw [Queue.releaseOf?_of_due hentry hended, Option.toList_some, List.flatMap_singleton,
      hgroup] at hflush
    refine ⟨cycles ++ [k], hg.append_one ?_ (hmatches ▸ hheld) ?_ hflush ?_⟩
    · intro n hn
      have hahead := Window.shownAt_le_shownAt.mpr (hp.ahead hentry)
      rw [hstop] at hahead
      rw [← Schedule.stop_lt_stop_iff hlegal]
      exact Reading.lt_of_lt_of_le ((hg.passed n).mp hn).1 hahead
    · intro n hsome
      rw [ht.passed_iff hle hsome]
      refine or_congr_right ⟨?_, ?_⟩
      · rintro ⟨other, hother, -, hstop'⟩
        cases hentry.symm.trans hother
        exact Schedule.stop_injective hlegal (hstop'.symm.trans hstop)
      · rintro rfl
        exact ⟨entry, hentry, hended, hstop⟩
    · rw [← hgroup]
      exact List.infix_of_mem_flatten
        (List.mem_map_of_mem (Queue.mem_flushRules_of_due hlisted hentry hended))
  · rw [Queue.releaseOf?_of_not_due hdue] at hflush
    refine ⟨cycles, hg.append_none (fun n hsome => ?_) hflush⟩
    rw [ht.passed_iff hle hsome]
    exact or_iff_left fun ⟨entry, hentry, hended, _⟩ => hdue ⟨entry, hentry, hended⟩

theorem flush (ht : Tally window.schedule listed.trigger rule session deferrals events)
    (hp : session.Punctual here) (hlegal : window.schedule.Legal)
    (hlisted : session.registry.entries.lookup rule = some listed) {now : Instant}
    (hle : session.now ≤ now) :
    Tally window.schedule listed.trigger rule ({ session with now := now }).flush.2 deferrals
      (events ++ ({ session with now := now }).flush.1) := by
  refine ⟨?_, ?_, ?_, ht.released_flush hp hlegal hlisted hle⟩
  · intro d hd hrule
    obtain ⟨hsince, hinside⟩ := ht.inside d hd hrule
    exact ⟨Reading.le_trans hsince hle, hinside⟩
  · intro entry hentry
    exact ht.entry (hp.get?_flush_eq_some_iff.mp hentry).1
  · intro n hsome hahead
    obtain ⟨entry, hentry, hstop⟩ := ht.pending hsome
      (Reading.le_trans (Window.shownAt_le_shownAt.mpr hle) hahead)
    refine ⟨entry, hp.get?_flush_eq_some_iff.mpr ⟨hentry, ?_⟩, hstop⟩
    rw [← Window.shownAt_le_shownAt, hstop]
    exact hahead

theorem moved (ht : Tally window.schedule listed.trigger rule session deferrals events)
    (hp : session.Punctual here) (hlegal : window.schedule.Legal)
    (hlisted : session.registry.entries.lookup rule = some listed)
    {moved : Except ClockError Instant} (hle : ∀ now, moved = .ok now → session.now ≤ now) :
    Tally window.schedule listed.trigger rule (session.moveClock moved).2 deferrals
      (events ++ (session.moveClock moved).1.toOption.getD []) := by
  rcases session.moveClock_cases moved with ⟨now, hnow, h⟩ | ⟨e, -, h⟩
  · rw [h]
    exact ht.flush hp hlegal hlisted (hle now hnow)
  · rw [h]
    exact ht.log fun event hevent => nomatch hevent

theorem perform (ht : Tally window.schedule listed.trigger rule session deferrals events)
    (hp : session.Punctual here) (hwindow : session.registry.get? rule = some window)
    (hlisted : session.registry.entries.lookup rule = some listed)
    (hapart : window.schedule.Apart) (op : Operation α) :
    Tally window.schedule listed.trigger rule (session.perform here op).2
      (deferrals ++ deferralsOf here op.batch session)
      (events ++ (session.perform here op).1.toOption.getD []) := by
  obtain ⟨hlegal, -⟩ := hp.universal.of_get? hwindow
  cases op with
  | process batch =>
    unfold Session.perform Operation.batch
    dsimp only
    rw [hp.processMatches_eq]
    refine (ht.routeMatches hp hwindow hapart batch).log fun event hevent => ?_
    cases h : Session.routeMatches here batch session with
    | mk outcome next =>
      rw [h] at hevent
      cases outcome with
      | error e => cases hevent
      | ok events => exact not_releases_of_routeMatches h rule event hevent
  | advance amount unit =>
    rw [show deferralsOf here (Operation.advance amount unit).batch session = [] from rfl,
      List.append_nil]
    exact ht.moved hp hlegal hlisted fun now hnow => Instant.le_of_advance hnow
  | advanceTo target =>
    rw [show deferralsOf here (Operation.advanceTo target).batch session = [] from rfl,
      List.append_nil]
    exact ht.moved hp hlegal hlisted fun now hnow => Instant.le_of_advanceTo hnow

theorem after (ht : Tally window.schedule listed.trigger rule session deferrals events)
    (hp : session.Punctual here) (hwindow : session.registry.get? rule = some window)
    (hlisted : session.registry.entries.lookup rule = some listed)
    (hapart : window.schedule.Apart) (ops : List (Operation α)) :
    Tally window.schedule listed.trigger rule (session.after here ops)
      (deferrals ++ session.deferrals here ops) (events ++ session.log here ops) := by
  induction ops generalizing session deferrals events with
  | nil => simpa [Session.deferrals, Session.log, Session.after] using ht
  | cons op rest ih =>
    have hregistry : (session.perform here op).2.registry = session.registry :=
      perform_registry op
    have hrest := ih (ht.perform hp hwindow hlisted hapart op) (hp.perform op)
      (hregistry ▸ hwindow) (hregistry ▸ hlisted)
    rw [List.append_assoc, List.append_assoc] at hrest
    exact hrest

end Tally

/-- **One release for an occurrence.** In every run of a session whose windows are read in universal
time, for a rule whose window has occurrences that are apart:
* a match is withheld during one occurrence;
* the log has one group for each occurrence that the clock has passed and in which matches were
  withheld, in the order of their ends, with the matches that the trigger selects of them, and no
  other events of releases of the rule;
* what was withheld during an occurrence that is not past is what the queue withholds. -/
theorem released_by_occurrence {registry : Registry} (hutc : registry.Universal)
    (hwindow : registry.get? rule = some window) (hapart : window.schedule.Apart) (here : Zone)
    (now : Instant) (ops : List (Operation α)) {withheld : List (Deferral α)}
    (hrun : (start registry now).after here ops = session)
    (hwithheld : (start registry now).deferrals here ops = withheld)
    (hlog : (start registry now).log here ops = events) :
    (∀ d ∈ withheld, d.rule = rule →
      ∃! o, window.schedule.Occurs o ∧ o.holds (d.time.shownAt 0) = true) ∧
    (∃ (listed : Window) (groups : List (Occurrence × List α)),
      registry.entries.lookup rule = some listed ∧
      ((registry.entries.map Prod.fst).Nodup → listed = window) ∧
      (groups.map Prod.fst).Pairwise (fun o o' => o.stop < o'.stop) ∧
      (∀ o, o ∈ groups.map Prod.fst ↔ window.schedule.Occurs o ∧
        o.stop < session.now.shownAt 0 ∧ o.withheld rule withheld ≠ []) ∧
      (∀ o chosen, (o, chosen) ∈ groups →
        listed.trigger.Selects (o.withheld rule withheld) chosen ∧
          Release.events ⟨rule, chosen⟩ <:+: events) ∧
      events.filter (fun event => event.Releases rule) =
        groups.flatMap fun group => Release.events ⟨rule, group.2⟩) ∧
    (∀ o, window.schedule.Occurs o → session.now.shownAt 0 ≤ o.stop →
      o.withheld rule withheld ≠ [] →
      session.queue.withheld rule = o.withheld rule withheld) := by
  subst hrun hwithheld hlog
  obtain ⟨hlegal, -⟩ := hutc.of_get? hwindow
  obtain ⟨listed, hlisted⟩ := Registry.exists_lookup hwindow
  have ht := (tally_start window.schedule listed.trigger rule registry now).after
    (punctual_start hutc here now) hwindow hlisted hapart ops
  rw [List.nil_append, List.nil_append] at ht
  refine ⟨?_, ?_, ?_⟩
  · intro d hd hrule
    obtain ⟨-, n, hn⟩ := ht.inside d hd hrule
    refine ⟨_, ⟨window.schedule.occurs_nth n, hn⟩, ?_⟩
    rintro o ⟨ho, hholds⟩
    obtain ⟨m, rfl⟩ := Schedule.occurs_iff.mp ho
    obtain ⟨hstart, hstop⟩ := (Schedule.holds_iff _ _).mp hholds
    rw [hapart.eq_of_holds hlegal hstart (Reading.le_of_lt hstop) hn]
  · obtain ⟨cycles, hg⟩ := ht.released
    refine ⟨listed, cycles.map fun n => (window.schedule.nth n, listed.trigger.select
      ((window.schedule.nth n).withheld rule ((start registry now).deferrals here ops))),
      hlisted, ?_, ?_, ?_, ?_, ?_⟩
    · intro hnodup
      cases hlisted.symm.trans (Registry.lookup_of_get? hnodup hwindow)
      rfl
    · rw [List.map_map, List.pairwise_map]
      exact hg.ordered.imp fun h => (Schedule.stop_lt_stop_iff hlegal _ _).mpr h
    · intro o
      rw [List.map_map, List.mem_map]
      constructor
      · rintro ⟨n, hn, rfl⟩
        exact ⟨window.schedule.occurs_nth n, (hg.passed n).mp hn⟩
      · rintro ⟨ho, hpassed⟩
        obtain ⟨n, rfl⟩ := Schedule.occurs_iff.mp ho
        exact ⟨n, (hg.passed n).mpr hpassed, rfl⟩
    · intro o chosen hmem
      obtain ⟨n, hn, heq⟩ := List.mem_map.mp hmem
      cases heq
      exact ⟨(listed.trigger.selects_select ((hg.passed n).mp hn).2).1, hg.together n hn⟩
    · rw [hg.exactly, List.flatMap_map]
      rfl
  · intro o ho hahead hsome
    obtain ⟨n, rfl⟩ := Schedule.occurs_iff.mp ho
    obtain ⟨entry, hentry, hstop⟩ := ht.pending hsome hahead
    obtain ⟨m, hmstop, hmatches, -⟩ := ht.entry hentry
    cases Schedule.stop_injective hlegal (hstop.symm.trans hmstop)
    rw [Queue.withheld_of_get? hentry, hmatches]

end Session

theorem Window.apart_afternoon : afternoon.schedule.Apart :=
  (Schedule.apart_iff (Window.legal_of_ofBounds ofBounds_afternoon)).mpr fun _ => id

/-- Two matches are withheld at 15:00, and a third one a day later, when the clock has jumped into
the next occurrence. They are released as two groups. -/
theorem Session.released_by_occurrence_afternoon :
    ∃ (ops : List (Operation Nat)) (withheld : List (Deferral Nat)) (events : List (Event Nat)),
      ops = [.process [("r", 7), ("r", 8)], .advance 1 .days, .process [("r", 9)],
        .advance 2 .hours] ∧
      Registry.Universal (.push .empty "r" .afternoon) ∧
      Registry.get? (.push .empty "r" .afternoon) "r" = some .afternoon ∧
      Window.afternoon.schedule.Apart ∧
      (afternoon 54000 []).deferrals .universal ops = withheld ∧
      (afternoon 54000 []).log .universal ops = events ∧
      withheld.map Deferral.token = [7, 8, 9] ∧
      events.filter (fun event => event.Releases "r") =
        [.released "r" 2, .delivered "r" 7 true, .delivered "r" 8 true, .released "r" 1,
          .delivered "r" 9 true] ∧
      ∃ groups : List (Occurrence × List Nat),
        (groups.map Prod.fst).Pairwise (fun o o' => o.stop < o'.stop) ∧
        events.filter (fun event => event.Releases "r") =
          groups.flatMap fun group => Release.events ⟨"r", group.2⟩ := by
  have hutc : Registry.Universal (.push .empty "r" .afternoon) := by
    intro listed hlisted
    rw [List.mem_singleton.mp hlisted]
    exact ⟨_, _, _, Window.ofBounds_afternoon⟩
  have hwindow : Registry.get? (.push .empty "r" .afternoon) "r" = some .afternoon := rfl
  obtain ⟨-, ⟨_, groups, -, -, hordered, -, -, hgroups⟩, -⟩ :=
    released_by_occurrence hutc hwindow Window.apart_afternoon .universal
      (afternoon 54000 []).now
      [.process [("r", 7), ("r", 8)], .advance 1 .days, .process [("r", 9)], .advance 2 .hours]
      rfl rfl rfl
  exact ⟨_, _, _, rfl, hutc, hwindow, Window.apart_afternoon, rfl, rfl, rfl, rfl, groups, hordered,
    hgroups⟩

end Blackout
