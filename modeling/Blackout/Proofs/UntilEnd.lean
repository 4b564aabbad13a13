import Blackout.Proofs.NextInstant
import Blackout.Proofs.Run

/-!
# Active until the end

Occurrences can overlap where the end of a month clamps two of them together. Both the test and the
search then stay with the one that started first: the end that is found while the reading is inside
is the end of that occurrence, and the test answers true all the way to it. Later readings never
find an earlier end. A rule of which a match is withheld is therefore in its blackout without a gap
until the end that was announced.
-/

namespace Blackout

open Calendar

namespace Schedule

variable {s : Schedule} {t e : WallClock}

theorem contains?_until_stop (hs : s.Legal) {m : Int} {x : WallClock} {b : Bool}
    (hholds : (s.nth m).holds t = true) (hle : t ≤ x) (hlt : x < (s.nth m).stop)
    (h : s.contains? x = some b) : b = true := by
  have hstart := ((holds_iff _ _).mp hholds).1
  exact (contains?_iff_exists hs h).mpr
    ⟨m, (holds_iff _ _).mpr ⟨Reading.le_trans hstart hle, hlt⟩⟩

end Schedule

/-! ### Deferrals of a session -/

namespace Window

variable {w : Window} {here : Zone} {now later : Instant} {r : OffsetTime}

theorem isActive_until_nextEnd (hs : w.schedule.Legal) (hutc : w.mode = .utc)
    (hactive : w.isActive here now = .ok true) (hend : w.nextEnd here now = .ok r)
    (hle : now ≤ later) (hlt : later < r.instant) {active : Bool}
    (h : w.isActive here later = .ok active) : active = true := by
  obtain ⟨n, hholds⟩ := exists_holds_utc hs hutc hactive
  obtain ⟨m, hstop, hfirst, -⟩ := (nextEnd_utc hs hutc hend).exists_first hs hholds
  refine Schedule.contains?_until_stop hs hfirst (shownAt_le_shownAt.mpr hle) ?_
    (contains?_utc hutc h)
  rw [← hstop]
  exact shownAt_lt_shownAt.mpr hlt

end Window

namespace Session

variable {α : Type} {here : Zone} {session next : Session α} {rule : String}
  {events : List (Event α)} {batch : List (String × α)} {stop : OffsetTime} {pending : Nat}

theorem deferred_notMem_flush : .deferred rule stop pending ∉ session.flush.1 := by
  intro hmem
  obtain ⟨release, -, hevent⟩ := List.mem_flatMap.mp hmem
  unfold Release.events at hevent
  simp at hevent

theorem nextEnd_of_deferred_mem_routeMatches
    (h : routeMatches here batch session = (.ok events, next))
    (hmem : .deferred rule stop pending ∈ events) :
    ∃ window, session.registry.get? rule = some window ∧
      session.registry.isInBlackout here rule session.now = .ok true ∧
      window.nextEnd here session.now = .ok stop := by
  induction batch generalizing session events with
  | nil =>
    cases h
    cases hmem
  | cons head rest ih =>
    obtain ⟨r, token⟩ := head
    obtain ⟨event, middle, later, hrouted, hrest, rfl⟩ := routeMatches_cons_eq_ok h
    rcases List.mem_cons.mp hmem with rfl | hlater
    · cases hrouted with
      | deferred hactive hwindow hend => exact ⟨_, hwindow, hactive, hend⟩
    · -- what is routed before leaves the registry and the clock alone
      have hfound := ih hrest hlater
      cases hrouted with
      | delivered => exact hfound
      | deferred => exact hfound

/-- A match is withheld in its rule's blackout only, until the next end of the rule's window. -/
theorem nextEnd_of_deferred_mem (h : session.processMatches here batch = (.ok events, next))
    (hmem : .deferred rule stop pending ∈ events) :
    ∃ window, session.registry.get? rule = some window ∧
      session.registry.isInBlackout here rule session.now = .ok true ∧
      window.nextEnd here session.now = .ok stop := by
  cases hbatch : routeMatches here batch session with
  | mk outcome middle =>
    cases outcome with
    | error e =>
      rw [processMatches_of_error hbatch] at h
      cases h
    | ok routed =>
      rw [processMatches_of_ok hbatch] at h
      cases h
      have hrouted := (List.mem_append.mp hmem).resolve_right deferred_notMem_flush
      exact nextEnd_of_deferred_mem_routeMatches hbatch hrouted

end Session

/-- **Active until the announced end.** Where the test of a built window answers true and its next
end is found, the end comes after the reading, and it is the end of an occurrence that holds the
reading, of all such occurrences the one that starts first. For every reading up to the end the
test answers true, where it answers.

So in universal time a rule stays in its blackout from any deferral to the end announced for it. -/
theorem Window.active_until_nextEnd? {p q : Point} {trigger : Trigger} {mode : ZoneMode}
    {w : Window} (hw : Window.ofBounds p q trigger mode = .ok w) :
    (∀ t e, w.schedule.contains? t = some true → w.schedule.nextEnd? t = some e →
      t < e ∧
      (∃ o, w.schedule.Occurs o ∧ o.start ≤ t ∧ t < o.stop ∧ o.stop = e ∧
        ∀ other, w.schedule.Occurs other → other.start ≤ t → t < other.stop →
          other = o ∨ o.start < other.start) ∧
      ∀ x active, t ≤ x → x < e → w.schedule.contains? x = some active → active = true) ∧
    (w.mode = .utc → ∀ {α : Type} (here : Zone) (session next : Session α) batch events rule stop
        pending,
      session.registry.get? rule = some w →
      session.processMatches here batch = (.ok events, next) →
      .deferred rule stop pending ∈ events →
      ∀ now active, session.now ≤ now → now < stop.instant →
        session.registry.isInBlackout here rule now = .ok active → active = true) := by
  have hs := Window.legal_of_ofBounds hw
  constructor
  · intro t e hactive hend
    obtain ⟨n, hn⟩ := (Schedule.contains?_iff_exists hs hactive).mp rfl
    obtain ⟨m, rfl, hholds, hfirst⟩ := (Schedule.nextEnd?_eq_some hs hend).exists_first hs hn
    obtain ⟨hstart, hstop⟩ := (Schedule.holds_iff _ _).mp hholds
    refine ⟨hstop, ⟨_, w.schedule.occurs_nth m, hstart, hstop, rfl, ?_⟩,
      fun x active => Schedule.contains?_until_stop hs hholds⟩
    intro other hother hstart' hstop'
    obtain ⟨k, rfl⟩ := Schedule.occurs_iff.mp hother
    rcases (hfirst k ((Schedule.holds_iff _ _).mpr ⟨hstart', hstop'⟩)).eq_or_lt with rfl | hlt
    · exact .inl rfl
    · exact .inr ((Schedule.start_lt_start_iff hs m k).mpr hlt)
  · intro hutc α here session next batch events rule stop pending hwindow hprocessed hdeferred now
      active hle hlt hanswer
    obtain ⟨window, hwindow', hactive, hend⟩ :=
      Session.nextEnd_of_deferred_mem hprocessed hdeferred
    cases hwindow.symm.trans hwindow'
    exact isActive_until_nextEnd hs hutc (Session.isActive_of_isInBlackout hwindow hactive) hend hle
      hlt (Session.isActive_of_isInBlackout hwindow hanswer)

def Window.monthEnd : Window :=
  ⟨⟨none, some 6, none, some 31, none⟩, ⟨none, some 22, none, some 30, none⟩,
    .monthly 31 ⟨21600⟩ 30 ⟨79200⟩, .all, .utc⟩

def Session.monthEnd (second : Nat) (entries : List (String × Withheld Nat)) : Session Nat :=
  ⟨.push .empty "r" .monthEnd, .onDay (Date.mk 2025 6 30).dayNumber ⟨second⟩, ⟨entries⟩⟩

/-- The 31st at 6:00 until the 30th at 22:00. At noon of June 30 the occurrence of May has not ended
and the one of June has started: the end is that of May's, and a match that comes then is withheld
until it. The window is active even in a leap second right before. -/
theorem Window.active_until_nextEnd?_overlap :
    ∃ t e, ofBounds ⟨none, some 6, none, some 31, none⟩ ⟨none, some 22, none, some 30, none⟩ .all
        .utc = .ok monthEnd ∧
      t = .onDay (Date.mk 2025 6 30).dayNumber ⟨43200⟩ ∧
      e = .onDay (Date.mk 2025 6 30).dayNumber ⟨79200⟩ ∧
      monthEnd.schedule.contains? t = some true ∧ monthEnd.schedule.nextEnd? t = some e ∧
      (∃ later, monthEnd.schedule.Occurs later ∧ later.start ≤ t ∧ t < later.stop ∧
        later.stop ≠ e) ∧
      t < e ∧
      (∃ o, monthEnd.schedule.Occurs o ∧ o.start ≤ t ∧ t < o.stop ∧ o.stop = e ∧
        ∀ other, monthEnd.schedule.Occurs other → other.start ≤ t → t < other.stop →
          other = o ∨ o.start < other.start) ∧
      (∃ active, monthEnd.schedule.contains? ⟨e.seconds - 1, 1500000000⟩ = some active ∧
        active = true) ∧
      ∃ stop active, stop.instant = (Session.monthEnd 79200 []).now ∧
        (Session.monthEnd 43200 []).processMatches .universal [("r", 7)] =
          (.ok [.deferred "r" stop 1], .monthEnd 43200 [("r", ⟨stop, [7]⟩)]) ∧
        (Session.monthEnd 43200 []).registry.isInBlackout .universal "r"
          (Session.monthEnd 79199 []).now = .ok active ∧
        active = true := by
  have hw : ofBounds ⟨none, some 6, none, some 31, none⟩ ⟨none, some 22, none, some 30, none⟩ .all
      .utc = .ok monthEnd := rfl
  have hactive : monthEnd.schedule.contains? (.onDay (Date.mk 2025 6 30).dayNumber ⟨43200⟩) =
      some true := by decide
  have hend : monthEnd.schedule.nextEnd? (.onDay (Date.mk 2025 6 30).dayNumber ⟨43200⟩) =
      some (.onDay (Date.mk 2025 6 30).dayNumber ⟨79200⟩) := by decide
  have hleap : monthEnd.schedule.contains?
      ⟨(.onDay (Date.mk 2025 6 30).dayNumber ⟨79200⟩ : WallClock).seconds - 1, 1500000000⟩ =
        some true := by decide
  have hlater : monthEnd.schedule.Occurs ⟨.onDay (Date.mk 2025 6 30).dayNumber ⟨21600⟩,
      .onDay (Date.mk 2025 7 30).dayNumber ⟨79200⟩⟩ := .monthly (monthIndex 2025 6)
  have hprocessed : (Session.monthEnd 43200 []).processMatches .universal [("r", 7)] =
      (.ok [.deferred "r" ⟨(Session.monthEnd 79200 []).now, 0⟩ 1],
        .monthEnd 43200 [("r", ⟨⟨(Session.monthEnd 79200 []).now, 0⟩, [7]⟩)]) := rfl
  have hstill : (Session.monthEnd 43200 []).registry.isInBlackout .universal "r"
      (Session.monthEnd 79199 []).now = .ok true := rfl
  obtain ⟨hwindow, hsession⟩ := active_until_nextEnd? hw
  obtain ⟨hlt, hfirst, huntil⟩ := hwindow _ _ hactive hend
  have htrue := hsession rfl _ _ _ _ _ _ _ _ rfl hprocessed List.mem_cons_self _ _ (by decide)
    (by decide) hstill
  exact ⟨_, _, hw, rfl, rfl, hactive, hend, ⟨_, hlater, by decide, by decide, by decide⟩, hlt,
    hfirst, ⟨_, hleap, huntil _ _ (by decide) (by decide) hleap⟩,
    ⟨_, _, rfl, hprocessed, hstill, htrue⟩⟩

/-- **Later readings find later ends.** The next end of a built window comes after the reading that
it is found for, and of two readings the later one does not find an earlier end. -/
theorem Window.nextEnd?_mono {p q : Point} {trigger : Trigger} {mode : ZoneMode} {w : Window}
    (hw : Window.ofBounds p q trigger mode = .ok w) {t t' e e' : WallClock} (hle : t ≤ t')
    (h : w.schedule.nextEnd? t = some e) (h' : w.schedule.nextEnd? t' = some e') :
    t < e ∧ e ≤ e' := by
  have hs := Window.legal_of_ofBounds hw
  have hfinds := Schedule.nextEnd?_eq_some hs h
  exact ⟨hfinds.mem_endsAfter.1, hfinds.mono (Schedule.nextEnd?_eq_some hs h') hle⟩

/-- February 28 at 22:00 until February 29 at 6:00. In June 2024 the search sees no leap day ahead
and finds the end of an empty occurrence; at the next new year it sees 2028, and the end that it
finds is years later. -/
theorem Window.nextEnd?_mono_at_new_year :
    ∃ w t t' e e', Window.ofBounds ⟨none, some 22, none, some 28, some 2⟩
        ⟨none, some 6, none, some 29, some 2⟩ .all .utc = .ok w ∧
      t = .onDay (Date.mk 2024 6 1).dayNumber ⟨0⟩ ∧
      t' = .onDay (Date.mk 2025 1 1).dayNumber ⟨0⟩ ∧
      e = .onDay (Date.mk 2025 2 28).dayNumber ⟨21600⟩ ∧
      e' = .onDay (Date.mk 2028 2 29).dayNumber ⟨21600⟩ ∧
      t ≤ t' ∧ w.schedule.nextEnd? t = some e ∧ w.schedule.nextEnd? t' = some e' ∧
      t < e ∧ e ≤ e' := by
  have hw : Window.ofBounds ⟨none, some 22, none, some 28, some 2⟩
      ⟨none, some 6, none, some 29, some 2⟩ .all .utc =
        .ok ⟨_, _, .annual ⟨2, 28⟩ ⟨79200⟩ ⟨2, 29⟩ ⟨21600⟩, .all, .utc⟩ := rfl
  have hend : (Schedule.annual ⟨2, 28⟩ ⟨79200⟩ ⟨2, 29⟩ ⟨21600⟩).nextEnd?
      (.onDay (Date.mk 2024 6 1).dayNumber ⟨0⟩) =
        some (.onDay (Date.mk 2025 2 28).dayNumber ⟨21600⟩) := by decide
  have hend' : (Schedule.annual ⟨2, 28⟩ ⟨79200⟩ ⟨2, 29⟩ ⟨21600⟩).nextEnd?
      (.onDay (Date.mk 2025 1 1).dayNumber ⟨0⟩) =
        some (.onDay (Date.mk 2028 2 29).dayNumber ⟨21600⟩) := by decide
  have hle : (.onDay (Date.mk 2024 6 1).dayNumber ⟨0⟩ : WallClock) ≤
      .onDay (Date.mk 2025 1 1).dayNumber ⟨0⟩ := by decide
  exact ⟨_, _, _, _, _, hw, rfl, rfl, rfl, rfl, hle, hend, hend',
    Window.nextEnd?_mono hw hle hend hend'⟩

end Blackout
