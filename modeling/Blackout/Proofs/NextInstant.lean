import Blackout.Proofs.Clock
import Blackout.Proofs.NextEnd
import Blackout.Proofs.Reading

/-!
# The next end as an instant

The next end of a window is found on the wall clock, where it comes after the reading it is
asked at. As an instant it comes later too, unless clocks have just been turned back: in the
second pass of a repeated hour, an end within that hour means an instant of the first pass.
-/

namespace Blackout

open Calendar

/-! ### Ends on the wall clock -/

namespace Schedule

variable {s : Schedule} {t e : WallClock}

theorem Finds.mem_endsAfter (h : s.Finds t e) : e ∈ s.endsAfter t := by
  rcases h with ⟨-, hleast⟩ | ⟨-, -, hleast⟩
  · obtain ⟨hlt, o, ho, -, hstop⟩ := hleast.1
    exact ⟨hlt, o, ho, hstop⟩
  · exact hleast.1

theorem lt_of_nextEnd?_eq_some (hs : s.Legal) (h : s.nextEnd? t = some e) : t < e :=
  (nextEnd?_eq_some hs h).mem_endsAfter.1

theorem nanos_of_nextEnd?_eq_some (hs : s.Legal) (h : s.nextEnd? t = some e) : e.nanos = 0 := by
  obtain ⟨-, o, ho, rfl⟩ := (nextEnd?_eq_some hs h).mem_endsAfter
  obtain ⟨n, rfl⟩ := occurs_iff.mp ho
  rfl

theorem cycleOf_mono (s : Schedule) {a b : Int} (hab : a ≤ b) : s.cycleOf a ≤ s.cycleOf b := by
  have hfrom := (s.edge_cycleOf a).1
  have hto := (s.edge_cycleOf b).2
  have hlt : s.cycleOf a < s.cycleOf b + 1 := s.edge_strictMono.lt_iff_lt.mp (by omega)
  omega

theorem Finds.mono {t' e' : WallClock} (h : s.Finds t e) (h' : s.Finds t' e') (hle : t ≤ t') :
    e ≤ e' := by
  have hend' := h'.mem_endsAfter
  by_cases hpassed : e ≤ t'
  · exact Reading.le_of_lt (Reading.lt_of_le_of_lt hpassed hend'.1)
  · have hahead : t' < e := by
      rw [← Reading.not_lt, not_not] at hpassed
      exact hpassed
    rcases h with ⟨hsees, hleast⟩ | ⟨-, -, hleast⟩
    · -- the occurrence that was seen is still ahead, so the later reading sees it too
      obtain ⟨n, hn, hstop, hlasts⟩ := hsees
      have hfound := hleast.2 ⟨hstop, _, s.occurs_nth n, hlasts, rfl⟩
      have hdays : t.day ≤ t'.day := by
        have hday := t.day_spec
        have hday' := t'.day_spec
        rw [Reading.le_iff] at hle
        omega
      have hcycles := s.cycleOf_mono hdays
      have hsees' : s.Sees t' :=
        ⟨n, by omega, Reading.lt_of_lt_of_le hahead hfound, hlasts⟩
      obtain ⟨-, hleast'⟩ := h'.resolve_right fun hblind => hblind.1 hsees'
      obtain ⟨hlt, hlive⟩ := hleast'.1
      exact hleast.2 ⟨Reading.lt_of_le_of_lt hle hlt, hlive⟩
    · exact hleast.2 ⟨Reading.lt_of_le_of_lt hle hend'.1, hend'.2⟩

/-- The end found inside an occurrence is the end of the first one that holds the reading. -/
theorem Finds.exists_first (hs : s.Legal) {n : Int} (hholds : (s.nth n).holds t = true)
    (h : s.Finds t e) : ∃ m, e = (s.nth m).stop ∧ (s.nth m).holds t = true ∧
      ∀ k, (s.nth k).holds t = true → m ≤ k := by
  have hlive : ∀ k, (s.nth k).holds t = true → s.Ahead t k ∧ s.Lasts k := by
    intro k hk
    obtain ⟨hstart, hahead⟩ := (holds_iff _ _).mp hk
    exact ⟨hahead, Reading.lt_of_le_of_lt hstart hahead⟩
  obtain ⟨hahead, hlasts⟩ := hlive n hholds
  have hnear : n ≤ s.cycleOf t.day + 3 := by
    rcases cycle_of_holds hs hholds with h | h <;> omega
  obtain ⟨-, hleast⟩ := h.resolve_right fun hblind => hblind.1 ⟨n, hnear, hahead, hlasts⟩
  obtain ⟨hlt, o, ho, -, rfl⟩ := hleast.1
  obtain ⟨m, rfl⟩ := occurs_iff.mp ho
  have hfirst : ∀ k, (s.nth k).holds t = true → m ≤ k := by
    intro k hk
    have hle : (s.nth m).stop ≤ (s.nth k).stop :=
      hleast.2 ⟨(hlive k hk).1, _, s.occurs_nth k, (hlive k hk).2, rfl⟩
    rw [← Reading.not_lt, stop_lt_stop_iff hs] at hle
    omega
  refine ⟨m, rfl, ?_, hfirst⟩
  -- it started no later than the occurrence that is known to hold the reading
  have hstart : (s.nth m).start ≤ (s.nth n).start := by
    rw [← Reading.not_lt, start_lt_start_iff hs]
    exact (hfirst n hholds).not_gt
  exact (holds_iff _ _).mpr ⟨Reading.le_trans hstart ((holds_iff _ _).mp hholds).1, hlt⟩

end Schedule

/-! ### Ends as instants -/

namespace Zone

variable {zone : Zone} {saving : Saving} {now : Instant} {e : WallClock} {r : OffsetTime}

theorem regular_zone {here : Zone} (hhere : here.Regular) (mode : ZoneMode) :
    (mode.zone here).Regular := by
  cases mode
  · exact regular_universal
  · exact hhere

/-- Clocks were turned back no longer ago than they were turned by, and the reading `e` was
shown before the turn or at its very moment. -/
def TurnedBack (zone : Zone) (now : Instant) (e : WallClock) : Prop :=
  ∃ saving ∈ zone.saving, ∃ year,
    saving.stop.moment year - saving.offset ≤ now.seconds ∧
      now.seconds < saving.stop.moment year - zone.standard ∧
      e.seconds ≤ saving.stop.moment year

theorem turnedBack_of_resolved_le (hzone : zone.Regular)
    (hahead : now.seconds + zone.offsetAt now < e.seconds)
    (hearly : e.seconds - zone.resolvedOffset e ≤ now.seconds) : zone.TurnedBack now e := by
  cases hs : zone.saving with
  | none =>
    rw [offsetAt_of_saving_eq_none hs] at hahead
    rw [resolvedOffset_of_saving_eq_none hs] at hearly
    omega
  | some saving =>
    have hsaves := (hzone.saving saving hs).ahead
    -- only a reading at saving time, asked for in standard time, fits both inequalities
    rcases offsetAt_spec hzone hs now with ⟨-, hnow⟩ | ⟨hnot, hnow⟩
    · rcases resolvedOffset_spec hzone hs e with ⟨-, hoffset⟩ | ⟨-, hoffset⟩ <;> omega
    · rcases resolvedOffset_spec hzone hs e with ⟨hread, hoffset⟩ | ⟨-, hoffset⟩
      · refine ⟨saving, hs, ?_⟩
        rcases hread with ⟨y, hstart, hstop⟩ | hmoment
        · have hended : saving.stopAfter y - saving.offset ≤ now.seconds := by
            by_contra hlt
            exact hnot ⟨y, by omega, by omega⟩
          obtain ⟨year, hyear⟩ := saving.stopAfter_eq y
          rw [hyear] at hstop hended
          exact ⟨year, hended, by omega, by omega⟩
        · exact ⟨yearOf e.day, by omega, by omega, hmoment.le⟩
      · omega

theorem readAsSaving_of_turned (hzone : zone.Regular) (hs : saving ∈ zone.saving) {year : Int}
    (hfrom : saving.stop.moment year - saving.offset + zone.standard < e.seconds)
    (hto : e.seconds ≤ saving.stop.moment year) : zone.ReadAsSaving saving e := by
  have hregular := hzone.saving saving hs
  rcases Int.lt_or_eq_of_le hto with hlt | heq
  · obtain ⟨y, hstop, hstart⟩ := Saving.exists_stopAfter hregular year
    have hstandard := hzone.standard_gt
    have hoffset := hregular.offset_lt
    exact Or.inl ⟨y, by omega, by omega⟩
  · have hinside := YearlyRule.moment_inside hregular.stop year
    have hday := e.day_spec
    have hyear : yearOf e.day = year := yearOf_eq (by omega) (by omega)
    exact Or.inr (by rw [hyear, heq])

theorem resolved_le_of_turnedBack (hzone : zone.Regular)
    (hahead : now.seconds + zone.offsetAt now < e.seconds) (hback : zone.TurnedBack now e) :
    e.seconds - zone.resolvedOffset e ≤ now.seconds := by
  obtain ⟨saving, hs, year, hturned, hagain, hbefore⟩ := hback
  have hnow : zone.offsetAt now = zone.standard := by
    have hnot := Saving.not_covers_of_turned (hzone.saving saving hs) hzone.standard_gt hturned
      hagain
    rcases offsetAt_spec hzone hs now with ⟨hin, -⟩ | ⟨-, h⟩
    · exact absurd hin hnot
    · exact h
  have hread := readAsSaving_of_turned hzone hs (by omega) hbefore
  rcases resolvedOffset_spec hzone hs e with ⟨-, hoffset⟩ | ⟨hnot, -⟩
  · omega
  · exact absurd hread hnot

theorem le_iff_turnedBack (hzone : zone.Regular) (hwhole : e.nanos = 0)
    (hlt : zone.wallClock now < e) (h : zone.instantOf? e = some r) :
    r.instant ≤ now ↔ zone.TurnedBack now e := by
  have hinstant := instantOf?_eq_some hzone hwhole h
  have hahead : now.seconds + zone.offsetAt now < e.seconds := by
    rcases hlt with hlt | ⟨-, hlt⟩
    · exact hlt
    · omega
  have hle : r.instant ≤ now ↔ e.seconds - zone.resolvedOffset e ≤ now.seconds := by
    rw [hinstant]
    show (e.seconds - zone.resolvedOffset e < now.seconds ∨
      e.seconds - zone.resolvedOffset e = now.seconds ∧ e.nanos ≤ now.nanos) ↔ _
    omega
  rw [hle]
  exact ⟨turnedBack_of_resolved_le hzone hahead, resolved_le_of_turnedBack hzone hahead⟩

end Zone

namespace Window

variable {w : Window} {here : Zone} {now : Instant} {r : OffsetTime}

theorem contains?_utc (hutc : w.mode = .utc) {active : Bool}
    (h : w.isActive here now = .ok active) :
    w.schedule.contains? (now.shownAt 0) = some active := by
  have hcontains := (isActive_eq_ok_iff.mp h).2
  rw [hutc] at hcontains
  exact hcontains

theorem exists_holds_utc (hs : w.schedule.Legal) (hutc : w.mode = .utc)
    (hactive : w.isActive here now = .ok true) :
    ∃ n, (w.schedule.nth n).holds (now.shownAt 0) = true :=
  (Schedule.contains?_iff_exists hs (contains?_utc hutc hactive)).mp rfl

theorem nextEnd_utc (hs : w.schedule.Legal) (hutc : w.mode = .utc)
    (h : w.nextEnd here now = .ok r) : w.schedule.Finds (now.shownAt 0) (r.instant.shownAt 0) := by
  obtain ⟨-, e, hend, hplaced⟩ := nextEnd_eq_ok_iff.mp h
  rw [hutc] at hend hplaced
  have hinstant := Zone.instantOf?_eq_some Zone.regular_universal
    (Schedule.nanos_of_nextEnd?_eq_some hs hend) hplaced
  rw [Zone.resolvedOffset_of_saving_eq_none rfl] at hinstant
  have hstop : r.instant.shownAt 0 = e := by
    rw [hinstant]
    exact Reading.shownAt_instantAt e 0
  rw [hstop]
  exact Schedule.nextEnd?_eq_some hs hend

theorem shownAt_lt_shownAt {a b : Instant} : a.shownAt 0 < b.shownAt 0 ↔ a < b := by
  unfold Reading.shownAt
  simp only [Reading.lt_iff, Int.add_zero]

theorem shownAt_le_shownAt {a b : Instant} : a.shownAt 0 ≤ b.shownAt 0 ↔ a ≤ b := by
  unfold Reading.shownAt
  simp only [Reading.le_iff, Int.add_zero]

theorem lt_nextEnd_utc (hs : w.schedule.Legal) (hutc : w.mode = .utc)
    (h : w.nextEnd here now = .ok r) : now < r.instant :=
  shownAt_lt_shownAt.mp (nextEnd_utc hs hutc h).mem_endsAfter.1

theorem nextEnd_mono_utc (hs : w.schedule.Legal) (hutc : w.mode = .utc) {now' : Instant}
    {r' : OffsetTime} (h : w.nextEnd here now = .ok r) (h' : w.nextEnd here now' = .ok r')
    (hle : now ≤ now') : r.instant ≤ r'.instant :=
  shownAt_le_shownAt.mp
    ((nextEnd_utc hs hutc h).mono (nextEnd_utc hs hutc h') (shownAt_le_shownAt.mpr hle))

end Window

/-- **The next end comes later, unless clocks have just been turned back.** The next end of a
built window, in a regular zone, is strictly later than the instant it is asked at, except in the
second pass of a repeated hour for an end reading within that hour: then it is not later. -/
theorem Window.lt_nextEnd_iff {p q : Point} {trigger : Trigger} {mode : ZoneMode} {w : Window}
    (hw : Window.ofBounds p q trigger mode = .ok w) {here : Zone} (hhere : here.Regular)
    {now : Instant} {r : OffsetTime} (h : w.nextEnd here now = .ok r) :
    ∃ e, w.schedule.nextEnd? ((w.mode.zone here).wallClock now) = some e ∧
      (now < r.instant ↔ ¬ (w.mode.zone here).TurnedBack now e) := by
  have hs := Window.legal_of_ofBounds hw
  obtain ⟨-, e, hend, hplaced⟩ := nextEnd_eq_ok_iff.mp h
  refine ⟨e, hend, ?_⟩
  rw [← Zone.le_iff_turnedBack (Zone.regular_zone hhere w.mode)
    (Schedule.nanos_of_nextEnd?_eq_some hs hend) (Schedule.lt_of_nextEnd?_eq_some hs hend)
    hplaced, ← Reading.not_lt, not_not]

/-- A window from 1:00 until 2:30 every day in Central Europe, asked at 2:15 after clocks were
turned back on October 26, 2025: its next end is 2:30 before they were turned back, 45 minutes
earlier. -/
theorem Window.nextEnd_in_second_pass :
    ∃ w now r, Window.ofBounds ⟨some 0, some 1, none, none, none⟩
        ⟨some 30, some 2, none, none, none⟩ .all .local = .ok w ∧
      Zone.centralEurope.Regular ∧
      now = .onDay (Date.mk 2025 10 26).dayNumber ⟨4500⟩ ∧
      r.instant = .onDay (Date.mk 2025 10 26).dayNumber ⟨1800⟩ ∧
      w.nextEnd Zone.centralEurope now = .ok r ∧
      Zone.centralEurope.TurnedBack now (.onDay (Date.mk 2025 10 26).dayNumber ⟨9000⟩) ∧
      ¬ now < r.instant := by
  have hw : Window.ofBounds ⟨some 0, some 1, none, none, none⟩
      ⟨some 30, some 2, none, none, none⟩ .all .local =
        .ok ⟨_, _, .daily ⟨3600⟩ ⟨9000⟩, .all, .local⟩ := rfl
  have hend : (Schedule.daily ⟨3600⟩ ⟨9000⟩).nextEnd? (Zone.centralEurope.wallClock
      (.onDay (Date.mk 2025 10 26).dayNumber ⟨4500⟩)) =
        some (.onDay (Date.mk 2025 10 26).dayNumber ⟨9000⟩) := by decide
  have hnext : Window.nextEnd Zone.centralEurope
      ⟨⟨some 0, some 1, none, none, none⟩, ⟨some 30, some 2, none, none, none⟩,
        .daily ⟨3600⟩ ⟨9000⟩, .all, .local⟩ (.onDay (Date.mk 2025 10 26).dayNumber ⟨4500⟩) =
        .ok ⟨.onDay (Date.mk 2025 10 26).dayNumber ⟨1800⟩, 7200⟩ := by decide
  have hback : Zone.centralEurope.TurnedBack (.onDay (Date.mk 2025 10 26).dayNumber ⟨4500⟩)
      (.onDay (Date.mk 2025 10 26).dayNumber ⟨9000⟩) :=
    ⟨_, rfl, 2025, by decide, by decide, by decide⟩
  obtain ⟨e, he, hlater⟩ := Window.lt_nextEnd_iff hw Zone.regular_centralEurope hnext
  cases hend.symm.trans he
  exact ⟨_, _, _, hw, Zone.regular_centralEurope, rfl, rfl, hnext, hback,
    fun hlt => hlater.mp hlt hback⟩

end Blackout
