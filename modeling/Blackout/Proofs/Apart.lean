import Blackout.Proofs.NextInstant

/-!
# Schedules whose occurrences are apart

A schedule is apart where the test answers false at the end of every non-empty occurrence. Then no
occurrence at all ends inside another one, no reading is in two of them, and the next end of a
reading inside an occurrence is the end of that occurrence.
-/

namespace Blackout

open Calendar

namespace Schedule

variable {s : Schedule}

/-- No end of a non-empty occurrence is inside an occurrence, as far as the test answers. -/
def Apart (s : Schedule) : Prop :=
  ∀ o, s.Occurs o → o.start < o.stop → s.contains? o.stop ≠ some true

namespace Apart

theorem not_endsInside_of_within (hapart : s.Apart) (hs : s.Legal) {n : Int} (hlasts : s.Lasts n)
    (hkind : s.kind = .monthly ∨ s.kind = .annual)
    (hlo : Calendar.firstDay ≤ s.edge (s.cycleOf (s.nth n).stop.day - 1))
    (hhi : s.edge (s.cycleOf (s.nth n).stop.day + 2) ≤ Calendar.lastDay) :
    ¬ s.EndsInside (s.nth n).stop := by
  obtain ⟨b, hb⟩ := exists_contains?_of_within hs hkind hlo hhi
  rw [← start_le_stop_iff_endsInside hs, ← exists_holds_stop_iff hs, ← contains?_iff_exists hs hb]
  intro htrue
  rw [htrue] at hb
  exact hapart _ (s.occurs_nth n) hlasts hb

theorem not_endsInside (hapart : s.Apart) (hs : s.Legal) (e : WallClock) : ¬ s.EndsInside e := by
  have hdays := hs.daysExist
  intro hends
  cases s with
  | daily start stop => exact hends
  | weekly startDay start stopDay stop => exact hends
  | monthly startDay start stopDay stop =>
    -- if any end is overrun, then so is the one of February 2001, which has the fewest days
    obtain ⟨hday, htime, hlen⟩ := hends
    have hlong := monthLength_pos e.date.year e.date.month
    have hdate : ((monthly startDay start stopDay stop).nth 24012).stop.date =
        ⟨2001, 2, min stopDay (lengthOf 24013)⟩ := by
      rw [date_stop hs]
      unfold lastDay
      dsimp only
      rw [if_neg (by omega), Date.ofDayNumber_dayIn _ hdays.2.2.1]
      rfl
    have hcycle : (monthly startDay start stopDay stop).cycleOf
        ((monthly startDay start stopDay stop).nth 24012).stop.day = 24013 :=
      congrArg Date.monthIndex hdate
    refine hapart.not_endsInside_of_within hs (n := 24012) ?_ (.inl rfl) ?_ ?_ ⟨hday, htime, ?_⟩
    · rw [lasts_iff_days hs]
      unfold firstDay lastDay
      dsimp only
      rw [if_neg (by omega)]
      exact .inl (dayIn_lt_dayIn (by omega) startDay hdays.2.2.1)
    · rw [hcycle]
      exact (show Calendar.firstDay ≤ monthStart 24012 by decide)
    · rw [hcycle]
      exact (show monthStart 24015 ≤ Calendar.lastDay by decide)
    · rw [hdate]
      exact (show monthLength 2001 2 ≤ 28 by decide).trans (hlong.trans hlen)
  | annual startDate start stopDate stop =>
    obtain ⟨rfl, rfl, htime, -⟩ := hends
    have hdate : ((annual ⟨2, 29⟩ start ⟨2, 28⟩ stop).nth 2000).stop.date = ⟨2001, 2, 28⟩ := by
      rw [date_stop hs]
      exact Date.ofDayNumber_dayIn 24013 (show 1 ≤ 28 by decide)
    have hcycle : (annual ⟨2, 29⟩ start ⟨2, 28⟩ stop).cycleOf
        ((annual ⟨2, 29⟩ start ⟨2, 28⟩ stop).nth 2000).stop.day = 2001 :=
      congrArg Date.year hdate
    refine hapart.not_endsInside_of_within hs (n := 2000) ?_ (.inr rfl) ?_ ?_
      ⟨rfl, rfl, htime, ?_⟩
    · rw [lasts_iff_days hs]
      exact .inl (dayIn_lt_dayIn (show (24001 : Int) < 24013 by decide) 29 (show 1 ≤ 28 by decide))
    · rw [hcycle]
      exact (show Calendar.firstDay ≤ yearStart 2000 by decide)
    · rw [hcycle]
      exact (show yearStart 2003 ≤ Calendar.lastDay by decide)
    · rw [hdate]
      decide

end Apart

theorem apart_iff (hs : s.Legal) : s.Apart ↔ ∀ e, ¬ s.EndsInside e := by
  constructor
  · exact fun hapart e => hapart.not_endsInside hs e
  · intro hnone o ho _ htrue
    obtain ⟨n, rfl⟩ := occurs_iff.mp ho
    have hinside := (exists_holds_stop_iff hs n).mp ((contains?_iff_exists hs htrue).mp rfl)
    exact hnone _ ((start_le_stop_iff_endsInside hs n).mp hinside)

namespace Apart

theorem not_holds_stop (hapart : s.Apart) (hs : s.Legal) (m n : Int) :
    ¬ (s.nth n).holds (s.nth m).stop = true := by
  intro hholds
  have hinside := (exists_holds_stop_iff hs m).mp ⟨n, hholds⟩
  rw [start_le_stop_iff_endsInside hs] at hinside
  exact hapart.not_endsInside hs _ hinside

/-- While an occurrence lasts and at its end, no other one holds the reading. -/
theorem eq_of_holds (hapart : s.Apart) (hs : s.Legal) {m n : Int} {t : WallClock}
    (hstart : (s.nth m).start ≤ t) (hstop : t ≤ (s.nth m).stop)
    (hholds : (s.nth n).holds t = true) : m = n := by
  obtain ⟨hstart', hstop'⟩ := (holds_iff _ _).mp hholds
  rcases lt_trichotomy m n with hlt | heq | hgt
  · -- the earlier end would be inside the later occurrence
    refine absurd ((holds_iff _ _).mpr ⟨?_, ?_⟩) (hapart.not_holds_stop hs m n)
    · exact Reading.le_trans hstart' hstop
    · exact (stop_lt_stop_iff hs m n).mpr hlt
  · exact heq
  · refine absurd ((holds_iff _ _).mpr ⟨?_, ?_⟩) (hapart.not_holds_stop hs n m)
    · exact Reading.le_trans hstart (Reading.le_of_lt hstop')
    · exact (stop_lt_stop_iff hs n m).mpr hgt

theorem eq_stop_of_finds (hapart : s.Apart) (hs : s.Legal) {n : Int} {t e : WallClock}
    (hholds : (s.nth n).holds t = true) (hfinds : s.Finds t e) : e = (s.nth n).stop := by
  obtain ⟨hstart, hstop⟩ := (holds_iff _ _).mp hholds
  obtain ⟨m, rfl, hfirst, -⟩ := hfinds.exists_first hs hholds
  rw [hapart.eq_of_holds hs hstart (Reading.le_of_lt hstop) hfirst]

end Apart

end Schedule

end Blackout
