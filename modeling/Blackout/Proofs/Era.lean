import Blackout.Proofs.Interior

/-!
# Eras

The calendar repeats after an era of 400 years: 146097 days, which are 4800 months and 20871 whole
weeks. The occurrences of a schedule repeat with it, and so do the test and the search, which look
at the same occurrences an era later. Years before year 0 and years far ahead are no exception.
-/

namespace Blackout

open Calendar

/-! ### Dates -/

namespace Calendar

theorem isLeap_add_era (year eras : Int) : isLeap (year + 400 * eras) = isLeap year := by
  rw [Bool.eq_iff_iff, isLeap_iff, isLeap_iff]
  omega

theorem yearStart_add_era (year eras : Int) :
    yearStart (year + 400 * eras) = yearStart year + 146097 * eras := by
  unfold yearStart
  omega

theorem daysBefore_add_era (year eras : Int) (month : Nat) :
    daysBefore (year + 400 * eras) month = daysBefore year month := by
  unfold daysBefore
  rw [isLeap_add_era]

theorem monthLength_add_era (year eras : Int) (month : Nat) :
    monthLength (year + 400 * eras) month = monthLength year month := by
  unfold monthLength
  rw [isLeap_add_era]

theorem monthIndex_add_era (year eras : Int) (month : Nat) :
    monthIndex (year + 400 * eras) month = monthIndex year month + 4800 * eras := by
  unfold monthIndex
  omega

theorem dayIn_add_era (index eras : Int) (day : Nat) :
    dayIn (index + 4800 * eras) day = dayIn index day + 146097 * eras := by
  have hyear : (index + 4800 * eras) / 12 = index / 12 + 400 * eras := by omega
  have hmonth : (index + 4800 * eras) % 12 = index % 12 := by omega
  unfold dayIn lengthOf Date.dayNumber
  dsimp only
  rw [hyear, hmonth, yearStart_add_era, daysBefore_add_era, monthLength_add_era]
  omega

end Calendar

/-- An era later it is the same day of the same month, 400 years on. -/
theorem Date.ofDayNumber_add_era (day eras : Int) :
    ofDayNumber (day + 146097 * eras) =
      ⟨(ofDayNumber day).year + 400 * eras, (ofDayNumber day).month, (ofDayNumber day).day⟩ := by
  obtain ⟨hvalid, hnumber⟩ := ofDayNumber_spec day
  generalize ofDayNumber day = d at hvalid hnumber ⊢
  have hvalid' : (Date.mk (d.year + 400 * eras) d.month d.day).isValid = true := by
    rw [isValid_iff] at hvalid ⊢
    dsimp only
    rw [monthLength_add_era]
    exact hvalid
  have hnumber' : (Date.mk (d.year + 400 * eras) d.month d.day).dayNumber =
      day + 146097 * eras := by
    unfold dayNumber at hnumber ⊢
    dsimp only
    rw [yearStart_add_era, daysBefore_add_era]
    omega
  rw [← hnumber', ofDayNumber_dayNumber hvalid']

/-! ### Readings -/

namespace Reading

variable {scale : Scale} {a b : Reading scale}

theorem plusDays_lt_plusDays {days : Int} : a.plusDays days < b.plusDays days ↔ a < b := by
  rw [lt_iff, lt_iff]
  unfold plusDays
  dsimp only
  omega

theorem plusDays_le_plusDays {days : Int} : a.plusDays days ≤ b.plusDays days ↔ a ≤ b := by
  rw [le_iff, le_iff]
  unfold plusDays
  dsimp only
  omega

theorem day_plusDays (t : Reading scale) (days : Int) : (t.plusDays days).day = t.day + days := by
  unfold day plusDays daySeconds
  dsimp only
  omega

theorem isLeast_plusDays {ends : Set (Reading scale)} {days : Int} (h : IsLeast ends a) :
    IsLeast ((fun e => e.plusDays days) '' ends) (a.plusDays days) := by
  refine ⟨⟨a, h.1, rfl⟩, ?_⟩
  intro e hend
  obtain ⟨e, he, rfl⟩ := hend
  exact plusDays_le_plusDays.mpr (h.2 he)

theorem date_plusDays_era (t : Reading scale) (eras : Int) :
    (t.plusDays (146097 * eras)).date =
      ⟨t.date.year + 400 * eras, t.date.month, t.date.day⟩ := by
  unfold date
  rw [day_plusDays, Date.ofDayNumber_add_era]

end Reading

/-! ### Occurrences -/

namespace Schedule

variable {s : Schedule} {t e : WallClock} {eras : Int}

/-- Cycles of a schedule in an era: days, weeks, months or years. -/
def eraCycles : Schedule → Int
  | daily .. => 146097
  | weekly .. => 20871
  | monthly .. => 4800
  | annual .. => 400

theorem cycleOf_add_era (s : Schedule) (day eras : Int) :
    s.cycleOf (day + 146097 * eras) = s.cycleOf day + s.eraCycles * eras := by
  cases s with
  | daily start stop => rfl
  | weekly startDay start stopDay stop =>
    unfold cycleOf eraCycles
    dsimp only
    omega
  | monthly startDay start stopDay stop =>
    show (Date.ofDayNumber (day + 146097 * eras)).monthIndex =
      (Date.ofDayNumber day).monthIndex + 4800 * eras
    rw [Date.ofDayNumber_add_era]
    exact monthIndex_add_era _ _ _
  | annual startDate start stopDate stop =>
    exact congrArg Date.year (Date.ofDayNumber_add_era day eras)

theorem firstDay_add_era (s : Schedule) (n eras : Int) :
    s.firstDay (n + s.eraCycles * eras) = s.firstDay n + 146097 * eras := by
  cases s with
  | daily start stop => rfl
  | weekly startDay start stopDay stop =>
    unfold firstDay eraCycles
    dsimp only
    omega
  | monthly startDay start stopDay stop => exact dayIn_add_era n eras startDay
  | annual startDate start stopDate stop =>
    unfold firstDay eraCycles
    dsimp only
    rw [monthIndex_add_era, dayIn_add_era]

theorem lastDay_add_era (s : Schedule) (n eras : Int) :
    s.lastDay (n + s.eraCycles * eras) = s.lastDay n + 146097 * eras := by
  cases s with
  | daily start stop =>
    unfold lastDay eraCycles
    dsimp only
    split <;> omega
  | weekly startDay start stopDay stop =>
    unfold lastDay eraCycles
    dsimp only
    omega
  | monthly startDay start stopDay stop =>
    have hnext : n + 4800 * eras + 1 = n + 1 + 4800 * eras := by omega
    unfold lastDay eraCycles
    dsimp only
    rw [hnext, ← dayIn_add_era]
    split <;> rfl
  | annual startDate start stopDate stop =>
    have hnext : n + 400 * eras + 1 = n + 1 + 400 * eras := by omega
    unfold lastDay eraCycles
    dsimp only
    rw [hnext, ← dayIn_add_era, ← monthIndex_add_era]
    split <;> rfl

/-- An era later there is the same occurrence. -/
theorem nth_add_era (s : Schedule) (n eras : Int) :
    s.nth (n + s.eraCycles * eras) =
      ⟨(s.nth n).start.plusDays (146097 * eras), (s.nth n).stop.plusDays (146097 * eras)⟩ := by
  unfold nth
  rw [firstDay_add_era, lastDay_add_era, Reading.onDay_plusDays, Reading.onDay_plusDays]

theorem exists_cycle_era (s : Schedule) (n eras : Int) : ∃ m, n = m + s.eraCycles * eras :=
  ⟨n - s.eraCycles * eras, (Int.sub_add_cancel n _).symm⟩

theorem holds_add_era (s : Schedule) (t : WallClock) (n eras : Int) :
    (s.nth (n + s.eraCycles * eras)).holds (t.plusDays (146097 * eras)) = (s.nth n).holds t := by
  rw [Bool.eq_iff_iff, holds_iff, holds_iff, nth_add_era, Reading.plusDays_le_plusDays,
    Reading.plusDays_lt_plusDays]

theorem ahead_add_era (s : Schedule) (t : WallClock) (n eras : Int) :
    s.Ahead (t.plusDays (146097 * eras)) (n + s.eraCycles * eras) ↔ s.Ahead t n := by
  unfold Ahead
  rw [nth_add_era]
  exact Reading.plusDays_lt_plusDays

theorem lasts_add_era (s : Schedule) (n eras : Int) :
    s.Lasts (n + s.eraCycles * eras) ↔ s.Lasts n := by
  unfold Lasts
  rw [nth_add_era]
  exact Reading.plusDays_lt_plusDays

/-! ### The test -/

theorem contains?_add_era (hs : s.Legal) {b b' : Bool} (h : s.contains? t = some b)
    (h' : s.contains? (t.plusDays (146097 * eras)) = some b') : b' = b := by
  have hprevious : s.cycleOf t.day + s.eraCycles * eras - 1 =
      s.cycleOf t.day - 1 + s.eraCycles * eras := by omega
  have hheld' := contains?_eq_some hs h'
  rw [Reading.day_plusDays, cycleOf_add_era, hprevious, holds_add_era, holds_add_era,
    ← contains?_eq_some hs h] at hheld'
  exact Bool.eq_iff_iff.mpr hheld'

/-! ### The next end -/

theorem sees_add_era (s : Schedule) (t : WallClock) (eras : Int) :
    s.Sees (t.plusDays (146097 * eras)) ↔ s.Sees t := by
  unfold Sees
  rw [Reading.day_plusDays, cycleOf_add_era]
  constructor
  · intro hsees
    obtain ⟨m, hm, hahead, hlasts⟩ := hsees
    obtain ⟨n, rfl⟩ := s.exists_cycle_era m eras
    exact ⟨n, by omega, (ahead_add_era s t n eras).mp hahead, (lasts_add_era s n eras).mp hlasts⟩
  · intro hsees
    obtain ⟨n, hn, hahead, hlasts⟩ := hsees
    exact ⟨n + s.eraCycles * eras, by omega, (ahead_add_era s t n eras).mpr hahead,
      (lasts_add_era s n eras).mpr hlasts⟩

theorem Occurs.add_era {o : Occurrence} (ho : s.Occurs o) (eras : Int) :
    s.Occurs ⟨o.start.plusDays (146097 * eras), o.stop.plusDays (146097 * eras)⟩ := by
  obtain ⟨n, rfl⟩ := occurs_iff.mp ho
  rw [← nth_add_era]
  exact s.occurs_nth _

theorem exists_occurs_era {o' : Occurrence} (ho' : s.Occurs o') (eras : Int) :
    ∃ o, s.Occurs o ∧
      o' = ⟨o.start.plusDays (146097 * eras), o.stop.plusDays (146097 * eras)⟩ := by
  obtain ⟨m, rfl⟩ := occurs_iff.mp ho'
  obtain ⟨n, rfl⟩ := s.exists_cycle_era m eras
  exact ⟨_, s.occurs_nth n, s.nth_add_era n eras⟩

theorem endsAfter_add_era (s : Schedule) (t : WallClock) (eras : Int) :
    s.endsAfter (t.plusDays (146097 * eras)) =
      (fun e => e.plusDays (146097 * eras)) '' s.endsAfter t := by
  ext e
  constructor
  · intro hend
    obtain ⟨hlt, o', ho', rfl⟩ := hend
    obtain ⟨o, ho, rfl⟩ := exists_occurs_era ho' eras
    exact ⟨o.stop, ⟨Reading.plusDays_lt_plusDays.mp hlt, o, ho, rfl⟩, rfl⟩
  · intro hend
    obtain ⟨-, ⟨hlt, o, ho, rfl⟩, rfl⟩ := hend
    exact ⟨Reading.plusDays_lt_plusDays.mpr hlt, _, ho.add_era eras, rfl⟩

theorem liveEndsAfter_add_era (s : Schedule) (t : WallClock) (eras : Int) :
    s.liveEndsAfter (t.plusDays (146097 * eras)) =
      (fun e => e.plusDays (146097 * eras)) '' s.liveEndsAfter t := by
  ext e
  constructor
  · intro hend
    obtain ⟨hlt, o', ho', hlive, rfl⟩ := hend
    obtain ⟨o, ho, rfl⟩ := exists_occurs_era ho' eras
    exact ⟨o.stop, ⟨Reading.plusDays_lt_plusDays.mp hlt, o, ho,
      Reading.plusDays_lt_plusDays.mp hlive, rfl⟩, rfl⟩
  · intro hend
    obtain ⟨-, ⟨hlt, o, ho, hlive, rfl⟩, rfl⟩ := hend
    exact ⟨Reading.plusDays_lt_plusDays.mpr hlt, _, ho.add_era eras,
      Reading.plusDays_lt_plusDays.mpr hlive, rfl⟩

theorem Finds.add_era (h : s.Finds t e) (eras : Int) :
    s.Finds (t.plusDays (146097 * eras)) (e.plusDays (146097 * eras)) := by
  unfold Finds
  rw [sees_add_era, endsAfter_add_era, liveEndsAfter_add_era]
  rcases h with ⟨hsees, hleast⟩ | ⟨hblind, ⟨n, hempty, rfl⟩, hleast⟩
  · exact .inl ⟨hsees, Reading.isLeast_plusDays hleast⟩
  · refine .inr ⟨hblind, ⟨n + s.eraCycles * eras, ?_, ?_⟩, Reading.isLeast_plusDays hleast⟩
    · rw [lasts_add_era]
      exact hempty
    · rw [nth_add_era]

theorem Finds.unique {e' : WallClock} (h : s.Finds t e) (h' : s.Finds t e') : e = e' :=
  Reading.le_antisymm (h.mono h' (Reading.le_refl t)) (h'.mono h (Reading.le_refl t))

theorem nextEnd?_add_era (hs : s.Legal) {e' : WallClock} (h : s.nextEnd? t = some e)
    (h' : s.nextEnd? (t.plusDays (146097 * eras)) = some e') :
    e' = e.plusDays (146097 * eras) :=
  (nextEnd?_eq_some hs h').unique ((nextEnd?_eq_some hs h).add_era eras)

end Schedule

/-! ### Windows -/

theorem Reading.interior_day {t : WallClock} (hlo : -262140 ≤ t.date.year)
    (hhi : t.date.year ≤ 262135) : Interior t.day := by
  obtain ⟨hfrom, hto⟩ := within_years (show -262140 ≤ yearOf t.day from hlo) hhi
  unfold Interior firstDay lastDay
  unfold yearStart at *
  omega

/-- **Every window repeats with the calendar.** Let two readings in the years -262140 to 262135 be a
whole number of eras of 146097 days apart. They show the same day of the same month, 400 years apart
for each era, and a built window of any kind answers at both: the test says the same, and the next
ends are as far apart as the readings. -/
theorem Window.answers_repeat {p q : Point} {trigger : Trigger} {mode : ZoneMode} {w : Window}
    (hw : Window.ofBounds p q trigger mode = .ok w) {t : WallClock} {eras : Int}
    (hlo : -262140 ≤ t.date.year) (hhi : t.date.year ≤ 262135)
    (hlo' : -262140 ≤ (t.plusDays (146097 * eras)).date.year)
    (hhi' : (t.plusDays (146097 * eras)).date.year ≤ 262135) :
    (t.plusDays (146097 * eras)).date =
      ⟨t.date.year + 400 * eras, t.date.month, t.date.day⟩ ∧
    (∃ active, w.schedule.contains? t = some active ∧
      w.schedule.contains? (t.plusDays (146097 * eras)) = some active) ∧
    ∃ e, w.schedule.nextEnd? t = some e ∧
      w.schedule.nextEnd? (t.plusDays (146097 * eras)) = some (e.plusDays (146097 * eras)) := by
  have hs := Window.legal_of_ofBounds hw
  have hday := Reading.interior_day hlo hhi
  have hday' := Reading.interior_day hlo' hhi'
  obtain ⟨active, hactive⟩ := Schedule.exists_contains?_interior hs hday
  obtain ⟨active', hactive'⟩ := Schedule.exists_contains?_interior hs hday'
  obtain ⟨e, hend⟩ := Schedule.exists_nextEnd?_interior hs hday
  obtain ⟨e', hend'⟩ := Schedule.exists_nextEnd?_interior hs hday'
  refine ⟨t.date_plusDays_era eras, ⟨active, hactive, ?_⟩, e, hend, ?_⟩
  · rw [hactive', Schedule.contains?_add_era hs hactive hactive']
  · rw [hend', Schedule.nextEnd?_add_era hs hend hend']

/-- From February 29 at 22:00 until February 28 at 6:00 of the next year, asked in a leap second of
February 29 of the year -4 and five eras later, in 1996. -/
theorem Window.answers_repeat_leap_second :
    ∃ w t later e, Window.ofBounds ⟨none, some 22, none, some 29, some 2⟩
        ⟨none, some 6, none, some 28, some 2⟩ .all .utc = .ok w ∧
      t = ⟨86400 * (Date.mk (-4) 2 29).dayNumber + 86399, 1500000000⟩ ∧
      later = t.plusDays (146097 * 5) ∧ later.date = ⟨1996, 2, 29⟩ ∧
      e = .onDay (Date.mk (-3) 2 28).dayNumber ⟨21600⟩ ∧
      w.schedule.contains? t = some true ∧ w.schedule.contains? later = some true ∧
      w.schedule.nextEnd? t = some e ∧
      w.schedule.nextEnd? later = some (.onDay (Date.mk 1997 2 28).dayNumber ⟨21600⟩) := by
  have hw : Window.ofBounds ⟨none, some 22, none, some 29, some 2⟩
      ⟨none, some 6, none, some 28, some 2⟩ .all .utc =
        .ok ⟨_, _, .annual ⟨2, 29⟩ ⟨79200⟩ ⟨2, 28⟩ ⟨21600⟩, .all, .utc⟩ := rfl
  obtain ⟨hdate, ⟨active, hactive, hactive'⟩, e, hend, hend'⟩ :=
    Window.answers_repeat hw (show (-262140 : Int) ≤
      (⟨86400 * (Date.mk (-4) 2 29).dayNumber + 86399, 1500000000⟩ : WallClock).date.year by decide)
      (by decide) (show (-262140 : Int) ≤ (Reading.plusDays
        (⟨86400 * (Date.mk (-4) 2 29).dayNumber + 86399, 1500000000⟩ : WallClock)
          (146097 * 5)).date.year by decide) (by decide)
  have hinside : active = true := Option.some.inj (hactive.symm.trans (by decide))
  have hstop : e = .onDay (Date.mk (-3) 2 28).dayNumber ⟨21600⟩ :=
    Option.some.inj (hend.symm.trans (by decide))
  rw [hinside] at hactive hactive'
  rw [hstop] at hend hend'
  exact ⟨_, _, _, _, hw, rfl, rfl, hdate, rfl, hactive, hactive', hend, hend'⟩

end Blackout
