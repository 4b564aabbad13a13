import Blackout.Proofs.NextInstant

/-!
# Inside the calendar

Test and search look at a few cycles near a reading, and answer nothing where one of them leads out
of the calendar. A cycle lasts a leap year at most, so two years after the first day and six years
before the last one all of them lie inside: every window answers, in every regular zone.
-/

namespace Blackout

open Calendar

/-- Two leap years or more after the first day, and six or more before the last day. -/
def Calendar.Interior (day : Int) : Prop := firstDay + 2 * 366 ≤ day ∧ day + 6 * 366 ≤ lastDay

/-! ### Cycles inside the calendar -/

namespace Schedule

variable {s : Schedule} {t e : WallClock}

theorem edge_succ_le (s : Schedule) (n : Int) : s.edge (n + 1) ≤ s.edge n + 366 := by
  cases s with
  | daily start stop =>
    show n + 1 ≤ n + 366
    omega
  | weekly startDay start stopDay stop =>
    show 7 * (n + 1) + (startDay.number : Int) - 3 ≤ 7 * n + startDay.number - 3 + 366
    omega
  | monthly startDay start stopDay stop =>
    have hlength : lengthOf n ≤ 31 := monthLength_le _ _
    show monthStart (n + 1) ≤ monthStart n + 366
    rw [monthStart_succ]
    omega
  | annual startDate start stopDate stop =>
    show yearStart (n + 1) ≤ yearStart n + 366
    rw [yearStart_succ]
    unfold yearLength
    split <;> omega

theorem edge_add_le (s : Schedule) (n : Int) (k : Nat) : s.edge (n + k) ≤ s.edge n + 366 * k := by
  induction k with
  | zero => simp
  | succ k ih =>
    have hstep := s.edge_succ_le (n + k)
    push_cast
    rw [← Int.add_assoc]
    omega

/-- The five cycles that are looked at, and the next ones that they end in, lie in the calendar. -/
theorem edge_interior (s : Schedule) {day : Int} (h : Interior day) :
    Calendar.firstDay ≤ s.edge (s.cycleOf day - 1) ∧
      s.edge (s.cycleOf day + 5) ≤ Calendar.lastDay := by
  obtain ⟨hfrom, hto⟩ := s.edge_cycleOf day
  have hbefore := s.edge_add_le (s.cycleOf day - 1) 2
  have hahead := s.edge_add_le (s.cycleOf day) 5
  rw [show s.cycleOf day - 1 + (2 : Nat) = s.cycleOf day + 1 by omega] at hbefore
  unfold Interior at h
  push_cast at hbefore hahead
  omega

/-! ### Inside or outside -/

theorem weeklyOccurrence?_interior (startDay stopDay : Weekday) (start stop : TimeOfDay)
    {day : Int} (h : Interior day) :
    weeklyOccurrence? startDay start stopDay stop day =
      some ((weekly startDay start stopDay stop).nth
        ((weekly startDay start stopDay stop).cycleOf day)) := by
  have hlength := weeklyLength_bounds startDay stopDay start stop
  have hanchor : day - 6 ≤ previousOrSame day startDay ∧ previousOrSame day startDay ≤ day := by
    unfold previousOrSame
    omega
  unfold Interior at h
  suffices hsome : ∃ o, weeklyOccurrence? startDay start stopDay stop day = some o by
    obtain ⟨o, ho⟩ := hsome
    rw [ho, weeklyOccurrence?_eq_some ho]
  unfold weeklyOccurrence?
  rw [withinCalendar?_of_mem (by omega) (by omega)]
  dsimp only [Option.bind_eq_bind, Option.bind_some]
  rw [withinCalendar?_of_mem (by omega) (by omega)]
  exact ⟨_, rfl⟩

theorem weekly_days_near (startDay stopDay : Weekday) (start stop : TimeOfDay) (day : Int) :
    day - 7 < (weekly startDay start stopDay stop).firstDay
        ((weekly startDay start stopDay stop).cycleOf day) ∧
      (weekly startDay start stopDay stop).firstDay
        ((weekly startDay start stopDay stop).cycleOf day) ≤ day ∧
      day - 7 < (weekly startDay start stopDay stop).lastDay
        ((weekly startDay start stopDay stop).cycleOf day) ∧
      (weekly startDay start stopDay stop).lastDay
        ((weekly startDay start stopDay stop).cycleOf day) < day + 7 := by
  have hlength := weeklyLength_bounds startDay stopDay start stop
  unfold firstDay lastDay cycleOf
  dsimp only
  omega

theorem withinCalendar?_plusDays {day days : Int} {time : TimeOfDay} (htime : time.seconds < 86400)
    (hlo : Calendar.firstDay ≤ day + days) (hhi : day + days ≤ Calendar.lastDay) :
    ((.onDay day time : WallClock).plusDays days).withinCalendar? =
      some (.onDay (day + days) time) := by
  rw [Reading.onDay_plusDays, Reading.withinCalendar?_eq_some_iff]
  unfold Reading.Representable
  rw [Reading.day_onDay _ htime]
  exact ⟨⟨hlo, hhi⟩, rfl⟩

theorem exists_contains?_interior (hs : s.Legal) (h : Interior t.day) :
    ∃ active, s.contains? t = some active := by
  obtain ⟨hlo, hhi⟩ := s.edge_interior h
  have hedge : s.edge (s.cycleOf t.day + 2) ≤ s.edge (s.cycleOf t.day + 5) :=
    s.edge_strictMono.monotone (by omega)
  cases s with
  | daily start stop =>
    unfold contains?
    dsimp only
    split <;> exact ⟨_, rfl⟩
  | weekly startDay start stopDay stop =>
    have hocc := weeklyOccurrence?_interior startDay stopDay start stop h
    have hweek := weekly_days_near startDay stopDay start stop t.day
    unfold Interior at h
    unfold contains?
    dsimp only
    rw [hocc]
    dsimp only [Option.bind_eq_bind, Option.bind_some]
    split
    · -- the occurrence of the week before
      unfold shift? nth
      dsimp only
      rw [withinCalendar?_plusDays hs.startTime_lt (by omega) (by omega),
        withinCalendar?_plusDays hs.stopTime_lt (by omega) (by omega)]
      exact ⟨_, rfl⟩
    · exact ⟨_, rfl⟩
  | monthly startDay start stopDay stop =>
    exact exists_contains?_of_within hs (.inl rfl) hlo (hedge.trans hhi)
  | annual startDate start stopDate stop =>
    exact exists_contains?_of_within hs (.inr rfl) hlo (hedge.trans hhi)

/-! ### The next end -/

theorem exists_firstEnd? {cycles : List Int} {found : Option WallClock}
    (hocc : ∀ n ∈ cycles, s.occurrence? n = some (s.nth n))
    (hend : found.isSome = true ∨ ∃ n ∈ cycles, s.Ahead t n) :
    ∃ e, s.firstEnd? t cycles found = some e := by
  induction cycles generalizing found with
  | nil =>
    rcases hend with hfound | ⟨n, hn, -⟩
    · exact Option.isSome_iff_exists.mp hfound
    · cases hn
  | cons n rest ih =>
    rw [List.forall_mem_cons] at hocc
    unfold firstEnd?
    rw [hocc.1]
    dsimp only [Option.bind_eq_bind, Option.bind_some]
    split
    · next hended =>
      refine ih hocc.2 (hend.imp_right ?_)
      rintro ⟨m, hm, hahead⟩
      rcases List.mem_cons.mp hm with rfl | hm
      · exact absurd hahead (Reading.not_lt.mpr hended)
      · exact ⟨m, hm, hahead⟩
    · split
      · exact ⟨_, rfl⟩
      · -- an end is kept from here on
        refine ih hocc.2 (.inl ?_)
        cases found <;> rfl

theorem occurrence?_interior (hs : s.Legal) (hkind : s.kind = .monthly ∨ s.kind = .annual)
    {day n : Int} (h : Interior day) (hfrom : s.cycleOf day - 1 ≤ n) (hto : n ≤ s.cycleOf day + 3) :
    s.occurrence? n = some (s.nth n) := by
  obtain ⟨hlo, hhi⟩ := s.edge_interior h
  have hedge := s.edge_strictMono.monotone
  exact occurrence?_of_within hs hkind (hlo.trans (hedge hfrom)) ((hedge (by omega)).trans hhi)

theorem exists_search_interior (hs : s.Legal) (hkind : s.kind = .monthly ∨ s.kind = .annual)
    (h : Interior t.day) {c : Int} (hc : c = s.cycleOf t.day) :
    ∃ e, s.firstEnd? t [c - 1, c, c + 1, c + 2, c + 3] none = some e := by
  apply exists_firstEnd?
  · intro n hn
    simp only [List.mem_cons, List.not_mem_nil, or_false] at hn
    exact occurrence?_interior hs hkind h (by omega) (by omega)
  · -- the next cycle ends after the reading, whatever the schedule
    exact .inr ⟨c + 1, by simp, lt_stop_of_lt hs (by omega)⟩

theorem exists_nextEnd?_interior (hs : s.Legal) (h : Interior t.day) :
    ∃ e, s.nextEnd? t = some e := by
  cases s with
  | daily start stop =>
    unfold Interior at h
    unfold nextEnd?
    dsimp only
    split
    · exact ⟨_, rfl⟩
    · rw [withinCalendar?_of_mem (by omega) (by omega)]
      exact ⟨_, rfl⟩
  | weekly startDay start stopDay stop =>
    have hocc := weeklyOccurrence?_interior startDay stopDay start stop h
    have hweek := weekly_days_near startDay stopDay start stop t.day
    unfold Interior at h
    unfold nextEnd?
    dsimp only
    rw [hocc]
    dsimp only [Option.bind_eq_bind, Option.bind_some]
    split
    · unfold nth
      dsimp only
      rw [withinCalendar?_plusDays hs.stopTime_lt (by omega) (by omega)]
      exact ⟨_, rfl⟩
    · exact ⟨_, rfl⟩
  | monthly startDay start stopDay stop => exact exists_search_interior hs (.inl rfl) h rfl
  | annual startDate start stopDate stop => exact exists_search_interior hs (.inr rfl) h rfl

theorem Finds.le_stop (hs : s.Legal) (h : s.Finds t e) :
    e ≤ (s.nth (s.cycleOf t.day + 3)).stop := by
  rcases h with ⟨⟨n, hn, hahead, hlasts⟩, hleast⟩ | ⟨-, -, hleast⟩
  · have hle := hleast.2 ⟨hahead, _, s.occurs_nth n, hlasts, rfl⟩
    exact Reading.le_trans hle (stop_le_stop hs hn)
  · exact hleast.2 ⟨lt_stop_of_lt hs (by omega), _, s.occurs_nth _, rfl⟩

/-- The next end is so far inside the calendar that every clock can place it. -/
theorem Finds.day_interior (hs : s.Legal) (h : s.Finds t e) (ht : Interior t.day) :
    Calendar.firstDay + 1 ≤ e.day ∧ e.day ≤ Calendar.lastDay - 1 := by
  have hlt := h.mem_endsAfter.1
  have hle := h.le_stop hs
  have hlast := (lastDay_bounds hs (s.cycleOf t.day + 3)).2
  have hedge := (s.edge_interior ht).2
  have htime := hs.stopTime_lt
  have hday := e.day_spec
  have hday' := t.day_spec
  have hstop : (s.nth (s.cycleOf t.day + 3)).stop.seconds =
      86400 * s.lastDay (s.cycleOf t.day + 3) + s.stopTime.seconds := rfl
  rw [show s.cycleOf t.day + 3 + 2 = s.cycleOf t.day + 5 by omega] at hlast
  rw [Reading.lt_iff] at hlt
  rw [Reading.le_iff, hstop] at hle
  unfold Interior at ht
  omega

end Schedule

/-! ### Months counted in a word -/

/-- Numbers of a signed 32-bit word. -/
def Calendar.FitsWord (n : Int) : Prop := -0x80000000 ≤ n ∧ n ≤ 0x7fffffff

/-- Months in which the occurrence of a cycle starts and stops. The length of a month is found from
the first month of its year and the month that follows it. -/
def Schedule.months : Schedule → Int → List Int
  | .monthly startDay _ stopDay _, n => [n, if stopDay < startDay then n + 1 else n]
  | .annual startDate _ stopDate _, n =>
    [monthIndex n startDate.month,
      monthIndex (if startDate.after stopDate then n + 1 else n) stopDate.month]
  | _, _ => []

theorem Calendar.month_bounds {month : Int} (hlo : firstDay ≤ monthStart month)
    (hhi : monthStart month ≤ lastDay) : 12 * -262143 ≤ month ∧ month < 12 * 262143 := by
  have hfirst : firstDay = monthStart (12 * -262143) := (monthStart_january _).symm
  have hlast : lastDay < monthStart (12 * 262143) := by
    rw [monthStart_january]
    exact sub_one_lt _
  rw [hfirst] at hlo
  exact ⟨monthStart_strictMono.le_iff_le.mp hlo,
    monthStart_strictMono.lt_iff_lt.mp (hhi.trans_lt hlast)⟩

namespace Schedule

variable {s : Schedule} {t : WallClock} {cycle n month : Int}

theorem month_within_year {date : MonthDay} (h : date.Exists) (year : Int) :
    yearStart year ≤ monthStart (monthIndex year date.month) ∧
      monthStart (monthIndex year date.month) < yearStart (year + 1) := by
  obtain ⟨hlo, hhi, -⟩ := (Date.isValid_iff _).mp h
  obtain ⟨hfrom, hto⟩ := monthIndex_within year hlo hhi
  exact ⟨hfrom, (monthStart_strictMono (lt_add_one _)).trans_le hto⟩

/-- An occurrence starts and stops in months of its own cycle or the next. -/
theorem months_bounds (hs : s.Legal) (hmonth : month ∈ s.months n) :
    s.edge n ≤ monthStart month ∧ monthStart month < s.edge (n + 2) := by
  cases s with
  | daily start stop => cases hmonth
  | weekly startDay start stopDay stop => cases hmonth
  | monthly startDay start stopDay stop =>
    have hnear : n ≤ month ∧ month < n + 2 := by
      unfold months at hmonth
      simp only [List.mem_cons, List.not_mem_nil, or_false] at hmonth
      split at hmonth <;> omega
    exact ⟨monthStart_strictMono.monotone hnear.1, monthStart_strictMono hnear.2⟩
  | annual startDate start stopDate stop =>
    obtain ⟨hstart, hstop⟩ := hs.daysExist
    have hfrom := month_within_year hstart n
    have hto := month_within_year hstop n
    have hwrapped := month_within_year hstop (n + 1)
    rw [show n + 1 + 1 = n + 2 by omega] at hwrapped
    show yearStart n ≤ monthStart month ∧ monthStart month < yearStart (n + 2)
    unfold months at hmonth
    simp only [List.mem_cons, List.not_mem_nil, or_false] at hmonth
    rcases hmonth with rfl | rfl
    · omega
    · split <;> omega

theorem fitsWord_interior (hs : s.Legal) (h : Interior t.day) (hcycle : s.cycle? t = some cycle)
    (hfrom : cycle - 1 ≤ n) (hto : n ≤ cycle + 3) :
    FitsWord n ∧ ∀ month ∈ s.months n, FitsWord (12 * (month / 12)) ∧ FitsWord (month + 1) := by
  have hcycle' : cycle = s.cycleOf t.day := by
    cases s <;> cases hcycle <;> rfl
  subst hcycle'
  obtain ⟨hlo, hhi⟩ := s.edge_interior h
  have hlo' := hlo.trans (s.edge_strictMono.monotone hfrom)
  have hhi' := (s.edge_strictMono.monotone (show n + 2 ≤ s.cycleOf t.day + 5 by omega)).trans hhi
  unfold FitsWord
  constructor
  · have hedge : s.edge n < s.edge (n + 2) := s.edge_strictMono (by omega)
    cases s with
    | daily start stop => cases hcycle
    | weekly startDay start stopDay stop => cases hcycle
    | monthly startDay start stopDay stop =>
      have hn := Calendar.month_bounds hlo' (hedge.le.trans hhi')
      omega
    | annual startDate start stopDate stop =>
      have hjanuary : (annual startDate start stopDate stop).edge n = monthStart (12 * n) :=
        (monthStart_january n).symm
      rw [hjanuary] at hlo' hedge
      have hn := Calendar.month_bounds hlo' (hedge.le.trans hhi')
      omega
  · intro month hmonth
    obtain ⟨hstart, hstop⟩ := months_bounds hs hmonth
    have hbounds := Calendar.month_bounds (hlo'.trans hstart) (hstop.le.trans hhi')
    omega

end Schedule

/-! ### Instants -/

theorem Zone.interior_wallClock {zone : Zone} (hzone : zone.Regular) {now : Instant}
    (hlo : -262140 ≤ now.date.year) (hhi : now.date.year ≤ 262135) :
    Interior (zone.wallClock now).day := by
  obtain ⟨hfrom, hto⟩ := within_years hlo hhi
  have hoffset := zone.offsetAt_bounds hzone now
  have hday := now.day_spec
  have hday' := (zone.wallClock now).day_spec
  have hclock : (zone.wallClock now).seconds = now.seconds + zone.offsetAt now := rfl
  unfold Interior firstDay lastDay
  unfold yearStart at *
  omega

/-- **Inside the calendar every window answers.** From year -262140 to year 262135 of universal time
a built window tells at every instant whether it is active and when it ends next, in universal time
and in a regular local zone: the local clocks show a reading, all occurrences that are looked at lie
inside the calendar, the end can be placed, and every count of months and years fits in a word.

The rules of all zones in use are regular (`Zone.regular_of_inUse`). -/
theorem Window.answers_interior {p q : Point} {trigger : Trigger} {mode : ZoneMode} {w : Window}
    (hw : Window.ofBounds p q trigger mode = .ok w) {here : Zone} (hhere : here.Regular)
    {now : Instant} (hlo : -262140 ≤ now.date.year) (hhi : now.date.year ≤ 262135) :
    (w.mode.zone here).shows now = true ∧
    (∃ active, w.isActive here now = .ok active) ∧
    (∃ stop, w.nextEnd here now = .ok stop) ∧
    ∀ cycle, w.schedule.cycle? ((w.mode.zone here).wallClock now) = some cycle →
      ∀ n, cycle - 1 ≤ n → n ≤ cycle + 3 →
        FitsWord n ∧ ∀ month ∈ w.schedule.months n,
          FitsWord (12 * (month / 12)) ∧ FitsWord (month + 1) := by
  have hs := Window.legal_of_ofBounds hw
  have hzone := Zone.regular_zone hhere w.mode
  have hday := Zone.interior_wallClock hzone hlo hhi
  have hshows : (w.mode.zone here).shows now = true := by
    rw [Zone.shows_iff]
    unfold Interior at hday
    unfold Reading.Representable
    omega
  refine ⟨hshows, ?_, ?_, fun cycle hcycle n => Schedule.fitsWord_interior hs hday hcycle⟩
  · obtain ⟨active, hactive⟩ := Schedule.exists_contains?_interior hs hday
    exact ⟨active, isActive_eq_ok_iff.mpr ⟨hshows, hactive⟩⟩
  · obtain ⟨e, hend⟩ := Schedule.exists_nextEnd?_interior hs hday
    obtain ⟨hfirst, hlast⟩ := (Schedule.nextEnd?_eq_some hs hend).day_interior hs hday
    obtain ⟨stop, hplaced⟩ := Zone.exists_instantOf? hzone
      (Schedule.nanos_of_nextEnd?_eq_some hs hend) hfirst hlast
    exact ⟨stop, nextEnd_eq_ok_iff.mpr ⟨hshows, e, hend, hplaced⟩⟩

/-- From February 29 at 22:00 until February 28 at 6:00 of the next year, on clocks fourteen hours
ahead, asked in a leap second at the end of year 262135. The clocks show the next year, a leap year,
and the window is active until its February 28. -/
theorem Window.answers_interior_last_second :
    ∃ w here now active stop, Window.ofBounds ⟨none, some 22, none, some 29, some 2⟩
        ⟨none, some 6, none, some 28, some 2⟩ .all .local = .ok w ∧
      Zone.ofPosix? "<+14>-14" = some here ∧ here.Regular ∧
      now = ⟨86400 * (Date.mk 262135 12 31).dayNumber + 86399, 1500000000⟩ ∧
      now.date.year = 262135 ∧
      stop.wallClock = .onDay (Date.mk 262136 2 28).dayNumber ⟨21600⟩ ∧
      here.shows now = true ∧ active = true ∧
      w.isActive here now = .ok active ∧ w.nextEnd here now = .ok stop ∧
      FitsWord 262139 ∧ ∀ month ∈ w.schedule.months 262139,
        FitsWord (12 * (month / 12)) ∧ FitsWord (month + 1) := by
  have hw : Window.ofBounds ⟨none, some 22, none, some 29, some 2⟩
      ⟨none, some 6, none, some 28, some 2⟩ .all .local =
        .ok ⟨_, _, .annual ⟨2, 29⟩ ⟨79200⟩ ⟨2, 28⟩ ⟨21600⟩, .all, .local⟩ := rfl
  obtain ⟨hshows, ⟨active, hactive⟩, ⟨stop, hstop⟩, hcounts⟩ :=
    Window.answers_interior hw (show (⟨50400, none⟩ : Zone).Regular by decide)
      (show (-262140 : Int) ≤ (⟨86400 * (Date.mk 262135 12 31).dayNumber + 86399, 1500000000⟩ :
        Instant).date.year by decide) (by decide)
  have htold : active = true := by
    rw [show Window.isActive _ _ _ = .ok true by decide] at hactive
    cases hactive
    rfl
  have hend : stop.wallClock = .onDay (Date.mk 262136 2 28).dayNumber ⟨21600⟩ := by
    rw [show Window.nextEnd _ _ _ = .ok ⟨(.instantAt
      (.onDay (Date.mk 262136 2 28).dayNumber ⟨21600⟩) 50400), 50400⟩ by decide] at hstop
    cases hstop
    rfl
  exact ⟨_, _, _, active, stop, hw, by decide, by decide, rfl, by decide, hend, hshows, htold,
    hactive, hstop, hcounts 262136 (by decide) 262139 (by decide) (by decide)⟩

end Blackout
