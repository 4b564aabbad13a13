import Blackout.Proofs.Bounds

/-!
# Inside or outside an occurrence

`Schedule.contains?` looks at the occurrences of two cycles at most. That is enough: where it
answers, it answers for the occurrences of the whole calendar. A start lies inside its own
occurrence; an end lies inside an occurrence exactly where the next one, clamped onto the same
day, starts no later.
-/

namespace Blackout

open Calendar

namespace Schedule

variable {s : Schedule}

/-! ### Occurrences that the test computes -/

theorem occurrence?_eq_some {n : Int} {o : Occurrence} (h : s.occurrence? n = some o) :
    o = s.nth n := by
  cases s with
  | daily start stop => cases h
  | weekly startDay start stopDay stop => cases h
  | monthly startDay start stopDay stop =>
    obtain ⟨first, hfirst, h⟩ := Option.bind_eq_some_iff.mp h
    obtain ⟨last, hlast, h⟩ := Option.bind_eq_some_iff.mp h
    cases h
    rw [clampedDay?_eq_some hfirst, clampedDay?_eq_some hlast]
    simp only [nth, firstDay, lastDay, startTime, stopTime, ← Nat.not_lt, ite_not]
  | annual startDate start stopDate stop =>
    obtain ⟨first, hfirst, h⟩ := Option.bind_eq_some_iff.mp h
    obtain ⟨last, hlast, h⟩ := Option.bind_eq_some_iff.mp h
    cases h
    rw [clampedDay?_eq_some hfirst, clampedDay?_eq_some hlast]
    rfl

theorem weeklyOccurrence?_eq_some {startDay stopDay : Weekday} {start stop : TimeOfDay}
    {day : Int} {o : Occurrence}
    (h : weeklyOccurrence? startDay start stopDay stop day = some o) :
    o = (weekly startDay start stopDay stop).nth
      ((weekly startDay start stopDay stop).cycleOf day) := by
  obtain ⟨anchor, hanchor, h⟩ := Option.bind_eq_some_iff.mp h
  obtain ⟨last, hlast, h⟩ := Option.bind_eq_some_iff.mp h
  have hday : previousOrSame day startDay =
      7 * ((day + 3 - startDay.number) / 7) + startDay.number - 3 := by
    unfold previousOrSame
    rw [Weekday.number_ofDayNumber]
    omega
  rw [withinCalendar?_eq_some hanchor, hday] at hlast
  rw [withinCalendar?_eq_some hanchor, hday, withinCalendar?_eq_some hlast] at h
  exact (Option.some.inj h).symm

theorem nth_plusDays_week (startDay stopDay : Weekday) (start stop : TimeOfDay) (n k : Int) :
    (weekly startDay start stopDay stop).nth (n + k) =
      ⟨((weekly startDay start stopDay stop).nth n).start.plusDays (7 * k),
        ((weekly startDay start stopDay stop).nth n).stop.plusDays (7 * k)⟩ := by
  unfold nth
  simp only [Reading.onDay_plusDays, Occurrence.mk.injEq]
  unfold firstDay lastDay
  dsimp only
  constructor
  · congr 1
    omega
  · congr 1
    omega

theorem shift?_eq_some {o shifted : Occurrence} {days : Int} (h : shift? o days = some shifted) :
    shifted = ⟨o.start.plusDays days, o.stop.plusDays days⟩ := by
  obtain ⟨start, hstart, h⟩ := Option.bind_eq_some_iff.mp h
  obtain ⟨stop, hstop, h⟩ := Option.bind_eq_some_iff.mp h
  rw [Reading.withinCalendar?_eq_some hstart, Reading.withinCalendar?_eq_some hstop] at h
  exact (Option.some.inj h).symm

theorem anyHolds?_eq_some {t : WallClock} {cycles : List Int} {b : Bool}
    (h : s.anyHolds? t cycles = some b) :
    b = true ↔ ∃ n ∈ cycles, (s.nth n).holds t = true := by
  induction cycles with
  | nil =>
    cases h
    simp
  | cons n rest ih =>
    obtain ⟨o, ho, h⟩ := Option.bind_eq_some_iff.mp h
    rw [occurrence?_eq_some ho] at h
    cases hn : (s.nth n).holds t with
    | true =>
      rw [hn] at h
      cases h
      simp [hn]
    | false =>
      rw [hn] at h
      simp [hn, ih h]

theorem anyHolds?_pair {t : WallClock} {a c : Int} {b : Bool}
    (h : s.anyHolds? t [a, c] = some b) :
    b = true ↔ (s.nth a).holds t = true ∨ (s.nth c).holds t = true := by
  rw [anyHolds?_eq_some h]
  simp

theorem contains?_daily {start stop : TimeOfDay} (hs : (daily start stop).Legal) {t : WallClock}
    {b : Bool} (h : (daily start stop).contains? t = some b) :
    b = true ↔ ((daily start stop).nth (t.day - 1)).holds t = true ∨
      ((daily start stop).nth t.day).holds t = true := by
  have hstart := hs.startTime_lt
  have hstop := hs.stopTime_lt
  have hday := t.day_spec
  have hsecond := t.secondOfDay_eq
  simp only [holds_iff, start_le_iff, lt_stop_iff, firstDay, lastDay, startTime,
    stopTime] at hstart hstop ⊢
  unfold contains? at h
  dsimp only at h
  split at h
  · rename_i hle
    cases h
    show (decide (start.seconds ≤ t.secondOfDay) && decide (t.secondOfDay < stop.seconds)) =
      true ↔ _
    simp only [if_pos hle, Bool.and_eq_true, decide_eq_true_eq]
    omega
  · rename_i hle
    cases h
    show (decide (start.seconds ≤ t.secondOfDay) || decide (t.secondOfDay < stop.seconds)) =
      true ↔ _
    simp only [if_neg hle, Bool.or_eq_true, decide_eq_true_eq]
    omega

theorem contains?_weekly {startDay stopDay : Weekday} {start stop : TimeOfDay}
    (hs : (weekly startDay start stopDay stop).Legal) {t : WallClock} {b : Bool} {n : Int}
    (hn : n = (weekly startDay start stopDay stop).cycleOf t.day)
    (h : (weekly startDay start stopDay stop).contains? t = some b) :
    b = true ↔ ((weekly startDay start stopDay stop).nth (n - 1)).holds t = true ∨
      ((weekly startDay start stopDay stop).nth n).holds t = true := by
  obtain ⟨o, ho, h⟩ := Option.bind_eq_some_iff.mp h
  rw [weeklyOccurrence?_eq_some ho, ← hn] at h
  by_cases hbefore : t < ((weekly startDay start stopDay stop).nth n).start
  · -- before this week's start only last week's occurrence can hold the reading
    rw [if_pos hbefore] at h
    obtain ⟨shifted, hshift, h⟩ := Option.bind_eq_some_iff.mp h
    cases h
    have hweek := nth_plusDays_week startDay stopDay start stop n (-1)
    rw [Int.add_neg_eq_sub] at hweek
    have hnot : ¬ ((weekly startDay start stopDay stop).nth n).holds t = true := by
      rw [holds_iff, ← Reading.not_lt]
      exact fun hheld => hheld.1 hbefore
    rw [shift?_eq_some hshift, hweek]
    exact (or_iff_left hnot).symm
  · rw [if_neg hbefore] at h
    cases h
    have hnot : ¬ ((weekly startDay start stopDay stop).nth (n - 1)).holds t = true := by
      have hapart := weekly_lastDay_lt startDay stopDay start stop (n - 1)
      have htime := hs.stopTime_lt
      rw [Int.sub_add_cancel] at hapart
      rw [Reading.not_lt, start_le_iff] at hbefore
      rw [holds_iff, lt_stop_iff]
      omega
    exact (or_iff_right hnot).symm

/-- The test looks at the cycle of the reading and at the one before it. -/
theorem contains?_eq_some (hs : s.Legal) {t : WallClock} {b : Bool}
    (h : s.contains? t = some b) :
    b = true ↔ (s.nth (s.cycleOf t.day - 1)).holds t = true ∨
      (s.nth (s.cycleOf t.day)).holds t = true := by
  cases s with
  | daily start stop => exact contains?_daily hs h
  | weekly startDay start stopDay stop => exact contains?_weekly hs rfl h
  | monthly startDay start stopDay stop => exact anyHolds?_pair h
  | annual startDate start stopDate stop => exact anyHolds?_pair h

theorem contains?_iff_exists (hs : s.Legal) {t : WallClock} {b : Bool}
    (h : s.contains? t = some b) : b = true ↔ ∃ n, (s.nth n).holds t = true := by
  rw [contains?_eq_some hs h]
  constructor
  · intro h
    rcases h with hprevious | hcurrent
    · exact ⟨_, hprevious⟩
    · exact ⟨_, hcurrent⟩
  · intro hheld
    obtain ⟨n, hn⟩ := hheld
    rcases cycle_of_holds hs hn with rfl | rfl
    · exact Or.inl hn
    · exact Or.inr hn

/-! ### Where the test answers -/

theorem annualDay?_of_within {date : MonthDay} (hdate : date.Exists) {year : Int}
    (hlo : Calendar.firstDay ≤ yearStart year) (hhi : yearStart (year + 1) ≤ Calendar.lastDay) :
    annualDay? year date = some (dayIn (monthIndex year date.month) date.day) := by
  obtain ⟨hmonth, hmonth', hday, -⟩ := (Date.isValid_iff _).mp hdate
  dsimp only at hmonth hmonth' hday
  obtain ⟨hfrom, hto⟩ := monthIndex_within year hmonth hmonth'
  exact clampedDay?_of_within hday (hlo.trans hfrom) (hto.trans hhi)

theorem occurrence?_of_within (hs : s.Legal) (hkind : s.kind = .monthly ∨ s.kind = .annual)
    {n : Int} (hlo : Calendar.firstDay ≤ s.edge n) (hhi : s.edge (n + 2) ≤ Calendar.lastDay) :
    s.occurrence? n = some (s.nth n) := by
  have hdays := hs.daysExist
  have hmid : s.edge n ≤ s.edge (n + 1) := s.edge_strictMono.monotone (by omega)
  have hend : s.edge (n + 1) ≤ s.edge (n + 2) := s.edge_strictMono.monotone (by omega)
  have hfirst := hend.trans hhi
  have hnext : n + 1 + 1 = n + 2 := by omega
  suffices hsome : ∃ o, s.occurrence? n = some o by
    obtain ⟨o, ho⟩ := hsome
    rw [ho, occurrence?_eq_some ho]
  cases s with
  | daily start stop => rcases hkind with h | h <;> cases h
  | weekly startDay start stopDay stop => rcases hkind with h | h <;> cases h
  | monthly startDay start stopDay stop =>
    unfold occurrence?
    dsimp only
    rw [clampedDay?_of_within hdays.1 hlo hfirst]
    split
    · rw [clampedDay?_of_within hdays.2.2.1 (hlo.trans hmid) (hnext ▸ hhi)]
      exact ⟨_, rfl⟩
    · rw [clampedDay?_of_within hdays.2.2.1 hlo hfirst]
      exact ⟨_, rfl⟩
  | annual startDate start stopDate stop =>
    unfold occurrence?
    dsimp only
    rw [annualDay?_of_within hdays.1 hlo hfirst]
    split
    · rw [annualDay?_of_within hdays.2 (hlo.trans hmid) (hnext ▸ hhi)]
      exact ⟨_, rfl⟩
    · rw [annualDay?_of_within hdays.2 hlo hfirst]
      exact ⟨_, rfl⟩

theorem exists_anyHolds? {t : WallClock} {cycles : List Int}
    (h : ∀ n ∈ cycles, s.occurrence? n = some (s.nth n)) : ∃ b, s.anyHolds? t cycles = some b := by
  induction cycles with
  | nil => exact ⟨false, rfl⟩
  | cons n rest ih =>
    rw [List.forall_mem_cons] at h
    unfold anyHolds?
    rw [h.1]
    dsimp only [Option.bind_eq_bind, Option.bind_some]
    split
    · exact ⟨true, rfl⟩
    · exact ih h.2

theorem exists_contains?_of_within (hs : s.Legal) (hkind : s.kind = .monthly ∨ s.kind = .annual)
    {t : WallClock} (hlo : Calendar.firstDay ≤ s.edge (s.cycleOf t.day - 1))
    (hhi : s.edge (s.cycleOf t.day + 2) ≤ Calendar.lastDay) : ∃ b, s.contains? t = some b := by
  have hedge := s.edge_strictMono.monotone
  have hocc : ∀ n ∈ [s.cycleOf t.day - 1, s.cycleOf t.day],
      s.occurrence? n = some (s.nth n) := by
    intro n hn
    simp only [List.mem_cons, List.not_mem_nil, or_false] at hn
    exact occurrence?_of_within hs hkind (hlo.trans (hedge (by omega)))
      ((hedge (by omega)).trans hhi)
  cases s with
  | daily start stop => rcases hkind with h | h <;> cases h
  | weekly startDay start stopDay stop => rcases hkind with h | h <;> cases h
  | monthly startDay start stopDay stop => exact exists_anyHolds? hocc
  | annual startDate start stopDate stop => exact exists_anyHolds? hocc

/-! ### At the end of an occurrence -/

/-- An end lies inside an occurrence when the next occurrence starts no later. -/
theorem exists_holds_stop_iff (hs : s.Legal) (n : Int) :
    (∃ m, (s.nth m).holds (s.nth n).stop = true) ↔ (s.nth (n + 1)).start ≤ (s.nth n).stop := by
  constructor
  · intro hinside
    obtain ⟨m, hm⟩ := hinside
    obtain ⟨hstart, hstop⟩ := (holds_iff _ _).mp hm
    have hafter : n < m := (stop_lt_stop_iff hs n m).mp hstop
    -- two cycles on, an occurrence starts only after this one has ended
    have hnear : m < n + 2 := by
      have hfirst := (firstDay_bounds hs m).1
      have hlast := (lastDay_bounds hs n).2
      have htime := hs.stopTime_lt
      rw [start_le_iff] at hstart
      refine s.edge_strictMono.lt_iff_lt.mp ?_
      have hseconds : (s.nth n).stop.seconds = 86400 * s.lastDay n + s.stopTime.seconds := rfl
      omega
    have hm : m = n + 1 := by omega
    rwa [hm] at hstart
  · intro hstart
    exact ⟨n + 1, (holds_iff _ _).mpr ⟨hstart, (stop_lt_stop_iff hs n (n + 1)).mpr (by omega)⟩⟩

/-- An occurrence that ends at this reading ends inside the next one: the schedule wraps, its
start time is no later than its end time, and the month of the reading is so short that the
start day is clamped onto the end day. -/
def EndsInside : Schedule → WallClock → Prop
  | daily _ _, _ => False
  | weekly _ _ _ _, _ => False
  | monthly startDay start stopDay stop, e =>
    stopDay < startDay ∧ start ≤ stop ∧ monthLength e.date.year e.date.month ≤ stopDay
  | annual startDate start stopDate stop, e =>
    startDate = ⟨2, 29⟩ ∧ stopDate = ⟨2, 28⟩ ∧ start ≤ stop ∧ isLeap e.date.year = false

theorem onDay_le_onDay_iff {scale : Scale} {a b : Int} {x y : TimeOfDay} (hx : x.seconds < 86400)
    (hy : y.seconds < 86400) :
    (Reading.onDay a x : Reading scale) ≤ Reading.onDay b y ↔ a < b ∨ a = b ∧ x ≤ y := by
  rw [Reading.onDay_le_iff, Reading.onDay_seconds]
  show _ ↔ a < b ∨ a = b ∧ x.seconds ≤ y.seconds
  omega

theorem date_stop (hs : s.Legal) (n : Int) :
    (s.nth n).stop.date = Date.ofDayNumber (s.lastDay n) := by
  unfold Reading.date nth
  rw [Reading.day_onDay _ hs.stopTime_lt]

theorem start_le_stop_iff (hs : s.Legal) (n : Int) :
    (s.nth (n + 1)).start ≤ (s.nth n).stop ↔ s.firstDay (n + 1) < s.lastDay n ∨
      s.firstDay (n + 1) = s.lastDay n ∧ s.startTime ≤ s.stopTime :=
  onDay_le_onDay_iff hs.startTime_lt hs.stopTime_lt

theorem monthly_endsInside_iff {startDay stopDay : Nat} {start stop : TimeOfDay}
    (hs : (monthly startDay start stopDay stop).Legal) (n : Int) :
    ((monthly startDay start stopDay stop).nth (n + 1)).start ≤
        ((monthly startDay start stopDay stop).nth n).stop ↔
      (monthly startDay start stopDay stop).EndsInside
        ((monthly startDay start stopDay stop).nth n).stop := by
  obtain ⟨hlo, -, hlo', -⟩ := hs.daysExist
  unfold EndsInside
  dsimp only
  rw [start_le_stop_iff hs, date_stop hs]
  unfold firstDay lastDay startTime stopTime
  dsimp only
  by_cases hle : startDay ≤ stopDay
  · have hlt := dayIn_lt_dayIn (show n < n + 1 by omega) stopDay hlo
    rw [if_pos hle]
    omega
  · have hlt := Nat.lt_of_not_le hle
    have hlen : lengthOf (n + 1) = monthLength ((n + 1) / 12) (((n + 1) % 12).toNat + 1) := rfl
    rw [if_neg hle, Date.ofDayNumber_dayIn _ hlo']
    dsimp only
    rw [or_iff_right (dayIn_mono (n + 1) hlt.le).not_gt, dayIn_eq_dayIn_iff _ hlt, ← hlen]
    constructor
    · intro h
      exact ⟨hlt, h.2, h.1⟩
    · intro h
      exact ⟨h.2.2, h.2.1⟩

theorem annual_endsInside_iff {startDate stopDate : MonthDay} {start stop : TimeOfDay}
    (hs : (annual startDate start stopDate stop).Legal) (n : Int) :
    ((annual startDate start stopDate stop).nth (n + 1)).start ≤
        ((annual startDate start stopDate stop).nth n).stop ↔
      (annual startDate start stopDate stop).EndsInside
        ((annual startDate start stopDate stop).nth n).stop := by
  obtain ⟨hstartDate, hstopDate⟩ := hs.daysExist
  unfold EndsInside
  dsimp only
  rw [start_le_stop_iff hs, date_stop hs]
  unfold firstDay lastDay startTime stopTime
  dsimp only
  by_cases hafter : startDate.after stopDate = true
  · obtain ⟨hle, heq⟩ := dayIn_after hstartDate hstopDate hafter (n + 1)
    obtain ⟨hfrom, hto⟩ := dayIn_year hstopDate (n + 1)
    rw [if_pos hafter, or_iff_right hle.not_gt, heq, Date.year_ofDayNumber, yearOf_eq hfrom hto]
    constructor
    · intro h
      obtain ⟨⟨hstart, hstop, hcommon⟩, htime⟩ := h
      exact ⟨hstart, hstop, htime, hcommon⟩
    · intro h
      obtain ⟨hstart, hstop, htime, hcommon⟩ := h
      exact ⟨⟨hstart, hstop, hcommon⟩, htime⟩
  · have hfirst := (dayIn_year hstartDate (n + 1)).1
    have hlast := (dayIn_year hstopDate n).2
    rw [if_neg hafter]
    apply iff_of_false
    · omega
    · intro hdates
      obtain ⟨rfl, rfl, -⟩ := hdates
      exact hafter rfl

theorem start_le_stop_iff_endsInside (hs : s.Legal) (n : Int) :
    (s.nth (n + 1)).start ≤ (s.nth n).stop ↔ s.EndsInside (s.nth n).stop := by
  cases s with
  | daily start stop =>
    apply iff_of_false
    · rw [start_le_stop_iff hs]
      show ¬ (n + 1 < (if start ≤ stop then n else n + 1) ∨
        n + 1 = (if start ≤ stop then n else n + 1) ∧ start ≤ stop)
      split
      · omega
      · rename_i hle
        intro hbefore
        rcases hbefore with h | ⟨-, h⟩
        · omega
        · exact hle h
    · exact id
  | weekly startDay start stopDay stop =>
    have hlt := weekly_lastDay_lt startDay stopDay start stop n
    apply iff_of_false
    · rw [start_le_stop_iff hs]
      omega
    · exact id
  | monthly startDay start stopDay stop => exact monthly_endsInside_iff hs n
  | annual startDate start stopDate stop => exact annual_endsInside_iff hs n

end Schedule

/-- **The test is the schedule.** Where the test of a built window answers, it answers true
exactly for the readings that some occurrence of the whole calendar holds. -/
theorem Window.contains?_iff_occurs {p q : Point} {trigger : Trigger} {mode : ZoneMode}
    {w : Window} (hw : Window.ofBounds p q trigger mode = .ok w) {t : WallClock} {b : Bool}
    (h : w.schedule.contains? t = some b) :
    b = true ↔ ∃ o, w.schedule.Occurs o ∧ o.start ≤ t ∧ t < o.stop := by
  rw [Schedule.contains?_iff_exists (Window.legal_of_ofBounds hw) h]
  constructor
  · intro hheld
    obtain ⟨n, hn⟩ := hheld
    exact ⟨_, w.schedule.occurs_nth n, (Schedule.holds_iff _ _).mp hn⟩
  · intro hinside
    obtain ⟨o, ho, hheld⟩ := hinside
    obtain ⟨n, rfl⟩ := Schedule.occurs_iff.mp ho
    exact ⟨n, (Schedule.holds_iff _ _).mpr hheld⟩

/-- A leap second of the year -4, within an occurrence that the end of February has cut short. -/
theorem Window.contains?_leap_second :
    ∃ w t, Window.ofBounds ⟨none, some 22, none, some 31, none⟩ ⟨none, some 6, none, some 30, none⟩
        .all .utc = .ok w ∧ t = ⟨86400 * (Date.mk (-4) 2 29).dayNumber + 21599, 1500000000⟩ ∧
      w.schedule.contains? t = some true ∧
      ∃ o, w.schedule.Occurs o ∧ o.start ≤ t ∧ t < o.stop := by
  have hw : Window.ofBounds ⟨none, some 22, none, some 31, none⟩
      ⟨none, some 6, none, some 30, none⟩ .all .utc =
        .ok ⟨_, _, .monthly 31 ⟨79200⟩ 30 ⟨21600⟩, .all, .utc⟩ := rfl
  have ht : (Schedule.monthly 31 ⟨79200⟩ 30 ⟨21600⟩).contains?
      ⟨86400 * (Date.mk (-4) 2 29).dayNumber + 21599, 1500000000⟩ = some true := by decide
  exact ⟨_, _, hw, rfl, ht, (Window.contains?_iff_occurs hw ht).mp rfl⟩

/-- **Starts are inside; ends are outside unless they are overrun.** Where the test of a built
window answers at both ends of a non-empty occurrence, it answers true at the start, and false
at the end unless that occurrence ends inside the next one. -/
theorem Window.contains?_start_stop {p q : Point} {trigger : Trigger} {mode : ZoneMode}
    {w : Window} (hw : Window.ofBounds p q trigger mode = .ok w) {o : Occurrence}
    (ho : w.schedule.Occurs o) (hlive : o.start < o.stop) {atStart atStop : Bool}
    (hstart : w.schedule.contains? o.start = some atStart)
    (hstop : w.schedule.contains? o.stop = some atStop) :
    atStart = true ∧ (atStop = false ↔ ¬ w.schedule.EndsInside o.stop) := by
  have hs := Window.legal_of_ofBounds hw
  obtain ⟨n, rfl⟩ := Schedule.occurs_iff.mp ho
  constructor
  · rw [Schedule.contains?_iff_exists hs hstart]
    exact ⟨n, (Schedule.holds_iff _ _).mpr ⟨Reading.le_refl _, hlive⟩⟩
  · rw [← Schedule.start_le_stop_iff_endsInside hs n, ← Schedule.exists_holds_stop_iff hs n,
      ← Schedule.contains?_iff_exists hs hstop, Bool.not_eq_true]

/-- The 31st at 6:00 until the 30th at 22:00: June 30 ends one occurrence inside the next. -/
theorem Window.contains?_at_overrun_stop :
    ∃ w o, Window.ofBounds ⟨none, some 6, none, some 31, none⟩ ⟨none, some 22, none, some 30, none⟩
        .all .utc = .ok w ∧
      o = ⟨.onDay (Date.mk 2025 5 31).dayNumber ⟨21600⟩,
        .onDay (Date.mk 2025 6 30).dayNumber ⟨79200⟩⟩ ∧
      w.schedule.Occurs o ∧ o.start < o.stop ∧
      w.schedule.contains? o.start = some true ∧ w.schedule.contains? o.stop = some true ∧
      w.schedule.EndsInside o.stop := by
  have hw : Window.ofBounds ⟨none, some 6, none, some 31, none⟩
      ⟨none, some 22, none, some 30, none⟩ .all .utc =
        .ok ⟨_, _, .monthly 31 ⟨21600⟩ 30 ⟨79200⟩, .all, .utc⟩ := rfl
  have ho : (Schedule.monthly 31 ⟨21600⟩ 30 ⟨79200⟩).Occurs
      ⟨.onDay (Date.mk 2025 5 31).dayNumber ⟨21600⟩,
        .onDay (Date.mk 2025 6 30).dayNumber ⟨79200⟩⟩ := .monthly (monthIndex 2025 5)
  have hstart : (Schedule.monthly 31 ⟨21600⟩ 30 ⟨79200⟩).contains?
      (.onDay (Date.mk 2025 5 31).dayNumber ⟨21600⟩) = some true := by decide
  have hstop : (Schedule.monthly 31 ⟨21600⟩ 30 ⟨79200⟩).contains?
      (.onDay (Date.mk 2025 6 30).dayNumber ⟨79200⟩) = some true := by decide
  have hends := (Window.contains?_start_stop hw ho (by decide) hstart hstop).2
  refine ⟨_, _, hw, rfl, ho, by decide, hstart, hstop, ?_⟩
  by_contra hnot
  cases hends.mpr hnot

end Blackout
