import Blackout.Proofs.Calendar
import Blackout.Window

/-!
# The recurring schedule

`Schedule.Occurs` is the schedule as it is meant: the occurrences of a window over the whole
calendar, without bounds. They are counted by cycles, `Schedule.nth`, of which every day lies
in one. An occurrence starts in its own cycle and ends in that cycle or the next, and ends
come in the order of the cycles; these three facts carry what is proved about schedules.
-/

namespace Blackout

open Calendar

/-! ### Readings at whole seconds -/

namespace Reading

variable {scale : Scale}

theorem onDay_le_iff (day : Int) (time : TimeOfDay) (t : Reading scale) :
    onDay day time ≤ t ↔ 86400 * day + time.seconds ≤ t.seconds := by
  show (86400 * day + (time.seconds : Int) < t.seconds ∨
    86400 * day + (time.seconds : Int) = t.seconds ∧ 0 ≤ t.nanos) ↔ _
  omega

theorem lt_onDay_iff (day : Int) (time : TimeOfDay) (t : Reading scale) :
    t < onDay day time ↔ t.seconds < 86400 * day + time.seconds := by
  show (t.seconds < 86400 * day + (time.seconds : Int) ∨
    t.seconds = 86400 * day + (time.seconds : Int) ∧ t.nanos < 0) ↔ _
  omega

theorem onDay_seconds (day : Int) (time : TimeOfDay) :
    (onDay day time : Reading scale).seconds = 86400 * day + time.seconds := rfl

theorem not_lt {a b : Reading scale} : ¬ a < b ↔ b ≤ a := by
  show ¬ (a.seconds < b.seconds ∨ a.seconds = b.seconds ∧ a.nanos < b.nanos) ↔
    (b.seconds < a.seconds ∨ b.seconds = a.seconds ∧ b.nanos ≤ a.nanos)
  omega

theorem le_refl (t : Reading scale) : t ≤ t := Or.inr ⟨rfl, Nat.le_refl t.nanos⟩

theorem day_spec (t : Reading scale) :
    86400 * t.day ≤ t.seconds ∧ t.seconds < 86400 * (t.day + 1) := by
  unfold day daySeconds
  omega

theorem secondOfDay_eq (t : Reading scale) :
    (t.secondOfDay : Int) = t.seconds - 86400 * t.day := by
  unfold secondOfDay day daySeconds
  omega

theorem day_onDay (d : Int) {time : TimeOfDay} (h : time.seconds < 86400) :
    (onDay d time : Reading scale).day = d := by
  unfold day onDay daySeconds
  dsimp only
  omega

theorem onDay_plusDays (d k : Int) (time : TimeOfDay) :
    (onDay d time : Reading scale).plusDays k = onDay (d + k) time := by
  unfold plusDays onDay daySeconds
  congr 1
  dsimp only
  omega

theorem withinCalendar?_eq_some {r result : Reading scale} (h : r.withinCalendar? = some result) :
    result = r := by
  unfold Reading.withinCalendar? at h
  obtain ⟨_, -, h⟩ := Option.map_eq_some_iff.mp h
  exact h.symm

end Reading

/-! ### Occurrences of the whole calendar -/

/-- Occurrences of a schedule over the whole calendar: one per day, one per day that falls on
the start weekday, one per month or one per year. One whose start comes after its end within
its cycle ends in the next day, week, month or year. -/
inductive Schedule.Occurs : Schedule → Occurrence → Prop where
  | daily {start stop : TimeOfDay} (day : Int) :
      Occurs (.daily start stop)
        ⟨.onDay day start, .onDay (if start ≤ stop then day else day + 1) stop⟩
  | weekly {startDay stopDay : Weekday} {start stop : TimeOfDay} (day : Int)
      (hday : Weekday.ofDayNumber day = startDay) :
      Occurs (.weekly startDay start stopDay stop)
        ⟨.onDay day start,
          .onDay (if startDay = stopDay then if start ≤ stop then day else day + 1
            else day + ((stopDay.number : Int) - startDay.number) % 7) stop⟩
  | monthly {startDay stopDay : Nat} {start stop : TimeOfDay} (month : Int) :
      Occurs (.monthly startDay start stopDay stop)
        ⟨.onDay (dayIn month startDay) start,
          .onDay (dayIn (if startDay ≤ stopDay then month else month + 1) stopDay) stop⟩
  | annual {startDate stopDate : MonthDay} {start stop : TimeOfDay} (year : Int) :
      Occurs (.annual startDate start stopDate stop)
        ⟨.onDay (dayIn (monthIndex year startDate.month) startDate.day) start,
          .onDay (dayIn (monthIndex (if startDate.after stopDate then year + 1 else year)
            stopDate.month) stopDate.day) stop⟩

/-! ### Schedules of checked bounds -/

def MonthDay.Exists (date : MonthDay) : Prop :=
  (Date.mk leapReferenceYear date.month date.day).isValid = true

theorem MonthDay.eq_of_not_after {a b : MonthDay} (hab : ¬ a.after b = true)
    (hba : ¬ b.after a = true) : a = b := by
  obtain ⟨month, day⟩ := a
  obtain ⟨month', day'⟩ := b
  unfold after at hab hba
  rw [decide_eq_true_iff] at hab hba
  dsimp only at hab hba
  have hmonth : month = month' := by omega
  have hday : day = day' := by omega
  rw [hmonth, hday]

namespace Schedule

def startTime : Schedule → TimeOfDay
  | daily start _ => start
  | weekly _ start _ _ => start
  | monthly _ start _ _ => start
  | annual _ start _ _ => start

def stopTime : Schedule → TimeOfDay
  | daily _ stop => stop
  | weekly _ _ _ stop => stop
  | monthly _ _ _ stop => stop
  | annual _ _ _ stop => stop

/-- The days that a schedule names exist in the longest months, or in leap years. -/
def DaysExist : Schedule → Prop
  | daily _ _ => True
  | weekly _ _ _ _ => True
  | monthly startDay _ stopDay _ => 1 ≤ startDay ∧ startDay ≤ 31 ∧ 1 ≤ stopDay ∧ stopDay ≤ 31
  | annual startDate _ stopDate _ => startDate.Exists ∧ stopDate.Exists

/-- What checked bounds guarantee of their schedule. -/
structure Legal (s : Schedule) : Prop where
  startTime_lt : s.startTime.seconds < 86400
  stopTime_lt : s.stopTime.seconds < 86400
  daysExist : s.DaysExist

/-! ### Cycles -/

/-- First day of a cycle: a day, a week from the start weekday on, a month or a year. -/
def edge : Schedule → Int → Int
  | daily _ _, n => n
  | weekly startDay _ _ _, n => 7 * n + startDay.number - 3
  | monthly _ _ _ _, n => monthStart n
  | annual _ _ _ _, n => yearStart n

/-- Cycle that holds a day. -/
def cycleOf : Schedule → Int → Int
  | daily _ _, day => day
  | weekly startDay _ _ _, day => (day + 3 - startDay.number) / 7
  | monthly _ _ _ _, day => (Date.ofDayNumber day).monthIndex
  | annual _ _ _ _, day => (Date.ofDayNumber day).year

def firstDay : Schedule → Int → Int
  | daily _ _, n => n
  | weekly startDay _ _ _, n => 7 * n + startDay.number - 3
  | monthly startDay _ _ _, n => dayIn n startDay
  | annual startDate _ _ _, n => dayIn (monthIndex n startDate.month) startDate.day

def lastDay : Schedule → Int → Int
  | daily start stop, n => if start ≤ stop then n else n + 1
  | weekly startDay start stopDay stop, n =>
    7 * n + startDay.number - 3 + weeklyLength startDay start stopDay stop
  | monthly startDay _ stopDay _, n => dayIn (if startDay ≤ stopDay then n else n + 1) stopDay
  | annual startDate _ stopDate _, n =>
    dayIn (monthIndex (if startDate.after stopDate then n + 1 else n) stopDate.month) stopDate.day

def nth (s : Schedule) (n : Int) : Occurrence :=
  ⟨.onDay (s.firstDay n) s.startTime, .onDay (s.lastDay n) s.stopTime⟩

end Schedule

/-! ### Weekdays -/

namespace Weekday

theorem number_lt (w : Weekday) : w.number < 7 := by
  cases w <;> decide

theorem number_injective {a b : Weekday} (h : a.number = b.number) : a = b := by
  cases a <;> cases b <;> first | rfl | cases h

theorem number_ofNumber (n : Nat) : (ofNumber n).number = n % 7 := by
  have hn : n % 7 < 7 := Nat.mod_lt n (by decide)
  unfold ofNumber
  interval_cases n % 7 <;> rfl

theorem number_ofDayNumber (day : Int) : ((ofDayNumber day).number : Int) = (day + 3) % 7 := by
  unfold ofDayNumber
  rw [number_ofNumber]
  omega

theorem ofDayNumber_eq_iff (day : Int) (w : Weekday) :
    ofDayNumber day = w ↔ (day + 3) % 7 = w.number := by
  rw [← number_ofDayNumber]
  constructor
  · intro h
    rw [h]
  · intro h
    exact number_injective (by omega)

end Weekday

namespace Schedule

/-! ### Occurrences by cycle -/

theorem weeklyLength_eq (startDay stopDay : Weekday) (start stop : TimeOfDay) (day : Int) :
    day + weeklyLength startDay start stopDay stop =
      if startDay = stopDay then if start ≤ stop then day else day + 1
      else day + ((stopDay.number : Int) - startDay.number) % 7 := by
  unfold weeklyLength
  split
  · split <;> omega
  · rfl

theorem weeklyLength_bounds (startDay stopDay : Weekday) (start stop : TimeOfDay) :
    0 ≤ weeklyLength startDay start stopDay stop ∧
      weeklyLength startDay start stopDay stop < 7 := by
  unfold weeklyLength
  split
  · split <;> decide
  · omega

theorem occurs_nth (s : Schedule) (n : Int) : s.Occurs (s.nth n) := by
  cases s with
  | daily start stop => exact .daily n
  | weekly startDay start stopDay stop =>
    have hday : Weekday.ofDayNumber (7 * n + startDay.number - 3) = startDay := by
      have hlt := startDay.number_lt
      rw [Weekday.ofDayNumber_eq_iff]
      omega
    have h : Occurs (weekly startDay start stopDay stop) _ := .weekly _ hday
    rwa [← weeklyLength_eq] at h
  | monthly startDay start stopDay stop => exact .monthly n
  | annual startDate start stopDate stop => exact .annual n

/-- Every occurrence starts in exactly one cycle. -/
theorem occurs_iff {s : Schedule} {o : Occurrence} : s.Occurs o ↔ ∃ n, o = s.nth n := by
  constructor
  · intro h
    cases h with
    | daily day => exact ⟨day, rfl⟩
    | @weekly startDay stopDay start stop day hday =>
      rw [Weekday.ofDayNumber_eq_iff] at hday
      have hlt := startDay.number_lt
      have hn : 7 * ((day + 3 - startDay.number) / 7) + startDay.number - 3 = day := by omega
      refine ⟨(day + 3 - startDay.number) / 7, ?_⟩
      unfold nth firstDay lastDay
      dsimp only
      rw [hn, weeklyLength_eq]
      rfl
    | monthly month => exact ⟨month, rfl⟩
    | annual year => exact ⟨year, rfl⟩
  · intro hcycle
    obtain ⟨n, rfl⟩ := hcycle
    exact s.occurs_nth n

/-! ### Cycles in order -/

theorem edge_strictMono (s : Schedule) : StrictMono s.edge := by
  cases s with
  | daily start stop => exact strictMono_id
  | weekly startDay start stopDay stop =>
    intro a b hab
    show 7 * a + (startDay.number : Int) - 3 < 7 * b + startDay.number - 3
    omega
  | monthly startDay start stopDay stop => exact monthStart_strictMono
  | annual startDate start stopDate stop => exact yearStart_strictMono

theorem edge_cycleOf (s : Schedule) (day : Int) :
    s.edge (s.cycleOf day) ≤ day ∧ day < s.edge (s.cycleOf day + 1) := by
  cases s with
  | daily start stop =>
    show day ≤ day ∧ day < day + 1
    omega
  | weekly startDay start stopDay stop =>
    show 7 * ((day + 3 - startDay.number) / 7) + (startDay.number : Int) - 3 ≤ day ∧
      day < 7 * ((day + 3 - startDay.number) / 7 + 1) + (startDay.number : Int) - 3
    omega
  | monthly startDay start stopDay stop => exact Date.monthIndex_ofDayNumber day
  | annual startDate start stopDate stop => exact yearOf_spec day

theorem dayIn_year {date : MonthDay} (h : date.Exists) (year : Int) :
    yearStart year ≤ dayIn (monthIndex year date.month) date.day ∧
      dayIn (monthIndex year date.month) date.day < yearStart (year + 1) := by
  obtain ⟨hlo, hhi, hday, -⟩ := (Date.isValid_iff _).mp h
  dsimp only at hlo hhi hday
  obtain ⟨hfrom, hto⟩ := monthIndex_within year hlo hhi
  exact ⟨hfrom.trans (monthStart_le_dayIn _ hday), (dayIn_lt_monthStart _ _).trans_le hto⟩

/-- Only February 29 is missing from a common year. -/
theorem leap_day_of_monthLength_lt {year : Int} {month day : Nat}
    (hmissing : monthLength year month < day)
    (hexists : day ≤ monthLength leapReferenceYear month) :
    month = 2 ∧ day = 29 ∧ isLeap year = false := by
  have hreference : isLeap leapReferenceYear = true := by decide
  unfold monthLength at hmissing hexists
  split at hmissing
  · rw [hreference] at hexists
    cases hleap : isLeap year with
    | true =>
      rw [hleap] at hmissing
      simp only [ite_true] at hmissing hexists
      omega
    | false =>
      rw [hleap] at hmissing
      simp only [Bool.false_eq_true, ite_false, ite_true] at hmissing hexists
      exact ⟨rfl, by omega, rfl⟩
  all_goals
    simp only at hexists
    omega

/-- Of two dates of a year the later one never falls on an earlier day. They fall on one day
only if they are February 29 and 28 of a common year. -/
theorem dayIn_after {a b : MonthDay} (ha : a.Exists) (hb : b.Exists) (hafter : a.after b = true)
    (year : Int) :
    dayIn (monthIndex year b.month) b.day ≤ dayIn (monthIndex year a.month) a.day ∧
      (dayIn (monthIndex year a.month) a.day = dayIn (monthIndex year b.month) b.day ↔
        a = ⟨2, 29⟩ ∧ b = ⟨2, 28⟩ ∧ isLeap year = false) := by
  obtain ⟨month, day⟩ := a
  obtain ⟨month', day'⟩ := b
  obtain ⟨hlo, hhi, hday, hmax⟩ := (Date.isValid_iff _).mp ha
  obtain ⟨-, -, hday', -⟩ := (Date.isValid_iff _).mp hb
  dsimp only at hlo hhi hday hmax hday' ⊢
  unfold MonthDay.after at hafter
  rcases decide_eq_true_iff.mp hafter with hmonth | ⟨hmonth, hlt⟩
  · -- dates of different months stay in their months
    have hindex : monthIndex year month' < monthIndex year month := by
      unfold monthIndex
      dsimp only at hmonth
      omega
    have hdays := dayIn_lt_dayIn hindex day' hday
    refine ⟨hdays.le, iff_of_false hdays.ne' ?_⟩
    intro hdates
    obtain ⟨ha, hb, -⟩ := hdates
    cases ha
    cases hb
    exact Nat.lt_irrefl 2 hmonth
  · dsimp only at hmonth hlt
    subst hmonth
    refine ⟨dayIn_mono _ hlt.le, ?_⟩
    rw [dayIn_eq_dayIn_iff _ hlt, lengthOf_monthIndex year hlo hhi]
    constructor
    · intro hshort
      obtain ⟨rfl, rfl, hcommon⟩ := leap_day_of_monthLength_lt (hshort.trans_lt hlt) hmax
      have hfebruary := monthLength_pos year 2
      exact ⟨rfl, by rw [show day' = 28 by omega], hcommon⟩
    · intro hdates
      obtain ⟨ha, hb, hcommon⟩ := hdates
      cases ha
      cases hb
      unfold monthLength
      rw [hcommon]
      exact le_rfl

theorem firstDay_bounds {s : Schedule} (hs : s.Legal) (n : Int) :
    s.edge n ≤ s.firstDay n ∧ s.firstDay n < s.edge (n + 1) := by
  have hdays := hs.daysExist
  cases s with
  | daily start stop =>
    show n ≤ n ∧ n < n + 1
    omega
  | weekly startDay start stopDay stop =>
    show 7 * n + (startDay.number : Int) - 3 ≤ 7 * n + startDay.number - 3 ∧
      7 * n + (startDay.number : Int) - 3 < 7 * (n + 1) + startDay.number - 3
    omega
  | monthly startDay start stopDay stop =>
    exact ⟨monthStart_le_dayIn n hdays.1, dayIn_lt_monthStart n startDay⟩
  | annual startDate start stopDate stop => exact dayIn_year hdays.1 n

theorem lastDay_bounds {s : Schedule} (hs : s.Legal) (n : Int) :
    s.edge n ≤ s.lastDay n ∧ s.lastDay n < s.edge (n + 2) := by
  have hdays := hs.daysExist
  have hone : n < n + 1 := by omega
  have htwo : n + 1 < n + 2 := by omega
  have hedge := s.edge_strictMono
  cases s with
  | daily start stop =>
    show n ≤ (if start ≤ stop then n else n + 1) ∧ (if start ≤ stop then n else n + 1) < n + 2
    split <;> omega
  | weekly startDay start stopDay stop =>
    have hlen := weeklyLength_bounds startDay stopDay start stop
    show 7 * n + (startDay.number : Int) - 3 ≤
        7 * n + startDay.number - 3 + weeklyLength startDay start stopDay stop ∧
      7 * n + (startDay.number : Int) - 3 + weeklyLength startDay start stopDay stop <
        7 * (n + 2) + startDay.number - 3
    omega
  | monthly startDay start stopDay stop =>
    show monthStart n ≤ dayIn (if startDay ≤ stopDay then n else n + 1) stopDay ∧
      dayIn (if startDay ≤ stopDay then n else n + 1) stopDay < monthStart (n + 2)
    split
    · exact ⟨monthStart_le_dayIn n hdays.2.2.1,
        (dayIn_lt_monthStart n stopDay).trans (hedge htwo)⟩
    · have hnext := dayIn_lt_monthStart (n + 1) stopDay
      rw [show n + 1 + 1 = n + 2 by omega] at hnext
      exact ⟨(hedge hone).le.trans (monthStart_le_dayIn (n + 1) hdays.2.2.1), hnext⟩
  | annual startDate start stopDate stop =>
    unfold lastDay
    dsimp only
    split
    · obtain ⟨hfrom, hto⟩ := dayIn_year hdays.2 (n + 1)
      rw [show n + 1 + 1 = n + 2 by omega] at hto
      exact ⟨(hedge hone).le.trans hfrom, hto⟩
    · obtain ⟨hfrom, hto⟩ := dayIn_year hdays.2 n
      exact ⟨hfrom, hto.trans (hedge htwo)⟩

theorem lastDay_strictMono {s : Schedule} (hs : s.Legal) : StrictMono s.lastDay := by
  apply strictMono_int_of_lt_succ
  intro n
  have hdays := hs.daysExist
  cases s with
  | daily start stop =>
    show (if start ≤ stop then n else n + 1) < (if start ≤ stop then n + 1 else n + 1 + 1)
    split <;> omega
  | weekly startDay start stopDay stop =>
    show 7 * n + (startDay.number : Int) - 3 + weeklyLength startDay start stopDay stop <
      7 * (n + 1) + startDay.number - 3 + weeklyLength startDay start stopDay stop
    omega
  | monthly startDay start stopDay stop =>
    unfold lastDay
    dsimp only
    split <;> exact dayIn_lt_dayIn (by omega) _ hdays.2.2.1
  | annual startDate start stopDate stop =>
    unfold lastDay
    dsimp only
    split
    · exact (dayIn_year hdays.2 (n + 1)).2.trans_le (dayIn_year hdays.2 (n + 1 + 1)).1
    · exact (dayIn_year hdays.2 n).2.trans_le (dayIn_year hdays.2 (n + 1)).1

theorem firstDay_strictMono {s : Schedule} (hs : s.Legal) : StrictMono s.firstDay := by
  apply strictMono_int_of_lt_succ
  intro n
  exact (firstDay_bounds hs n).2.trans_le (firstDay_bounds hs (n + 1)).1

/-! ### Occurrences near a reading -/

theorem start_le_iff (s : Schedule) (n : Int) (t : WallClock) :
    (s.nth n).start ≤ t ↔ 86400 * s.firstDay n + s.startTime.seconds ≤ t.seconds :=
  Reading.onDay_le_iff _ _ _

theorem lt_stop_iff (s : Schedule) (n : Int) (t : WallClock) :
    t < (s.nth n).stop ↔ t.seconds < 86400 * s.lastDay n + s.stopTime.seconds :=
  Reading.lt_onDay_iff _ _ _

theorem stop_lt_stop_iff {s : Schedule} (hs : s.Legal) (m n : Int) :
    (s.nth m).stop < (s.nth n).stop ↔ m < n := by
  have hdays : s.lastDay m < s.lastDay n ↔ m < n := (lastDay_strictMono hs).lt_iff_lt
  rw [lt_stop_iff, ← hdays]
  show 86400 * s.lastDay m + (s.stopTime.seconds : Int) <
    86400 * s.lastDay n + s.stopTime.seconds ↔ _
  omega

theorem start_lt_start_iff {s : Schedule} (hs : s.Legal) (m n : Int) :
    (s.nth m).start < (s.nth n).start ↔ m < n := by
  have hdays : s.firstDay m < s.firstDay n ↔ m < n := (firstDay_strictMono hs).lt_iff_lt
  rw [← hdays]
  refine (Reading.lt_onDay_iff _ _ _).trans ?_
  show 86400 * s.firstDay m + (s.startTime.seconds : Int) <
    86400 * s.firstDay n + s.startTime.seconds ↔ _
  omega

theorem weekly_lastDay_lt (startDay stopDay : Weekday) (start stop : TimeOfDay) (n : Int) :
    (weekly startDay start stopDay stop).lastDay n <
      (weekly startDay start stopDay stop).firstDay (n + 1) := by
  have hlen := weeklyLength_bounds startDay stopDay start stop
  show 7 * n + (startDay.number : Int) - 3 + weeklyLength startDay start stopDay stop <
    7 * (n + 1) + startDay.number - 3
  omega

theorem lt_start_of_lt {s : Schedule} (hs : s.Legal) {n : Int} {t : WallClock}
    (hn : s.cycleOf t.day < n) : ¬ (s.nth n).start ≤ t := by
  have hfirst := (firstDay_bounds hs n).1
  have hday := (s.edge_cycleOf t.day).2
  have hedge : s.edge (s.cycleOf t.day + 1) ≤ s.edge n := s.edge_strictMono.monotone hn
  have ht := t.day_spec
  rw [start_le_iff]
  omega

theorem lt_stop_of_lt {s : Schedule} (hs : s.Legal) {n : Int} {t : WallClock}
    (hn : s.cycleOf t.day < n) : t < (s.nth n).stop := by
  have hlast := (lastDay_bounds hs n).1
  have hday := (s.edge_cycleOf t.day).2
  have hedge : s.edge (s.cycleOf t.day + 1) ≤ s.edge n := s.edge_strictMono.monotone hn
  have ht := t.day_spec
  rw [lt_stop_iff]
  omega

theorem stop_le_of_lt {s : Schedule} (hs : s.Legal) {n : Int} {t : WallClock}
    (hn : n + 1 < s.cycleOf t.day) : ¬ t < (s.nth n).stop := by
  have hlast := (lastDay_bounds hs n).2
  have hday := (s.edge_cycleOf t.day).1
  have hedge : s.edge (n + 2) ≤ s.edge (s.cycleOf t.day) := s.edge_strictMono.monotone (by omega)
  have ht := t.day_spec
  have htime := hs.stopTime_lt
  rw [lt_stop_iff]
  omega

theorem holds_iff (o : Occurrence) (t : WallClock) : o.holds t = true ↔ o.start ≤ t ∧ t < o.stop :=
  decide_eq_true_iff

/-- Only the occurrences of a reading's cycle and of the one before it can hold the reading. -/
theorem cycle_of_holds {s : Schedule} (hs : s.Legal) {n : Int} {t : WallClock}
    (h : (s.nth n).holds t = true) : n = s.cycleOf t.day - 1 ∨ n = s.cycleOf t.day := by
  obtain ⟨hstart, hstop⟩ := (holds_iff _ _).mp h
  have hle : ¬ s.cycleOf t.day < n := fun hlt => lt_start_of_lt hs hlt hstart
  have hge : ¬ n + 1 < s.cycleOf t.day := fun hlt => stop_le_of_lt hs hlt hstop
  omega

end Schedule

end Blackout
