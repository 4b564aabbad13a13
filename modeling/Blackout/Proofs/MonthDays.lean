import Blackout.Proofs.Interior

/-!
# Days of a month

Months are counted from January of year 0, below it through negative numbers, and the last day of a
month is found from the first day of the month that follows. Between the first and the last year of
the calendar every month has one: a day of month falls on the day that it names or on the last one,
and days of earlier months come before those of later months.
-/

namespace Blackout

open Calendar

namespace Calendar

/-! ### Months inside the calendar -/

/-- A month of the years -262142 to 262141 lies inside the calendar, with the first day of the month
that follows. -/
theorem month_inside {index : Int} (hlo : 12 * -262142 ≤ index) (hhi : index < 12 * 262142) :
    firstDay ≤ monthStart index ∧ monthStart (index + 1) ≤ lastDay := by
  have hfrom : monthStart (12 * -262143) ≤ monthStart index :=
    monthStart_strictMono.monotone (by omega)
  have hto : monthStart (index + 1) ≤ monthStart (12 * 262142) :=
    monthStart_strictMono.monotone (by omega)
  have hlast : yearStart 262142 < yearStart 262143 := yearStart_strictMono (by decide)
  rw [monthStart_january] at hfrom hto
  unfold firstDay lastDay
  omega

theorem clampedDay?_inside {index : Int} {day : Nat} (hlo : 12 * -262142 ≤ index)
    (hhi : index < 12 * 262142) (hday : 1 ≤ day) :
    clampedDay? index day = some (dayIn index day) := by
  obtain ⟨hfrom, hto⟩ := month_inside hlo hhi
  exact clampedDay?_of_within hday hfrom hto

/-! ### Dates of a month -/

section Month

variable {year : Int} {month day : Nat}

theorem monthIndex_succ (year : Int) (month : Nat) :
    monthIndex year (month + 1) = 12 * year + month := by
  unfold monthIndex
  omega

theorem ofDayNumber_dayIn_monthIndex (hlo : 1 ≤ month) (hhi : month ≤ 12) (hday : 1 ≤ day) :
    Date.ofDayNumber (dayIn (monthIndex year month) day) =
      ⟨year, month, min day (monthLength year month)⟩ := by
  rw [Date.ofDayNumber_dayIn _ hday, monthIndex_div year hlo hhi, monthIndex_mod year hlo hhi,
    lengthOf_monthIndex year hlo hhi]

theorem ofDayNumber_monthStart (hlo : 1 ≤ month) (hhi : month ≤ 12) :
    Date.ofDayNumber (monthStart (monthIndex year month)) = ⟨year, month, 1⟩ := by
  have hlen := monthLength_pos year month
  have hfirst : monthStart (monthIndex year month) = dayIn (monthIndex year month) 1 := by
    rw [dayIn_eq, lengthOf_monthIndex year hlo hhi]
    omega
  rw [hfirst, ofDayNumber_dayIn_monthIndex hlo hhi le_rfl, Nat.min_eq_left (by omega)]

theorem ofDayNumber_monthEnd (hlo : 1 ≤ month) (hhi : month ≤ 12) :
    Date.ofDayNumber (dayIn (monthIndex year month) (lengthOf (monthIndex year month))) =
      ⟨year, month, monthLength year month⟩ := by
  have hlen := monthLength_pos year month
  rw [lengthOf_monthIndex year hlo hhi, ofDayNumber_dayIn_monthIndex hlo hhi (by omega),
    Nat.min_self]

/-- **Days of a month exist, and their order is the order of the months.** In the years -262142 to
262141 the month counted `12 * year + month` is month `month + 1` of that year: it starts on its
first day and ends on its Gregorian last day. Every day of month falls on itself or, in a shorter
month, on the last day. A later day of month never falls earlier, and every day of a later month
comes after all of them. The counts of months fit in a word. -/
theorem clampedDay?_in_order (hlo : -262142 ≤ year) (hhi : year ≤ 262141) (hmonth : month < 12)
    (hday : 1 ≤ day) :
    FitsWord (12 * year) ∧ FitsWord (12 * year + month + 1) ∧
    Date.ofDayNumber (monthStart (12 * year + month)) = ⟨year, month + 1, 1⟩ ∧
    (∃ last, monthEnd? (12 * year + month) = some last ∧
      Date.ofDayNumber last = ⟨year, month + 1, monthLength year (month + 1)⟩) ∧
    ∃ found, clampedDay? (12 * year + month) day = some found ∧
      Date.ofDayNumber found = ⟨year, month + 1, min day (monthLength year (month + 1))⟩ ∧
      (∀ day', day ≤ day' →
        ∃ other, clampedDay? (12 * year + month) day' = some other ∧ found ≤ other) ∧
      ∀ index, 12 * year + month < index → index < 12 * 262142 → ∀ day', 1 ≤ day' →
        ∃ later, clampedDay? index day' = some later ∧ found < later := by
  have hfits : FitsWord (12 * year) ∧ FitsWord (12 * year + month + 1) := by
    unfold FitsWord
    omega
  have hfrom : 12 * -262142 ≤ 12 * year + (month : Int) := by omega
  have hto : 12 * year + (month : Int) < 12 * 262142 := by omega
  have hone : 1 ≤ month + 1 := by omega
  have htwelve : month + 1 ≤ 12 := hmonth
  obtain ⟨hstart, hend⟩ := month_inside hfrom hto
  refine ⟨hfits.1, hfits.2, ?_, ⟨_, monthEnd?_of_within hstart hend, ?_⟩,
    _, clampedDay?_inside hfrom hto hday, ?_, ?_, ?_⟩
  · rw [← monthIndex_succ, ofDayNumber_monthStart hone htwelve]
  · rw [← monthIndex_succ, ofDayNumber_monthEnd hone htwelve]
  · rw [← monthIndex_succ, ofDayNumber_dayIn_monthIndex hone htwelve hday]
  · intro day' hle
    exact ⟨_, clampedDay?_inside hfrom hto (hday.trans hle), dayIn_mono _ hle⟩
  · intro index hlater hindex day' hday'
    exact ⟨_, clampedDay?_inside (hfrom.trans hlater.le) hindex hday',
      dayIn_lt_dayIn hlater day hday'⟩

end Month

/-- The 30th of February of the year -4 falls on February 29, as the 31st does, a day before the
first of March. -/
theorem clampedDay?_in_order_leap_february :
    ∃ found later, found = (Date.mk (-4) 2 29).dayNumber ∧ later = (Date.mk (-4) 3 1).dayNumber ∧
      FitsWord (12 * -4) ∧ FitsWord (12 * -4 + 1 + 1) ∧
      Date.ofDayNumber (monthStart (12 * -4 + 1)) = ⟨-4, 2, 1⟩ ∧
      monthEnd? (12 * -4 + 1) = some found ∧ Date.ofDayNumber found = ⟨-4, 2, 29⟩ ∧
      clampedDay? (12 * -4 + 1) 30 = some found ∧ clampedDay? (12 * -4 + 1) 31 = some found ∧
      clampedDay? (12 * -4 + 2) 1 = some later ∧ found < later := by
  obtain ⟨hyear, hnext, hstart, ⟨last, hend, -⟩, found, hfound, hdate, hwithin, hlater⟩ :=
    clampedDay?_in_order (show (-262142 : Int) ≤ -4 by decide) (by decide)
      (show 1 < 12 by decide) (show 1 ≤ 30 by decide)
  obtain ⟨other, hother, -⟩ := hwithin 31 (by decide)
  obtain ⟨later, hmarch, hlt⟩ := hlater (12 * -4 + 2) (by decide) (by decide) 1 le_rfl
  have hlast : last = (Date.mk (-4) 2 29).dayNumber := Option.some.inj (hend.symm.trans (by decide))
  have hclamped : found = (Date.mk (-4) 2 29).dayNumber :=
    Option.some.inj (hfound.symm.trans (by decide))
  have hsame : other = found := by
    rw [hclamped]
    exact Option.some.inj (hother.symm.trans (by decide))
  have hfirst : later = (Date.mk (-4) 3 1).dayNumber :=
    Option.some.inj (hmarch.symm.trans (by decide))
  rw [hlast, ← hclamped] at hend
  rw [hsame] at hother
  exact ⟨found, later, hclamped, hfirst, hyear, hnext, hstart, hend, hdate, hfound, hother, hmarch,
    hlt⟩

end Calendar

end Blackout
