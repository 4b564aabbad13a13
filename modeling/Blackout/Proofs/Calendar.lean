import Mathlib
import Blackout.Calendar.Moment

/-!
# The calendar as arithmetic

Year and month starts are apart by the Gregorian lengths, so that every day lies in exactly
one year and one month. Dates and day numbers determine each other, and a day of month that
is clamped to the month's last day stays within its month and keeps the order of the days.
-/

namespace Blackout

namespace Calendar

/-! ### Years -/

theorem isLeap_iff (year : Int) :
    isLeap year = true ↔ year % 4 = 0 ∧ (year % 100 ≠ 0 ∨ year % 400 = 0) := by
  simp [isLeap]

def yearLength (year : Int) : Nat := if isLeap year then 366 else 365

theorem yearStart_succ (year : Int) : yearStart (year + 1) = yearStart year + yearLength year := by
  have hleap := isLeap_iff year
  unfold yearStart yearLength
  split
  · rename_i h
    have hy := hleap.mp h
    omega
  · rename_i h
    have hy := mt hleap.mpr h
    omega

theorem yearStart_strictMono : StrictMono yearStart := by
  apply strictMono_int_of_lt_succ
  intro year
  rw [yearStart_succ]
  unfold yearLength
  split <;> omega

/-- The year of a day starts no later than the day, and the next year starts after it. -/
theorem yearOf_spec (day : Int) :
    yearStart (yearOf day) ≤ day ∧ day < yearStart (yearOf day + 1) := by
  -- the guess from the average length of a year is off by at most one year
  have hbelow : yearStart (400 * (day + 719528) / 146097 - 1) ≤ day := by
    unfold yearStart
    omega
  have habove : day < yearStart (400 * (day + 719528) / 146097 + 1 + 1) := by
    unfold yearStart
    omega
  unfold yearOf
  dsimp only
  split
  · rename_i h
    exact ⟨hbelow, by rwa [Int.sub_add_cancel]⟩
  · split
    · rename_i h
      exact ⟨h, habove⟩
    · omega

theorem yearOf_eq {year day : Int} (hfrom : yearStart year ≤ day)
    (hto : day < yearStart (year + 1)) : yearOf day = year := by
  have h := yearOf_spec day
  have h1 := yearStart_strictMono.lt_iff_lt.mp (hfrom.trans_lt h.2)
  have h2 := yearStart_strictMono.lt_iff_lt.mp (h.1.trans_lt hto)
  omega

/-- Days of the years from `first` to `last`. -/
theorem within_years {first last day : Int} (hlo : first ≤ yearOf day) (hhi : yearOf day ≤ last) :
    yearStart first ≤ day ∧ day < yearStart (last + 1) := by
  obtain ⟨hfrom, hto⟩ := yearOf_spec day
  have hstart : yearStart first ≤ yearStart (yearOf day) := yearStart_strictMono.monotone hlo
  have hend : yearStart (yearOf day + 1) ≤ yearStart (last + 1) :=
    yearStart_strictMono.monotone (by omega)
  exact ⟨hstart.trans hfrom, hto.trans_le hend⟩

/-! ### Months of a year -/

theorem monthLength_pos (year : Int) (month : Nat) : 28 ≤ monthLength year month := by
  unfold monthLength
  split
  · split <;> omega
  all_goals omega

theorem monthLength_le (year : Int) (month : Nat) : monthLength year month ≤ 31 := by
  unfold monthLength
  split
  · split <;> omega
  all_goals omega

theorem daysBefore_one (year : Int) : daysBefore year 1 = 0 := by
  simp [daysBefore, commonDaysBefore]

theorem daysBefore_succ (year : Int) (month : Nat) (hlo : 1 ≤ month) (hhi : month ≤ 11) :
    daysBefore year (month + 1) = daysBefore year month + monthLength year month := by
  unfold daysBefore monthLength
  cases hl : isLeap year <;> interval_cases month <;> simp [commonDaysBefore]

theorem daysBefore_december (year : Int) :
    daysBefore year 12 + monthLength year 12 = yearLength year := by
  unfold daysBefore monthLength yearLength
  cases hl : isLeap year <;> simp [commonDaysBefore]

theorem daysBefore_lt (year : Int) {a b : Nat} (ha : 1 ≤ a) (hab : a < b) (hb : b ≤ 12) :
    daysBefore year a + monthLength year a ≤ daysBefore year b := by
  induction b, hab using Nat.le_induction with
  | base => rw [daysBefore_succ year a ha (by omega)]
  | succ b hab ih =>
    have hstep := daysBefore_succ year b (by omega) (by omega)
    have hprev := ih (by omega)
    omega

theorem daysBefore_add_le (year : Int) {month : Nat} (hlo : 1 ≤ month) (hhi : month ≤ 12) :
    daysBefore year month + monthLength year month ≤ yearLength year := by
  have hdecember := daysBefore_december year
  rcases Nat.lt_or_ge month 12 with h | h
  · have hbefore := daysBefore_lt year hlo h le_rfl
    omega
  · have htwelve : month = 12 := by omega
    rw [htwelve, hdecember]

/-- A threshold counts the numbers of a range up to it. -/
theorem countP_threshold (start length bound : Nat) (hlo : start ≤ bound + 1)
    (hhi : bound < start + length) (p : Nat → Bool)
    (hp : ∀ n, start ≤ n → n < start + length → (p n = true ↔ n ≤ bound)) :
    (List.range' start length).countP p = bound + 1 - start := by
  induction length generalizing start with
  | zero =>
    simp only [List.range'_zero, List.countP_nil]
    omega
  | succ length ih =>
    rw [List.range'_succ, List.countP_cons]
    by_cases hs : start ≤ bound
    · have hrest := ih (start + 1) (by omega) (by omega) fun n h1 h2 => hp n (by omega) (by omega)
      have hfirst := (hp start le_rfl (by omega)).mpr hs
      rw [hrest, hfirst]
      simp only [ite_true]
      omega
    · have hrest : (List.range' (start + 1) length).countP p = 0 := by
        refine List.countP_eq_zero.mpr fun n hn h => ?_
        rw [List.mem_range'_1] at hn
        have hle := (hp n (by omega) (by omega)).mp h
        omega
      have hfirst : p start = false := by
        cases h : p start with
        | false => rfl
        | true => exact absurd ((hp start le_rfl (by omega)).mp h) hs
      rw [hrest, hfirst]
      simp only [Bool.false_eq_true, ite_false]
      omega

theorem monthOf_eq {year : Int} {month k : Nat} (hlo : 1 ≤ month) (hhi : month ≤ 12)
    (hfrom : daysBefore year month ≤ k)
    (hto : k < daysBefore year month + monthLength year month) : monthOf year k = month := by
  unfold monthOf
  rw [countP_threshold 2 11 month (by omega) (by omega)]
  · omega
  · intro n h2 h13
    simp only [decide_eq_true_eq]
    rcases Nat.lt_trichotomy n month with h | h | h
    · have := daysBefore_lt year (by omega) h hhi
      omega
    · subst h
      omega
    · have := daysBefore_lt year hlo h (by omega)
      omega

theorem exists_month {year : Int} {k : Nat} (hk : k < yearLength year) :
    ∃ month, 1 ≤ month ∧ month ≤ 12 ∧ daysBefore year month ≤ k ∧
      k < daysBefore year month + monthLength year month := by
  have hone : daysBefore year 1 ≤ k := by
    rw [daysBefore_one]
    omega
  let month := Nat.findGreatest (fun m => daysBefore year m ≤ k) 12
  have hlo : 1 ≤ month := Nat.le_findGreatest (by omega) hone
  have hhi : month ≤ 12 := Nat.findGreatest_le 12
  have hfrom : daysBefore year month ≤ k :=
    Nat.findGreatest_spec (P := fun m => daysBefore year m ≤ k) (by omega : 1 ≤ 12) hone
  refine ⟨month, hlo, hhi, hfrom, ?_⟩
  rcases Nat.lt_or_ge month 12 with h | h
  · have hnext : ¬ daysBefore year (month + 1) ≤ k :=
      Nat.findGreatest_is_greatest (P := fun m => daysBefore year m ≤ k)
        (Nat.lt_succ_self month) (by omega)
    rw [daysBefore_succ year month hlo (by omega)] at hnext
    omega
  · have htwelve : month = 12 := by omega
    rw [htwelve, daysBefore_december]
    exact hk

/-! ### Months counted from January of year 0 -/

def lengthOf (index : Int) : Nat := monthLength (index / 12) ((index % 12).toNat + 1)

theorem lengthOf_pos (index : Int) : 28 ≤ lengthOf index := monthLength_pos _ _

theorem monthStart_succ (index : Int) :
    monthStart (index + 1) = monthStart index + lengthOf index := by
  unfold monthStart lengthOf
  dsimp only
  by_cases hlast : index % 12 = 11
  · -- December: the next month is January of the next year
    have hyear : (index + 1) / 12 = index / 12 + 1 := by omega
    have hmonth : ((index + 1) % 12).toNat + 1 = 1 := by omega
    have htwelve : (index % 12).toNat + 1 = 12 := by omega
    rw [hyear, hmonth, htwelve, yearStart_succ, daysBefore_one]
    have hsum := daysBefore_december (index / 12)
    omega
  · have hyear : (index + 1) / 12 = index / 12 := by omega
    have hmonth : ((index + 1) % 12).toNat = (index % 12).toNat + 1 := by omega
    rw [hyear, hmonth, daysBefore_succ _ _ (by omega) (by omega)]
    omega

theorem monthStart_strictMono : StrictMono monthStart := by
  apply strictMono_int_of_lt_succ
  intro index
  have hlen := lengthOf_pos index
  rw [monthStart_succ]
  omega

theorem monthStart_january (year : Int) : monthStart (12 * year) = yearStart year := by
  have hyear : 12 * year / 12 = year := by omega
  have hmonth : (12 * year % 12).toNat + 1 = 1 := by omega
  unfold monthStart
  dsimp only
  rw [hyear, hmonth, daysBefore_one]
  omega

theorem monthIndex_div {month : Nat} (year : Int) (hlo : 1 ≤ month) (hhi : month ≤ 12) :
    monthIndex year month / 12 = year := by
  unfold monthIndex
  omega

theorem monthIndex_mod {month : Nat} (year : Int) (hlo : 1 ≤ month) (hhi : month ≤ 12) :
    (monthIndex year month % 12).toNat + 1 = month := by
  unfold monthIndex
  omega

theorem monthStart_monthIndex {month : Nat} (year : Int) (hlo : 1 ≤ month) (hhi : month ≤ 12) :
    monthStart (monthIndex year month) = yearStart year + daysBefore year month := by
  unfold monthStart
  dsimp only
  rw [monthIndex_div year hlo hhi, monthIndex_mod year hlo hhi]

theorem monthIndex_within {month : Nat} (year : Int) (hlo : 1 ≤ month) (hhi : month ≤ 12) :
    yearStart year ≤ monthStart (monthIndex year month) ∧
      monthStart (monthIndex year month + 1) ≤ yearStart (year + 1) := by
  rw [← monthStart_january, ← monthStart_january]
  unfold monthIndex
  exact ⟨monthStart_strictMono.monotone (by omega), monthStart_strictMono.monotone (by omega)⟩

theorem lengthOf_monthIndex {month : Nat} (year : Int) (hlo : 1 ≤ month) (hhi : month ≤ 12) :
    lengthOf (monthIndex year month) = monthLength year month := by
  unfold lengthOf
  rw [monthIndex_div year hlo hhi, monthIndex_mod year hlo hhi]

/-! ### Days of a month -/

/-- Day number of a day of the month with this index; a day that the month lacks falls on
the month's last day. -/
def dayIn (index : Int) (day : Nat) : Int :=
  (Date.mk (index / 12) ((index % 12).toNat + 1) (min day (lengthOf index))).dayNumber

theorem dayIn_eq (index : Int) (day : Nat) :
    dayIn index day = monthStart index + (min day (lengthOf index) : Nat) - 1 := rfl

theorem monthStart_le_dayIn (index : Int) {day : Nat} (hday : 1 ≤ day) :
    monthStart index ≤ dayIn index day := by
  have hlen := lengthOf_pos index
  rw [dayIn_eq]
  omega

theorem dayIn_lt_monthStart (index : Int) (day : Nat) :
    dayIn index day < monthStart (index + 1) := by
  rw [dayIn_eq, monthStart_succ]
  omega

theorem dayIn_lt_dayIn {i j : Int} (hij : i < j) (a : Nat) {b : Nat} (hb : 1 ≤ b) :
    dayIn i a < dayIn j b :=
  calc dayIn i a < monthStart (i + 1) := dayIn_lt_monthStart i a
    _ ≤ monthStart j := monthStart_strictMono.monotone hij
    _ ≤ dayIn j b := monthStart_le_dayIn j hb

theorem dayIn_mono (index : Int) {a b : Nat} (hab : a ≤ b) : dayIn index a ≤ dayIn index b := by
  rw [dayIn_eq, dayIn_eq]
  omega

/-- Two days of one month are clamped together when the month has no day after the first. -/
theorem dayIn_eq_dayIn_iff (index : Int) {a b : Nat} (hab : a < b) :
    dayIn index b = dayIn index a ↔ lengthOf index ≤ a := by
  rw [dayIn_eq, dayIn_eq]
  omega

theorem withinCalendar?_eq_some {day result : Int} (h : withinCalendar? day = some result) :
    result = day := by
  unfold withinCalendar? at h
  split at h
  · exact (Option.some.inj h).symm
  · cases h

theorem monthEnd?_eq_some {index last : Int} (h : monthEnd? index = some last) :
    last = monthStart index + lengthOf index - 1 := by
  unfold monthEnd? at h
  obtain ⟨following, hnext, hlast⟩ := Option.bind_eq_some_iff.mp h
  rw [withinCalendar?_eq_some hlast, withinCalendar?_eq_some hnext, monthStart_succ]

theorem clampedDay?_eq_some {index result : Int} {day : Nat}
    (h : clampedDay? index day = some result) : result = dayIn index day := by
  unfold clampedDay? at h
  obtain ⟨last, hlast, hday⟩ := Option.bind_eq_some_iff.mp h
  rw [withinCalendar?_eq_some hday, monthEnd?_eq_some hlast, dayIn_eq]
  omega

theorem withinCalendar?_of_mem {day : Int} (hlo : firstDay ≤ day) (hhi : day ≤ lastDay) :
    withinCalendar? day = some day := if_pos ⟨hlo, hhi⟩

theorem monthEnd?_of_within {index : Int} (hlo : firstDay ≤ monthStart index)
    (hhi : monthStart (index + 1) ≤ lastDay) :
    monthEnd? index = some (dayIn index (lengthOf index)) := by
  have hlen := lengthOf_pos index
  have hend : dayIn index (lengthOf index) = monthStart (index + 1) - 1 := by
    rw [dayIn_eq, Nat.min_self, monthStart_succ]
  have hnext := monthStart_succ index
  unfold monthEnd?
  rw [withinCalendar?_of_mem (by omega) hhi, hend]
  exact withinCalendar?_of_mem (by omega) (by omega)

theorem clampedDay?_of_within {index : Int} {day : Nat} (hday : 1 ≤ day)
    (hlo : firstDay ≤ monthStart index) (hhi : monthStart (index + 1) ≤ lastDay) :
    clampedDay? index day = some (dayIn index day) := by
  have hfrom := monthStart_le_dayIn index hday
  have hto := dayIn_lt_monthStart index day
  have hmin : min (monthStart index + day - 1) (dayIn index (lengthOf index)) =
      dayIn index day := by
    rw [dayIn_eq, dayIn_eq]
    omega
  unfold clampedDay?
  rw [monthEnd?_of_within hlo hhi]
  dsimp only [Option.bind_eq_bind, Option.bind_some]
  rw [hmin]
  exact withinCalendar?_of_mem (by omega) (by omega)

end Calendar

/-! ### Dates of day numbers -/

open Calendar

namespace Date

theorem isValid_iff (d : Date) : d.isValid = true ↔
    1 ≤ d.month ∧ d.month ≤ 12 ∧ 1 ≤ d.day ∧ d.day ≤ monthLength d.year d.month := by
  unfold isValid
  exact decide_eq_true_iff

/-- The date of a day number exists and has that day number. -/
theorem ofDayNumber_spec (day : Int) :
    (ofDayNumber day).isValid = true ∧ (ofDayNumber day).dayNumber = day := by
  obtain ⟨hfrom, hto⟩ := yearOf_spec day
  rw [yearStart_succ] at hto
  obtain ⟨month, hlo, hhi, hge, hlt⟩ :=
    exists_month (show (day - yearStart (yearOf day)).toNat < yearLength (yearOf day) by omega)
  have hmonth := monthOf_eq hlo hhi hge hlt
  rw [isValid_iff]
  unfold ofDayNumber dayNumber
  dsimp only
  rw [hmonth]
  omega

theorem year_ofDayNumber (day : Int) : (ofDayNumber day).year = yearOf day := rfl

theorem ofDayNumber_dayNumber {d : Date} (h : d.isValid = true) : ofDayNumber d.dayNumber = d := by
  obtain ⟨hlo, hhi, hday, hlen⟩ := (isValid_iff d).mp h
  have hend := daysBefore_add_le d.year hlo hhi
  have hyear : yearOf d.dayNumber = d.year := by
    apply yearOf_eq
    · unfold dayNumber
      omega
    · rw [yearStart_succ]
      unfold dayNumber
      omega
  have hk : (d.dayNumber - yearStart d.year).toNat = daysBefore d.year d.month + (d.day - 1) := by
    unfold dayNumber
    omega
  have hmonth : monthOf d.year (daysBefore d.year d.month + (d.day - 1)) = d.month :=
    monthOf_eq hlo hhi (by omega) (by omega)
  unfold ofDayNumber
  dsimp only
  rw [hyear, hk, hmonth, Nat.add_sub_cancel_left, Nat.sub_add_cancel hday]

/-- The month index of a day's date is the month that holds the day. -/
theorem monthIndex_ofDayNumber (day : Int) :
    monthStart (ofDayNumber day).monthIndex ≤ day ∧
      day < monthStart ((ofDayNumber day).monthIndex + 1) := by
  obtain ⟨hvalid, hnumber⟩ := ofDayNumber_spec day
  obtain ⟨hlo, hhi, hday, hlen⟩ := (isValid_iff _).mp hvalid
  unfold monthIndex
  rw [monthStart_succ, monthStart_monthIndex _ hlo hhi, lengthOf_monthIndex _ hlo hhi]
  unfold dayNumber at hnumber
  omega

theorem ofDayNumber_dayIn (index : Int) {day : Nat} (hday : 1 ≤ day) :
    ofDayNumber (dayIn index day) =
      ⟨index / 12, (index % 12).toNat + 1, min day (lengthOf index)⟩ := by
  have hlen := lengthOf_pos index
  apply ofDayNumber_dayNumber
  rw [isValid_iff]
  refine ⟨?_, ?_, ?_, ?_⟩
  · dsimp only
    omega
  · dsimp only
    omega
  · dsimp only
    omega
  · exact Nat.min_le_right day (lengthOf index)

end Date

end Blackout
