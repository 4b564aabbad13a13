import Blackout.Calendar.Zone.Posix
import Blackout.Proofs.Recurrence

/-!
# Saving time over the years

In a regular zone the two yearly rules lie inside the year and at least a month apart. Saving
time is then in force for one stretch from each start to the following stop, which lies in the
same year or, where the stop comes first in the year, in the next one. `covers_sub_iff` reads
this off a wall clock: what a reading's own year says is enough.
-/

namespace Blackout

open Calendar

/-! ### Yearly rules -/

namespace YearlyRule

/-- A rule of a month from February to November and a week from the first to the last, at a
time within the day or at its end. -/
structure Legal (rule : YearlyRule) : Prop where
  month_ge : 2 ≤ rule.month
  month_le : rule.month ≤ 11
  week_ge : 1 ≤ rule.week
  week_le : rule.week ≤ 5
  time_ge : 0 ≤ rule.time
  time_le : rule.time ≤ 86400

instance (rule : YearlyRule) : Decidable rule.Legal :=
  decidable_of_iff
    (2 ≤ rule.month ∧ rule.month ≤ 11 ∧ 1 ≤ rule.week ∧ rule.week ≤ 5 ∧ 0 ≤ rule.time ∧
      rule.time ≤ 86400)
    ⟨fun ⟨a, b, c, d, e, f⟩ => ⟨a, b, c, d, e, f⟩, fun ⟨a, b, c, d, e, f⟩ => ⟨a, b, c, d, e, f⟩⟩

variable {rule : YearlyRule}

theorem day_bounds (hrule : rule.Legal) (year : Int) :
    monthStart (monthIndex year rule.month) ≤ rule.day year ∧
      rule.day year < monthStart (monthIndex year rule.month + 1) := by
  have hlo := hrule.month_ge
  have hhi := hrule.month_le
  have hweek := hrule.week_ge
  have hweek' := hrule.week_le
  have hlength := monthLength_pos year rule.month
  rw [monthStart_succ, lengthOf_monthIndex year (by omega) (by omega)]
  unfold day
  dsimp only
  split <;> omega

theorem moment_bounds (hrule : rule.Legal) (year : Int) :
    86400 * monthStart (monthIndex year rule.month) ≤ rule.moment year ∧
      rule.moment year ≤ 86400 * monthStart (monthIndex year rule.month + 1) := by
  have hday := day_bounds hrule year
  have htime := hrule.time_ge
  have htime' := hrule.time_le
  unfold moment daySeconds
  omega

theorem moment_inside (hrule : rule.Legal) (year : Int) :
    86400 * (yearStart year + 31) ≤ rule.moment year ∧
      rule.moment year ≤ 86400 * (yearStart (year + 1) - 31) := by
  have hlo := hrule.month_ge
  have hhi := hrule.month_le
  obtain ⟨hfrom, hto⟩ := moment_bounds hrule year
  have hfebruary : monthStart (monthIndex year 2) ≤ monthStart (monthIndex year rule.month) :=
    monthStart_strictMono.monotone (by unfold monthIndex; omega)
  have hdecember : monthStart (monthIndex year rule.month + 1) ≤ monthStart (monthIndex year 12) :=
    monthStart_strictMono.monotone (by unfold monthIndex; omega)
  rw [monthStart_monthIndex year (by decide) (by decide)] at hfebruary hdecember
  have hjanuary : daysBefore year 2 = 31 := by simp [daysBefore, commonDaysBefore]
  have hlast : daysBefore year 12 + 31 = yearLength year := daysBefore_december year
  rw [yearStart_succ]
  omega

theorem moment_apart {a b : YearlyRule} (ha : a.Legal) (hb : b.Legal)
    (hmonths : a.month + 2 ≤ b.month) (year : Int) :
    a.moment year + 86400 * 28 ≤ b.moment year := by
  have hafter := (moment_bounds ha year).2
  have hbefore := (moment_bounds hb year).1
  have hbetween := monthStart_succ (monthIndex year a.month + 1)
  have hlength := lengthOf_pos (monthIndex year a.month + 1)
  have horder :
      monthStart (monthIndex year a.month + 1 + 1) ≤ monthStart (monthIndex year b.month) :=
    monthStart_strictMono.monotone (by unfold monthIndex; omega)
  omega

end YearlyRule

/-! ### Regular zones -/

/-- Saving time that is ahead of standard time, with rules at least a month apart. -/
structure Saving.Regular (saving : Saving) (standard : Int) : Prop where
  start : saving.start.Legal
  stop : saving.stop.Legal
  apart : saving.start.month + 2 ≤ saving.stop.month ∨ saving.stop.month + 2 ≤ saving.start.month
  ahead : standard < saving.offset
  offset_lt : saving.offset < 86400

/-- A zone with offsets of less than a day. Its saving time, if it has any, is regular. -/
structure Zone.Regular (zone : Zone) : Prop where
  standard_gt : -86400 < zone.standard
  standard_lt : zone.standard < 86400
  saving : ∀ saving ∈ zone.saving, saving.Regular zone.standard

instance (saving : Saving) (standard : Int) : Decidable (saving.Regular standard) :=
  decidable_of_iff
    (saving.start.Legal ∧ saving.stop.Legal ∧
      (saving.start.month + 2 ≤ saving.stop.month ∨ saving.stop.month + 2 ≤ saving.start.month) ∧
      standard < saving.offset ∧ saving.offset < 86400)
    ⟨fun ⟨a, b, c, d, e⟩ => ⟨a, b, c, d, e⟩, fun ⟨a, b, c, d, e⟩ => ⟨a, b, c, d, e⟩⟩

instance (zone : Zone) : Decidable zone.Regular :=
  decidable_of_iff
    (-86400 < zone.standard ∧ zone.standard < 86400 ∧
      ∀ saving ∈ zone.saving, saving.Regular zone.standard)
    ⟨fun ⟨a, b, c⟩ => ⟨a, b, c⟩, fun ⟨a, b, c⟩ => ⟨a, b, c⟩⟩

/-- Rules of local zones in use: with and without saving time, on both halves of the globe, with
shifts of an hour and of half an hour, changes at midnight, and offsets up to fourteen hours. -/
def Zone.Posix.inUse : List String := [
  "UTC0", "CET-1CEST,M3.5.0,M10.5.0/3", "EST5EDT,M3.2.0,M11.1.0", "IST-5:30",
  "AEST-10AEDT,M10.1.0,M4.1.0/3", "LHST-10:30LHDT-11,M10.1.0,M4.1.0",
  "<-04>4<-03>,M9.1.6/24,M4.1.6/24", "<+1245>-12:45<+1345>,M9.5.0/2:45,M4.1.0/3:45",
  "<+14>-14", "XST11"]

def Zone.centralEurope : Zone :=
  ⟨3600, some ⟨7200, ⟨3, 5, .sunday, 7200⟩, ⟨10, 5, .sunday, 10800⟩⟩⟩

theorem Zone.regular_of_inUse : ∀ text ∈ Posix.inUse, ∃ zone ∈ ofPosix? text, zone.Regular := by
  decide

theorem Zone.ofPosix?_centralEurope :
    ofPosix? "CET-1CEST,M3.5.0,M10.5.0/3" = some centralEurope := by
  decide

theorem Zone.regular_centralEurope : centralEurope.Regular := by
  obtain ⟨zone, hposix, hzone⟩ := regular_of_inUse "CET-1CEST,M3.5.0,M10.5.0/3" (by decide)
  rw [ofPosix?_centralEurope] at hposix
  cases hposix
  exact hzone

theorem Zone.regular_universal : universal.Regular := by
  decide

/-! ### When saving time is in force -/

namespace Saving

/-- Moment, on the saving clock, when the saving time that starts in `year` stops. -/
def stopAfter (saving : Saving) (year : Int) : Int :=
  if saving.start.month < saving.stop.month then saving.stop.moment year
  else saving.stop.moment (year + 1)

theorem stopAfter_eq (saving : Saving) (year : Int) :
    ∃ y, saving.stopAfter year = saving.stop.moment y := by
  unfold stopAfter
  split
  · exact ⟨year, rfl⟩
  · exact ⟨year + 1, rfl⟩

/-- Saving time that started in some year is in force at this second of universal time. -/
def Covers (saving : Saving) (standard seconds : Int) : Prop :=
  ∃ year, saving.start.moment year - standard ≤ seconds ∧
    seconds < saving.stopAfter year - saving.offset

variable {saving : Saving} {standard : Int}

theorem start_lt_stop_iff (hs : saving.Regular standard) (year : Int) :
    saving.start.moment year < saving.stop.moment year ↔
      saving.start.month < saving.stop.month := by
  rcases hs.apart with h | h
  · have hapart := YearlyRule.moment_apart hs.start hs.stop h year
    omega
  · have hapart := YearlyRule.moment_apart hs.stop hs.start h year
    omega

section LocalClock

variable {x c year : Int}

theorem covers_sub_iff_of_lt (hs : saving.Regular standard)
    (hx : standard ≤ x) (hx' : x ≤ saving.offset) (hfrom : 86400 * yearStart year ≤ c)
    (hto : c < 86400 * yearStart (year + 1)) (hmonths : saving.start.month < saving.stop.month) :
    saving.Covers standard (c - x) ↔ saving.start.moment year + (x - standard) ≤ c ∧
      c < saving.stop.moment year - (saving.offset - x) := by
  have hoffset := hs.offset_lt
  have hstops : ∀ y, saving.stopAfter y = saving.stop.moment y := fun y => if_pos hmonths
  simp only [Covers, hstops]
  constructor
  · intro hcovers
    obtain ⟨y, hafter, hbefore⟩ := hcovers
    have hy := YearlyRule.moment_inside hs.start y
    have hy' := YearlyRule.moment_inside hs.stop y
    -- start and stop lie in one year, so that is the year of the reading
    have hsame : y = year := by
      rcases Int.lt_trichotomy y year with h | h | h
      · have hyears := yearStart_strictMono.monotone (show y + 1 ≤ year from h)
        omega
      · exact h
      · have hyears := yearStart_strictMono.monotone (show year + 1 ≤ y from h)
        omega
    subst hsame
    omega
  · intro h
    exact ⟨year, by omega, by omega⟩

theorem covers_sub_iff_of_ge (hs : saving.Regular standard) (hstandard : -86400 < standard)
    (hx : standard ≤ x) (hx' : x ≤ saving.offset) (hfrom : 86400 * yearStart year ≤ c)
    (hto : c < 86400 * yearStart (year + 1)) (hmonths : ¬ saving.start.month < saving.stop.month) :
    saving.Covers standard (c - x) ↔ saving.start.moment year + (x - standard) ≤ c ∨
      c < saving.stop.moment year - (saving.offset - x) := by
  have hoffset := hs.offset_lt
  have hstops : ∀ y, saving.stopAfter y = saving.stop.moment (y + 1) := fun y => if_neg hmonths
  simp only [Covers, hstops]
  constructor
  · intro hcovers
    obtain ⟨y, hafter, hbefore⟩ := hcovers
    have hy := YearlyRule.moment_inside hs.start y
    have hy' := YearlyRule.moment_inside hs.stop (y + 1)
    -- a year has the stop of one stretch and then the start of the next
    have hnear : y = year ∨ y + 1 = year := by
      by_contra hfar
      rcases lt_or_ge y year with h | h
      · have hyears := yearStart_strictMono.monotone (show y + 1 + 1 ≤ year by omega)
        omega
      · have hyears := yearStart_strictMono.monotone (show year + 1 ≤ y by omega)
        omega
    rcases hnear with rfl | rfl
    · exact Or.inl (by omega)
    · exact Or.inr (by omega)
  · intro h
    rcases h with hafter | hbefore
    · have hnext := YearlyRule.moment_inside hs.stop (year + 1)
      exact ⟨year, by omega, by omega⟩
    · have hprevious := YearlyRule.moment_inside hs.start (year - 1)
      rw [Int.sub_add_cancel] at hprevious
      exact ⟨year - 1, by omega, by rw [Int.sub_add_cancel]; omega⟩

/-- On a clock `x` ahead of universal time, between standard and saving time, the rules of a
reading's own year decide whether saving time covers the reading. -/
theorem covers_sub_iff (hs : saving.Regular standard) (hstandard : -86400 < standard)
    (hx : standard ≤ x) (hx' : x ≤ saving.offset) (hfrom : 86400 * yearStart year ≤ c)
    (hto : c < 86400 * yearStart (year + 1)) :
    saving.Covers standard (c - x) ↔
      if saving.start.month < saving.stop.month then
        saving.start.moment year + (x - standard) ≤ c ∧
          c < saving.stop.moment year - (saving.offset - x)
      else
        saving.start.moment year + (x - standard) ≤ c ∨
          c < saving.stop.moment year - (saving.offset - x) := by
  split
  · next hmonths => exact covers_sub_iff_of_lt hs hx hx' hfrom hto hmonths
  · next hmonths => exact covers_sub_iff_of_ge hs hstandard hx hx' hfrom hto hmonths

theorem gap_of_covers (hs : saving.Regular standard) (hstandard : -86400 < standard)
    (hfrom : 86400 * yearStart year ≤ c) (hto : c < 86400 * yearStart (year + 1))
    (hcovers : saving.Covers standard (c - standard))
    (hnot : ¬ saving.Covers standard (c - saving.offset)) :
    saving.start.moment year ≤ c ∧ c < saving.start.moment year + (saving.offset - standard) ∧
      c ≠ saving.stop.moment year := by
  have hahead := hs.ahead
  rw [covers_sub_iff hs hstandard (le_refl standard) hahead.le hfrom hto] at hcovers
  rw [covers_sub_iff hs hstandard hahead.le (le_refl saving.offset) hfrom hto] at hnot
  rcases hs.apart with hnorth | hsouth
  · rw [if_pos (by omega)] at hcovers hnot
    omega
  · have hapart := YearlyRule.moment_apart hs.stop hs.start hsouth year
    rw [if_neg (by omega)] at hcovers hnot
    omega

end LocalClock

theorem exists_stopAfter (hs : saving.Regular standard) (year : Int) :
    ∃ y, saving.stopAfter y = saving.stop.moment year ∧
      saving.start.moment y + 86400 * 28 ≤ saving.stop.moment year := by
  unfold stopAfter
  by_cases hnorth : saving.start.month < saving.stop.month
  · have hapart := YearlyRule.moment_apart hs.start hs.stop
      (hs.apart.resolve_right (by omega)) year
    exact ⟨year, if_pos hnorth, hapart⟩
  · have hprevious := (YearlyRule.moment_inside hs.start (year - 1)).2
    have hstop := (YearlyRule.moment_inside hs.stop year).1
    rw [Int.sub_add_cancel] at hprevious
    exact ⟨year - 1, by rw [if_neg hnorth, Int.sub_add_cancel], by omega⟩

theorem not_covers_of_turned (hs : saving.Regular standard) (hstandard : -86400 < standard)
    {seconds year : Int} (hfrom : saving.stop.moment year - saving.offset ≤ seconds)
    (hto : seconds < saving.stop.moment year - standard) : ¬ saving.Covers standard seconds := by
  have hoffset := hs.offset_lt
  have hstop := YearlyRule.moment_inside hs.stop year
  have hcovers := covers_sub_iff hs hstandard (le_refl standard) hs.ahead.le
    (show 86400 * yearStart year ≤ seconds + standard by omega)
    (show seconds + standard < 86400 * yearStart (year + 1) by omega)
  rw [Int.add_sub_cancel] at hcovers
  rw [hcovers]
  split
  · omega
  · have hapart := YearlyRule.moment_apart hs.stop hs.start
      (hs.apart.resolve_left (by omega)) year
    omega

end Saving

namespace Zone

variable {zone : Zone} {saving : Saving}

theorem savesFrom_iff (hzone : zone.Regular) (hs : saving.Regular zone.standard)
    (seconds year : Int) :
    zone.savesFrom saving seconds year = true ↔
      saving.start.moment year - zone.standard ≤ seconds ∧
        seconds < saving.stopAfter year - saving.offset := by
  have hstandard := hzone.standard_gt
  have hahead := hs.ahead
  have hoffset := hs.offset_lt
  have horder : saving.start.moment year - zone.standard ≤
      saving.stop.moment year - saving.offset ↔ saving.start.month < saving.stop.month := by
    rcases hs.apart with h | h
    · have hapart := YearlyRule.moment_apart hs.start hs.stop h year
      omega
    · have hapart := YearlyRule.moment_apart hs.stop hs.start h year
      omega
  unfold savesFrom Saving.stopAfter
  dsimp only
  simp only [horder, decide_eq_true_eq]
  split <;> rfl

theorem year_of_covers (hzone : zone.Regular) (hs : saving.Regular zone.standard) {i : Instant}
    {year : Int} (hafter : saving.start.moment year - zone.standard ≤ i.seconds)
    (hbefore : i.seconds < saving.stopAfter year - saving.offset) :
    yearOf i.day - 1 ≤ year ∧ year ≤ yearOf i.day := by
  have hstandard := hzone.standard_gt
  have hstandard' := hzone.standard_lt
  have hahead := hs.ahead
  have hday := i.day_spec
  have hyear := yearOf_spec i.day
  have hstart := (YearlyRule.moment_inside hs.start year).1
  have hstop : saving.stopAfter year ≤ 86400 * (yearStart (year + 2) - 31) := by
    have hsame := (YearlyRule.moment_inside hs.stop year).2
    have hnext := (YearlyRule.moment_inside hs.stop (year + 1)).2
    have hyears := yearStart_strictMono.monotone (show year + 1 ≤ year + 2 by omega)
    rw [show year + 1 + 1 = year + 2 by omega] at hnext
    unfold Saving.stopAfter
    split <;> omega
  have hlow : year < yearOf i.day + 1 := yearStart_strictMono.lt_iff_lt.mp (by omega)
  have hhigh : yearOf i.day < year + 2 := yearStart_strictMono.lt_iff_lt.mp (by omega)
  omega

theorem offsetAt_spec (hzone : zone.Regular) (hs : zone.saving = some saving) (i : Instant) :
    saving.Covers zone.standard i.seconds ∧ zone.offsetAt i = saving.offset ∨
      ¬ saving.Covers zone.standard i.seconds ∧ zone.offsetAt i = zone.standard := by
  have hregular := hzone.saving saving hs
  have hany : [yearOf i.day - 1, yearOf i.day, yearOf i.day + 1].any
      (zone.savesFrom saving i.seconds) = true ↔ saving.Covers zone.standard i.seconds := by
    simp only [List.any_eq_true, savesFrom_iff hzone hregular]
    constructor
    · intro hsaves
      obtain ⟨year, -, hcovers⟩ := hsaves
      exact ⟨year, hcovers⟩
    · intro hcovers
      obtain ⟨year, hafter, hbefore⟩ := hcovers
      have hnear := year_of_covers hzone hregular hafter hbefore
      refine ⟨year, ?_, hafter, hbefore⟩
      simp only [List.mem_cons, List.not_mem_nil, or_false]
      omega
  unfold offsetAt
  rw [hs]
  dsimp only
  by_cases hcovers : saving.Covers zone.standard i.seconds
  · exact Or.inl ⟨hcovers, if_pos (hany.mpr hcovers)⟩
  · exact Or.inr ⟨hcovers, if_neg fun h => hcovers (hany.mp h)⟩

theorem offsetAt_of_saving_eq_none (hs : zone.saving = none) (i : Instant) :
    zone.offsetAt i = zone.standard := by
  unfold offsetAt
  rw [hs]

theorem offsetAt_bounds (hzone : zone.Regular) (i : Instant) :
    -86400 < zone.offsetAt i ∧ zone.offsetAt i < 86400 := by
  have hstandard := hzone.standard_gt
  have hstandard' := hzone.standard_lt
  cases hs : zone.saving with
  | none =>
    rw [offsetAt_of_saving_eq_none hs]
    exact ⟨hstandard, hstandard'⟩
  | some saving =>
    have hahead := (hzone.saving saving hs).ahead
    have hoffset := (hzone.saving saving hs).offset_lt
    rcases offsetAt_spec hzone hs i with ⟨-, h⟩ | ⟨-, h⟩
    · omega
    · omega

end Zone

end Blackout
