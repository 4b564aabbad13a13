import Blackout.Proofs.Digits
import Blackout.Proofs.Resolution

/-!
# Written times are read back

A time in the RFC 3339 form is made of numbers of a fixed number of digits, except for its fraction,
which has as many digits as it needs and is read digit by digit. Read part by part, the text of an
instant at an offset of whole minutes gives the instant and the offset, in whatever zone it is read.
-/

namespace Blackout

open Calendar Text Text.Decimal

/-- A reading of a clock: its nanoseconds stay below two seconds, and reach one second in a leap
second only, which is kept as second 59 of its minute. -/
structure Reading.Proper {scale : Scale} (r : Reading scale) : Prop where
  nanos_lt : r.nanos < 2 * nanosPerSecond
  minute : r.isLeapSecond = true → r.seconds % 60 = 59

namespace Timestamp

/-! ### Parts -/

theorem nanosOf_padded {width n : Nat} (hwidth : 0 < width) (hle : width ≤ 9)
    (hn : n < 10 ^ width) : nanosOf (padded width n) = n * 10 ^ (9 - width) := by
  have hlength := length_padded hwidth hn
  unfold nanosOf
  dsimp only
  rw [List.take_of_length_le (by omega), value_padded, hlength]
  rfl

theorem readFraction?_point {width n : Nat} (hwidth : 0 < width) (hle : width ≤ 9)
    (hn : n < 10 ^ width) {rest : List Char} (hrest : NoDigit rest) :
    readFraction? ('.' :: (padded width n ++ rest)) = some (n * 10 ^ (9 - width), rest) := by
  have hrun : ∀ c ∈ padded width n, c.isDigit = true := fun _ => isDigit_of_mem_padded
  have hne : (padded width n).isEmpty = false := by
    rw [List.isEmpty_eq_false_iff, ← List.length_pos_iff, length_padded hwidth hn]
    exact hwidth
  simp only [readFraction?, takeWhile_isDigit hrun hrest, dropWhile_isDigit hrun hrest, hne,
    nanosOf_padded hwidth hle hn, Bool.false_eq_true, ite_false]

/-- The digits that a fraction leaves out are zeros. -/
theorem readFraction?_fraction {nanos : Nat} (hnanos : nanos < nanosPerSecond)
    {rest : List Char} (hrest : NoDigit rest) (hpoint : rest.head? ≠ some '.') :
    readFraction? (fraction nanos ++ rest) = some (nanos, rest) := by
  unfold nanosPerSecond at hnanos
  unfold fraction
  split
  · next hzero =>
    subst hzero
    cases rest with
    | nil => rfl
    | cons c cs =>
      have hne : c ≠ '.' := fun h => hpoint (congrArg some h)
      simp [readFraction?, hne]
  · split
    · next hmillis =>
      rw [List.cons_append,
        readFraction?_point (by decide) (by decide) (show nanos / 1000000 < 10 ^ 3 by omega) hrest]
      congr 2
      omega
    · split
      · next hmicros =>
        rw [List.cons_append,
          readFraction?_point (by decide) (by decide) (show nanos / 1000 < 10 ^ 6 by omega) hrest]
        congr 2
        omega
      · rw [List.cons_append,
          readFraction?_point (by decide) (by decide) (show nanos < 10 ^ 9 by omega) hrest]
        simp

theorem readOffset?_offset {seconds : Int} (hminutes : seconds % 60 = 0)
    (hday : seconds.natAbs < 86400) (rest : List Char) :
    readOffset? (offset seconds ++ rest) = some (seconds, rest) := by
  have hhours : seconds.natAbs / 60 / 60 < 10 ^ 2 := by omega
  have hrest : seconds.natAbs / 60 % 60 < 10 ^ 2 := by omega
  have hin : ¬ (24 ≤ seconds.natAbs / 60 / 60 ∨ 60 ≤ seconds.natAbs / 60 % 60) := by omega
  unfold offset
  dsimp only
  split
  all_goals
    simp only [readOffset?, List.cons_append, List.append_assoc, after?, fixed?_padded, hhours,
      hrest, hin, Nat.ofNat_pos, Option.bind_eq_bind, Option.bind_some, ite_true, ite_false,
      Char.reduceEq, or_false, Option.pure_def]
    congr 2
    omega

theorem head?_offset (seconds : Int) (rest : List Char) :
    NoDigit (offset seconds ++ rest) ∧ (offset seconds ++ rest).head? ≠ some '.' := by
  unfold offset
  dsimp only
  split <;> simp [noDigit_cons]

/-! ### Date and time -/

/-- Parts of a date and a time that exist make up the reading that they were taken from. -/
theorem assemble?_parts {w : WallClock} (hw : w.Proper)
    (hday : withinCalendar? w.day = some w.day) :
    assemble? w.date (w.secondOfDay / 3600) (w.secondOfDay / 60 % 60)
      (w.secondOfDay % 60 + w.nanos / nanosPerSecond) (w.nanos % nanosPerSecond) = some w := by
  obtain ⟨hvalid, hnumber⟩ := Date.ofDayNumber_spec w.day
  have hdate : w.date.dayNumber? = some w.day := by
    unfold Date.dayNumber? Reading.date
    rw [if_pos hvalid, hnumber, hday]
  have hsecond := w.secondOfDay_eq
  have hspec := w.day_spec
  have hnanos := hw.nanos_lt
  have hleap : nanosPerSecond ≤ w.nanos → w.seconds % 60 = 59 := fun h =>
    hw.minute (decide_eq_true h)
  unfold nanosPerSecond at hnanos hleap
  unfold assemble? nanosPerSecond daySeconds
  rw [hdate]
  dsimp only [Option.bind_eq_bind, Option.bind_some]
  rw [if_neg (by omega)]
  simp only [Option.pure_def, Option.some.injEq]
  cases w
  rw [Reading.mk.injEq]
  dsimp only at *
  omega

/-- The whole text is read part by part. -/
theorem readRfc3339?_text {year month day hour minute second nanos : Nat} {seconds : Int}
    (hyear : year < 10000) (hmonth : month < 100) (hday : day < 100) (hhour : hour < 100)
    (hminute : minute < 100) (hsecond : second < 100) (hnanos : nanos < nanosPerSecond)
    (hminutes : seconds % 60 = 0) (hoffset : seconds.natAbs < 86400) :
    readRfc3339? (padded 4 year ++ '-' :: (padded 2 month ++ '-' :: (padded 2 day ++ 'T' ::
      (padded 2 hour ++ ':' :: (padded 2 minute ++ ':' :: (padded 2 second ++
        (fraction nanos ++ offset seconds))))))) =
      (assemble? ⟨year, month, day⟩ hour minute second nanos).map
        fun w => ⟨w.instantAt seconds, seconds⟩ := by
  obtain ⟨hdigit, hpoint⟩ := head?_offset seconds []
  rw [List.append_nil] at hdigit hpoint
  have hend := readOffset?_offset hminutes hoffset []
  rw [List.append_nil] at hend
  have hafter : ∀ (c : Char) (cs : List Char), after? c (c :: cs) = some cs :=
    fun c cs => if_pos rfl
  unfold readRfc3339?
  dsimp only [Option.bind_eq_bind]
  rw [fixed?_padded (by decide) hyear, Option.bind_some, hafter, Option.bind_some,
    fixed?_padded (by decide) hmonth, Option.bind_some, hafter, Option.bind_some,
    fixed?_padded (by decide) hday, Option.bind_some, hafter, Option.orElse_eq_orElse]
  dsimp only [Option.orElse, Option.bind_some]
  rw [fixed?_padded (by decide) hhour, Option.bind_some, hafter, Option.bind_some,
    fixed?_padded (by decide) hminute, Option.bind_some, hafter, Option.bind_some,
    fixed?_padded (by decide) hsecond, Option.bind_some,
    readFraction?_fraction hnanos hdigit hpoint, Option.bind_some, hend, Option.bind_some]
  cases assemble? ⟨year, month, day⟩ hour minute second nanos <;> rfl

end Timestamp

/-! ### Instants at an offset -/

/-- A year of four digits lies within the calendar. -/
theorem Calendar.withinCalendar?_of_yearOf {day : Int} (hlo : 0 ≤ yearOf day)
    (hhi : yearOf day ≤ 9999) : withinCalendar? day = some day := by
  obtain ⟨hfrom, hto⟩ := within_years hlo hhi
  have hlow : firstDay ≤ yearStart 0 := by decide
  have hhigh : yearStart (9999 + 1) ≤ lastDay := by decide
  exact withinCalendar?_of_mem (by omega) (by omega)

namespace OffsetTime

variable {t : Instant} {offset : Int}

theorem proper_wallClock (ht : t.Proper) (hminutes : offset % 60 = 0) :
    (t.shownAt offset).Proper := by
  refine ⟨ht.nanos_lt, fun hleap => ?_⟩
  have hminute := ht.minute hleap
  unfold Reading.shownAt
  dsimp only
  omega

/-- The text of an instant at an offset is that of the clock's reading, part by part. -/
theorem rfc3339_toList {w : WallClock} {year : Nat} (hw : t.shownAt offset = w)
    (hyear : w.date.year = year) (hfour : year ≤ 9999) :
    (OffsetTime.mk t offset).rfc3339.toList = padded 4 year ++
      '-' :: (padded 2 w.date.month ++ '-' :: (padded 2 w.date.day ++
      'T' :: (padded 2 (w.secondOfDay / 3600) ++ ':' :: (padded 2 (w.secondOfDay / 60 % 60) ++
      ':' :: (padded 2 (w.secondOfDay % 60 + w.nanos / nanosPerSecond) ++
        (Timestamp.fraction (w.nanos % nanosPerSecond) ++ Timestamp.offset offset)))))) := by
  have hrange : 0 ≤ (year : Int) ∧ (year : Int) ≤ 9999 := by omega
  have hdigits : Timestamp.year w.date.year = padded 4 year := by
    rw [hyear, Timestamp.year, if_pos hrange, Int.toNat_natCast]
  unfold rfc3339 wallClock Timestamp.reading Timestamp.wholeSeconds Timestamp.date Timestamp.time
  dsimp only
  rw [String.toList_ofList, hw, hdigits]
  simp only [List.append_assoc, List.cons_append]

theorem ofRfc3339?_rfc3339 (ht : t.Proper) (hminutes : offset % 60 = 0)
    (hoffset : offset.natAbs < 86400) (hlo : 0 ≤ (t.shownAt offset).date.year)
    (hhi : (t.shownAt offset).date.year ≤ 9999) :
    ofRfc3339? (OffsetTime.mk t offset).rfc3339 = some ⟨t, offset⟩ := by
  have hproper := proper_wallClock ht hminutes
  have hback := Reading.instantAt_shownAt t offset
  generalize hw : t.shownAt offset = w at hlo hhi hproper hback
  obtain ⟨year, hyear⟩ := Int.eq_ofNat_of_zero_le hlo
  obtain ⟨hmonth, hmonths, hday, hdays⟩ := (Date.isValid_iff _).mp (Date.ofDayNumber_spec w.day).1
  have hlength := monthLength_le (Date.ofDayNumber w.day).year (Date.ofDayNumber w.day).month
  have hsecond := w.secondOfDay_eq
  have hspec := w.day_spec
  have hnanos : w.nanos < 2 * nanosPerSecond := hproper.nanos_lt
  have hparts := Timestamp.assemble?_parts hproper (Calendar.withinCalendar?_of_yearOf hlo hhi)
  have hdate : w.date = ⟨year, w.date.month, w.date.day⟩ := by rw [← hyear]
  rw [hdate] at hparts
  unfold ofRfc3339?
  rw [rfc3339_toList hw hyear (by omega), Timestamp.readRfc3339?_text, hparts, Option.map_some,
    hback]
  · omega
  · exact Nat.lt_of_le_of_lt hmonths (by decide)
  · exact Nat.lt_of_le_of_lt (hdays.trans hlength) (by decide)
  · omega
  · omega
  · unfold nanosPerSecond at hnanos ⊢
    omega
  · exact Nat.mod_lt _ (by decide)
  · exact hminutes
  · exact hoffset

end OffsetTime

namespace Instant

/-- **Written times are read back.** Of every instant, in a leap second or not, and every offset of
whole minutes of less than a day: if the year at the offset has up to four digits, then the text in
the RFC 3339 form is read as that very instant, whatever the local zone is. -/
theorem ofText?_rfc3339 {t : Instant} {offset : Int} (ht : t.Proper) (hminutes : offset % 60 = 0)
    (hoffset : offset.natAbs ≤ 23 * 3600 + 59 * 60) (hlo : 0 ≤ (t.shownAt offset).date.year)
    (hhi : (t.shownAt offset).date.year ≤ 9999) (here : Zone) :
    ofText? here (OffsetTime.mk t offset).rfc3339 = some t := by
  unfold ofText?
  rw [OffsetTime.ofRfc3339?_rfc3339 ht hminutes (by omega) hlo hhi]
  rfl

/-- Where clocks are five and a half hours ahead, the leap second at the end of 2016 comes right
before half past five on the first day of the next year. -/
theorem ofText?_rfc3339_leap_second :
    ∃ t : Instant, t = ⟨1483228799, 1250000000⟩ ∧ t.isLeapSecond = true ∧ t.Proper ∧
      (t.shownAt 19800).date = ⟨2017, 1, 1⟩ ∧
      (OffsetTime.mk t 19800).rfc3339 = "2017-01-01T05:29:60.250+05:30" ∧
      ofText? .universal "2017-01-01T05:29:60.250+05:30" = some t := by
  have hproper : Reading.Proper (⟨1483228799, 1250000000⟩ : Instant) :=
    ⟨by decide, fun _ => by decide⟩
  have hdate : Reading.date ((⟨1483228799, 1250000000⟩ : Instant).shownAt 19800) =
      ⟨2017, 1, 1⟩ := by
    decide +kernel
  have htext : (OffsetTime.mk ⟨1483228799, 1250000000⟩ 19800).rfc3339 =
      "2017-01-01T05:29:60.250+05:30" := by
    decide +kernel
  have hread : ofText? .universal (OffsetTime.mk ⟨1483228799, 1250000000⟩ 19800).rfc3339 = some _ :=
    ofText?_rfc3339 hproper (by decide) (by decide) (by rw [hdate]; decide) (by rw [hdate]; decide)
      .universal
  rw [htext] at hread
  exact ⟨_, rfl, rfl, hproper, hdate, htext, hread⟩

end Instant

end Blackout
