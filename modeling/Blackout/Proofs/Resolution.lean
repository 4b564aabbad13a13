import Blackout.Proofs.SavingTime

/-!
# Wall-clock readings as instants

A whole-second reading is resolved at one offset, `Zone.resolvedOffset`: that of saving time
where saving time shows the reading, and at the very moment that clocks are turned back, else
the standard one. Hence a reading that is shown means the earliest instant that shows it, and a
skipped one is pushed later by the length of the gap. The moment that clocks are turned back is
the exception: it is taken for a reading that was shown before, and was not.
-/

namespace Blackout

open Calendar

/-! ### Whole seconds -/

namespace Reading

variable {scale : Scale}

theorem plus_ofSeconds {r : Reading scale} (hwhole : r.nanos = 0) (n : Int) :
    r.plus (Span.ofSeconds n) = ⟨r.seconds + n, 0⟩ := by
  have hleap : r.isLeapSecond = false := by
    unfold isLeapSecond
    rw [hwhole]
    decide
  have hseconds : (1000 * n).tdiv 1000 = n := Int.mul_tdiv_cancel_left n (by decide)
  have hmillis : (1000 * n).tmod 1000 = 0 := Int.mul_tmod_right 1000 n
  unfold plus Span.ofSeconds
  simp only [hleap, Bool.false_eq_true, ite_false, hwhole, hseconds, hmillis]
  simp [carry]

def Representable (r : Reading scale) : Prop := firstDay ≤ r.day ∧ r.day ≤ lastDay

theorem representable_iff (r : Reading scale) :
    r.Representable ↔
      86400 * yearStart (-262143) ≤ r.seconds ∧ r.seconds < 86400 * yearStart 262143 := by
  have hday := r.day_spec
  unfold Representable firstDay lastDay
  omega

theorem withinCalendar?_eq_some_iff {r result : Reading scale} :
    r.withinCalendar? = some result ↔ r.Representable ∧ result = r := by
  unfold Reading.withinCalendar? Calendar.withinCalendar? Representable
  split
  · rename_i h
    simp [h, eq_comm]
  · rename_i h
    simp [h]

theorem instantAt_shownAt (i : Instant) (offset : Int) :
    (i.shownAt offset).instantAt offset = i := by
  unfold shownAt instantAt
  simp

theorem shownAt_instantAt (w : WallClock) (offset : Int) :
    (w.instantAt offset).shownAt offset = w := by
  unfold shownAt instantAt
  simp

end Reading

namespace Zone

variable {zone : Zone} {saving : Saving} {w : WallClock} {t : OffsetTime}

/-! ### Placing a reading at an offset -/

theorem placeAt?_eq_some_iff {offset : Int} :
    placeAt? w offset = some t ↔
      (w.instantAt offset).Representable ∧ t = ⟨w.instantAt offset, offset⟩ := by
  unfold placeAt?
  simp only [Option.map_eq_some_iff, Reading.withinCalendar?_eq_some_iff]
  constructor
  · intro hplaced
    obtain ⟨i, ⟨hin, rfl⟩, rfl⟩ := hplaced
    exact ⟨hin, rfl⟩
  · intro hplaced
    exact ⟨_, ⟨hplaced.1, rfl⟩, hplaced.2.symm⟩

/-- Offset in force a day before a reading, when the reading is taken as universal time. -/
def offsetBefore (zone : Zone) (w : WallClock) : Int := zone.offsetAt ⟨w.seconds - 86400, 0⟩

theorem placeAfterGap?_eq_some_iff (hwhole : w.nanos = 0) :
    zone.placeAfterGap? w = some t ↔
      Reading.Representable (⟨w.seconds - 86400, 0⟩ : WallClock) ∧
      (w.instantAt (zone.offsetBefore w)).Representable ∧
      t = ⟨w.instantAt (zone.offsetBefore w),
        zone.offsetAt (w.instantAt (zone.offsetBefore w))⟩ := by
  have hback : w.plus Span.day.neg = ⟨w.seconds - 86400, 0⟩ := by
    rw [Int.sub_eq_add_neg]
    exact Reading.plus_ofSeconds hwhole (-86400)
  have hbefore : (⟨w.seconds - 86400, 0⟩ : WallClock).instantAt 0 = ⟨w.seconds - 86400, 0⟩ := by
    simp [Reading.instantAt]
  have hshift : ∀ offset, w.plus (Span.ofSeconds (-offset)) = ⟨w.seconds - offset, 0⟩ :=
    fun offset => Reading.plus_ofSeconds hwhole (-offset)
  have hplaced : ∀ offset, (⟨w.seconds - offset, 0⟩ : WallClock).instantAt 0 =
      w.instantAt offset := by
    intro offset
    simp [Reading.instantAt, hwhole]
  unfold placeAfterGap? Reading.plus?
  simp only [hback, hshift, Option.bind_eq_bind, Option.bind_eq_some_iff,
    Reading.withinCalendar?_eq_some_iff]
  constructor
  · intro hgap
    obtain ⟨before, ⟨hin, rfl⟩, i, ⟨hin', rfl⟩, h⟩ := hgap
    rw [hbefore, hplaced] at h
    rw [hbefore] at hin'
    exact ⟨hin, hin', (Option.some.inj h).symm⟩
  · intro hgap
    obtain ⟨hin, hin', rfl⟩ := hgap
    refine ⟨_, ⟨hin, rfl⟩, _, ⟨?_, rfl⟩, ?_⟩
    · rw [hbefore]
      exact hin'
    · rw [hbefore, hplaced]
      rfl

/-! ### Which offsets a reading has -/

/-- Moment on the saving clock, in the reading's own year, when clocks are turned back. -/
def TurnsBackAt (zone : Zone) (w : WallClock) : Prop :=
  ∃ saving ∈ zone.saving, w.seconds = saving.stop.moment (yearOf w.day)

/-- The reading is shown by a clock at saving time, or is the moment that clocks are turned
back. -/
def ReadAsSaving (zone : Zone) (saving : Saving) (w : WallClock) : Prop :=
  saving.Covers zone.standard (w.seconds - saving.offset) ∨
    w.seconds = saving.stop.moment (yearOf w.day)

theorem offsetBefore_of_gap (hzone : zone.Regular) (hs : zone.saving = some saving)
    (hfrom : saving.start.moment (yearOf w.day) ≤ w.seconds)
    (hto : w.seconds < saving.start.moment (yearOf w.day) + (saving.offset - zone.standard)) :
    zone.offsetBefore w = zone.standard := by
  have hregular := hzone.saving saving hs
  have hstandard := hzone.standard_gt
  have hoffset := hregular.offset_lt
  have hday := w.day_spec
  have hyear := yearOf_spec w.day
  have hstart := YearlyRule.moment_inside hregular.start (yearOf w.day)
  have hstandardShown := Saving.covers_sub_iff hregular hstandard (le_refl zone.standard)
    hregular.ahead.le
    (show 86400 * yearStart (yearOf w.day) ≤ w.seconds - 86400 + zone.standard by omega)
    (show w.seconds - 86400 + zone.standard < 86400 * yearStart (yearOf w.day + 1) by omega)
  rw [Int.add_sub_cancel] at hstandardShown
  have hnot : ¬ saving.Covers zone.standard (w.seconds - 86400) := by
    rw [hstandardShown]
    split
    · omega
    · rename_i hsouth
      have hapart := YearlyRule.moment_apart hregular.stop hregular.start
        (hregular.apart.resolve_left (by omega)) (yearOf w.day)
      omega
  rcases offsetAt_spec hzone hs ⟨w.seconds - 86400, 0⟩ with ⟨hcovers, -⟩ | ⟨-, hoffsetAt⟩
  · exact absurd hcovers hnot
  · exact hoffsetAt

theorem localOffsets_spec (hzone : zone.Regular) (hs : zone.saving = some saving)
    (w : WallClock) :
    zone.ReadAsSaving saving w ∧
        (zone.localOffsets w = .one saving.offset ∨
          zone.localOffsets w = .two saving.offset zone.standard) ∨
      ¬ zone.ReadAsSaving saving w ∧
        (zone.localOffsets w = .one zone.standard ∨
          zone.localOffsets w = .gap ∧ zone.offsetBefore w = zone.standard) := by
  have hregular := hzone.saving saving hs
  have hstandard := hzone.standard_gt
  have hahead := hregular.ahead
  have hoffset := hregular.offset_lt
  have hday := w.day_spec
  have hyear := yearOf_spec w.day
  have hgap := offsetBefore_of_gap (w := w) hzone hs
  have horder := Saving.start_lt_stop_iff hregular (yearOf w.day)
  have hshown := Saving.covers_sub_iff hregular hstandard hahead.le (le_refl saving.offset)
    (show 86400 * yearStart (yearOf w.day) ≤ w.seconds by omega)
    (show w.seconds < 86400 * yearStart (yearOf w.day + 1) by omega)
  unfold ReadAsSaving localOffsets
  rw [hs, hshown]
  dsimp only
  rcases hregular.apart with hnorth | hsouth
  · have hapart := YearlyRule.moment_apart hregular.start hregular.stop hnorth (yearOf w.day)
    rw [if_pos (horder.mpr (by omega)), if_pos (by omega)]
    split_ifs with hstarts hskipped hsaves htwice
    · exact Or.inr ⟨by omega, Or.inl rfl⟩
    · exact Or.inr ⟨by omega, Or.inr ⟨rfl, hgap (by omega) hskipped⟩⟩
    · exact Or.inl ⟨by omega, Or.inl rfl⟩
    · exact Or.inl ⟨by omega, Or.inr rfl⟩
    · exact Or.inr ⟨by omega, Or.inl rfl⟩
  · have hapart := YearlyRule.moment_apart hregular.stop hregular.start hsouth (yearOf w.day)
    rw [if_neg (mt horder.mp (by omega)), if_neg (by omega)]
    split_ifs with hsaves htwice hstandardTime hskipped
    · exact Or.inl ⟨by omega, Or.inl rfl⟩
    · exact Or.inl ⟨by omega, Or.inr rfl⟩
    · exact Or.inr ⟨by omega, Or.inl rfl⟩
    · exact Or.inr ⟨by omega, Or.inr ⟨rfl, hgap (by omega) hskipped⟩⟩
    · exact Or.inl ⟨by omega, Or.inl rfl⟩

/-! ### The ends of the calendar -/

/-- Offset in force where one year ends and the next begins. -/
def newYearOffset (zone : Zone) : Int :=
  match zone.saving with
  | none => zone.standard
  | some saving => if saving.start.month < saving.stop.month then zone.standard else saving.offset

theorem rules_near_newYear {saving : Saving} {standard c year y : Int}
    (hs : saving.Regular standard) (hfrom : 86400 * (yearStart year - 4) ≤ c)
    (hto : c ≤ 86400 * (yearStart year + 4)) (hyear : 86400 * yearStart y ≤ c)
    (hyear' : c < 86400 * yearStart (y + 1)) :
    c + 86400 * 20 ≤ saving.start.moment y ∧ c + 86400 * 20 ≤ saving.stop.moment y ∨
      saving.start.moment y + 86400 * 20 ≤ c ∧ saving.stop.moment y + 86400 * 20 ≤ c := by
  have hstart := YearlyRule.moment_inside hs.start y
  have hstop := YearlyRule.moment_inside hs.stop y
  have hnext : 365 ≤ yearStart (year + 1) - yearStart year := by
    rw [yearStart_succ]
    unfold yearLength
    split <;> omega
  have hprevious : 365 ≤ yearStart year - yearStart (year - 1) := by
    have hsucc := yearStart_succ (year - 1)
    rw [Int.sub_add_cancel] at hsucc
    rw [hsucc]
    unfold yearLength
    split <;> omega
  have hlow : year - 1 < y + 1 := yearStart_strictMono.lt_iff_lt.mp (by omega)
  have hhigh : y < year + 1 := yearStart_strictMono.lt_iff_lt.mp (by omega)
  -- in the last days of its year both moments are over, in the first ones both are to come
  rcases Int.lt_or_eq_of_le (Int.le_of_lt_add_one hhigh) with hbefore | rfl
  · have hsame : y + 1 = year := by omega
    rw [hsame] at hstart hstop
    exact Or.inr (by omega)
  · exact Or.inl (by omega)

theorem localOffsets_newYear (hzone : zone.Regular) {year : Int}
    (hfrom : 86400 * (yearStart year - 4) ≤ w.seconds)
    (hto : w.seconds ≤ 86400 * (yearStart year + 4)) :
    zone.localOffsets w = .one zone.newYearOffset := by
  have hday := w.day_spec
  have hyear := yearOf_spec w.day
  unfold localOffsets newYearOffset
  cases hs : zone.saving with
  | none => rfl
  | some saving =>
    have hregular := hzone.saving saving hs
    have hstandard := hzone.standard_gt
    have hahead := hregular.ahead
    have hoffset := hregular.offset_lt
    have horder := Saving.start_lt_stop_iff hregular (yearOf w.day)
    have hnear := rules_near_newYear (y := yearOf w.day) hregular hfrom hto (by omega) (by omega)
    dsimp only
    by_cases hnorth : saving.start.month < saving.stop.month
    · rw [if_pos (horder.mpr hnorth), if_pos hnorth]
      split_ifs <;> first | rfl | omega
    · rw [if_neg (mt horder.mp hnorth), if_neg hnorth]
      split_ifs <;> first | rfl | omega

theorem offsetAt_newYear (hzone : zone.Regular) {i : Instant} {year : Int}
    (hfrom : 86400 * (yearStart year - 3) ≤ i.seconds)
    (hto : i.seconds ≤ 86400 * (yearStart year + 3)) :
    zone.offsetAt i = zone.newYearOffset := by
  unfold newYearOffset
  cases hs : zone.saving with
  | none => exact offsetAt_of_saving_eq_none hs i
  | some saving =>
    have hregular := hzone.saving saving hs
    have hstandard := hzone.standard_gt
    have hstandard' := hzone.standard_lt
    have hahead := hregular.ahead
    have hoffset := hregular.offset_lt
    have hday := (i.shownAt zone.standard).day_spec
    have hshown : (i.shownAt zone.standard).seconds = i.seconds + zone.standard := rfl
    have hyear := yearOf_spec (i.shownAt zone.standard).day
    rw [hshown] at hday
    have hnear := rules_near_newYear (y := yearOf (i.shownAt zone.standard).day) hregular
      (show 86400 * (yearStart year - 4) ≤ i.seconds + zone.standard by omega)
      (show i.seconds + zone.standard ≤ 86400 * (yearStart year + 4) by omega)
      (by omega) (by omega)
    have hcovers := Saving.covers_sub_iff hregular hstandard (le_refl zone.standard) hahead.le
      (show 86400 * yearStart (yearOf (i.shownAt zone.standard).day) ≤ i.seconds + zone.standard
        by omega)
      (show i.seconds + zone.standard < 86400 * yearStart (yearOf (i.shownAt zone.standard).day + 1)
        by omega)
    rw [Int.add_sub_cancel] at hcovers
    dsimp only
    rcases offsetAt_spec hzone hs i with ⟨hin, hoffsetAt⟩ | ⟨hout, hoffsetAt⟩
    · rw [hcovers] at hin
      rw [hoffsetAt]
      split_ifs at hin ⊢
      · omega
      · rfl
    · rw [hcovers] at hout
      rw [hoffsetAt]
      split_ifs at hout ⊢
      · rfl
      · omega

/-- Only near a new year can one offset lead out of the calendar and another not; there a
reading has one offset. -/
theorem localOffsets_of_not_representable (hzone : zone.Regular) {offset : Int}
    (hoffset : -86400 < offset) (hoffset' : offset < 86400)
    (hout : ¬ (w.instantAt offset).Representable)
    (hin : (w.instantAt (zone.offsetBefore w)).Representable) :
    zone.localOffsets w = .one (zone.offsetBefore w) := by
  have hbefore := zone.offsetAt_bounds hzone ⟨w.seconds - 86400, 0⟩
  have hshift : ∀ x, (w.instantAt x).seconds = w.seconds - x := fun _ => rfl
  rw [Reading.representable_iff, hshift] at hin hout
  have hnear : ∃ year, 86400 * (yearStart year - 2) ≤ w.seconds ∧
      w.seconds ≤ 86400 * (yearStart year + 2) := by
    unfold offsetBefore at hin
    by_cases hlow : 86400 * yearStart (-262143) ≤ w.seconds - offset
    · exact ⟨262143, by omega, by omega⟩
    · exact ⟨-262143, by omega, by omega⟩
  obtain ⟨year, hfrom, hto⟩ := hnear
  have hsame : zone.offsetBefore w = zone.newYearOffset :=
    offsetAt_newYear hzone (show 86400 * (yearStart year - 3) ≤ w.seconds - 86400 by omega)
      (show w.seconds - 86400 ≤ 86400 * (yearStart year + 3) by omega)
  rw [hsame]
  exact localOffsets_newYear hzone (show 86400 * (yearStart year - 4) ≤ w.seconds by omega)
    (by omega)

/-! ### The instant of a reading -/

/-- Offset at which a reading is resolved: its own, the first of two, or in a gap the one
before it. -/
def resolvedOffset (zone : Zone) (w : WallClock) : Int :=
  match zone.localOffsets w with
  | .one offset => offset
  | .two first _ => first
  | .gap => zone.standard

theorem localOffsets_cases (hzone : zone.Regular) (w : WallClock) :
    (∃ offset, zone.localOffsets w = .one offset ∧ -86400 < offset ∧ offset < 86400) ∨
      (∃ first second, zone.localOffsets w = .two first second ∧ second < first ∧
        -86400 < second ∧ first < 86400) ∨
      zone.localOffsets w = .gap ∧ zone.offsetBefore w = zone.standard := by
  have hstandard := hzone.standard_gt
  have hstandard' := hzone.standard_lt
  cases hs : zone.saving with
  | none =>
    refine Or.inl ⟨zone.standard, ?_, hstandard, hstandard'⟩
    unfold localOffsets
    rw [hs]
  | some saving =>
    have hahead := (hzone.saving saving hs).ahead
    have hoffset := (hzone.saving saving hs).offset_lt
    rcases localOffsets_spec hzone hs w with ⟨-, h | h⟩ | ⟨-, h | h⟩
    · exact Or.inl ⟨_, h, by omega, hoffset⟩
    · exact Or.inr (Or.inl ⟨_, _, h, hahead, hstandard, hoffset⟩)
    · exact Or.inl ⟨_, h, hstandard, hstandard'⟩
    · exact Or.inr (Or.inr h)

theorem placeAt?_of_representable {offset : Int} (hin : (w.instantAt offset).Representable) :
    placeAt? w offset = some ⟨w.instantAt offset, offset⟩ :=
  placeAt?_eq_some_iff.mpr ⟨hin, rfl⟩

theorem placeAt?_of_not_representable {offset : Int}
    (hout : ¬ (w.instantAt offset).Representable) : placeAt? w offset = none := by
  cases h : placeAt? w offset with
  | none => rfl
  | some t => exact absurd (placeAt?_eq_some_iff.mp h).1 hout

theorem not_later_of_lt {first second : Int} (h : second < first) (w : WallClock) :
    ¬ w.instantAt second < w.instantAt first := by
  rw [Reading.not_lt]
  refine Or.inl ?_
  unfold Reading.instantAt
  dsimp only
  omega

theorem instantOf?_of_one {offset : Int} (hoffsets : zone.localOffsets w = .one offset)
    (hin : (w.instantAt offset).Representable) :
    zone.instantOf? w = some ⟨w.instantAt offset, offset⟩ := by
  unfold instantOf?
  rw [hoffsets]
  dsimp only
  rw [placeAt?_of_representable hin]
  rfl

theorem instantOf?_of_one_out {offset : Int} (hoffsets : zone.localOffsets w = .one offset)
    (hout : ¬ (w.instantAt offset).Representable) :
    zone.instantOf? w = zone.placeAfterGap? w := by
  unfold instantOf?
  rw [hoffsets]
  dsimp only
  rw [placeAt?_of_not_representable hout]
  rfl

theorem instantOf?_of_two {first second : Int} (hoffsets : zone.localOffsets w = .two first second)
    (hlt : second < first) (hfirst : (w.instantAt first).Representable)
    (hsecond : (w.instantAt second).Representable) :
    zone.instantOf? w = some ⟨w.instantAt first, first⟩ := by
  unfold instantOf?
  rw [hoffsets]
  dsimp only
  rw [placeAt?_of_representable hfirst, placeAt?_of_representable hsecond]
  dsimp only
  rw [if_neg (not_later_of_lt hlt w)]

theorem instantOf?_of_two_out {first second offset : Int}
    (hoffsets : zone.localOffsets w = .two first second) (hone : offset = first ∨ offset = second)
    (hout : ¬ (w.instantAt offset).Representable) :
    zone.instantOf? w = zone.placeAfterGap? w := by
  unfold instantOf?
  rw [hoffsets]
  dsimp only
  rcases hone with rfl | rfl
  · rw [placeAt?_of_not_representable hout]
  · rw [placeAt?_of_not_representable hout]
    split
    · rename_i h
      cases h
    · rfl

theorem instantOf?_of_gap (hoffsets : zone.localOffsets w = .gap) :
    zone.instantOf? w = zone.placeAfterGap? w := by
  unfold instantOf?
  rw [hoffsets]

theorem instantOf?_eq_some (hzone : zone.Regular) (hwhole : w.nanos = 0)
    (h : zone.instantOf? w = some t) : t.instant = w.instantAt (zone.resolvedOffset w) := by
  have hgap : zone.placeAfterGap? w = some t ↔ _ := placeAfterGap?_eq_some_iff hwhole
  unfold resolvedOffset
  rcases localOffsets_cases hzone w with
    ⟨offset, hoffsets, hlo, hhi⟩ | ⟨first, second, hoffsets, hlt, hlo, hhi⟩ | ⟨hoffsets, hbefore⟩
  · rw [hoffsets]
    by_cases hin : (w.instantAt offset).Representable
    · rw [instantOf?_of_one hoffsets hin] at h
      cases h
      rfl
    · -- the offset of the day before is the same, and leads out of the calendar as well
      rw [instantOf?_of_one_out hoffsets hin] at h
      obtain ⟨-, hin', -⟩ := hgap.mp h
      have hsame := localOffsets_of_not_representable hzone hlo hhi hin hin'
      rw [hoffsets, LocalOffsets.one.injEq] at hsame
      rw [hsame] at hin
      exact absurd hin' hin
  · rw [hoffsets]
    by_cases hin : ∀ offset, offset = first ∨ offset = second → (w.instantAt offset).Representable
    · rw [instantOf?_of_two hoffsets hlt (hin first (Or.inl rfl)) (hin second (Or.inr rfl))] at h
      cases h
      rfl
    · -- no reading near the ends of the calendar has two offsets
      push Not at hin
      obtain ⟨offset, hone, hout⟩ := hin
      rw [instantOf?_of_two_out hoffsets hone hout] at h
      obtain ⟨-, hin', -⟩ := hgap.mp h
      have hsame := localOffsets_of_not_representable hzone (by omega) (by omega) hout hin'
      rw [hoffsets] at hsame
      cases hsame
  · rw [hoffsets]
    rw [instantOf?_of_gap hoffsets] at h
    obtain ⟨-, -, rfl⟩ := hgap.mp h
    rw [hbefore]

theorem exists_instantOf? (hzone : zone.Regular) (hwhole : w.nanos = 0)
    (hfrom : firstDay + 1 ≤ w.day) (hto : w.day ≤ lastDay - 1) :
    ∃ t, zone.instantOf? w = some t := by
  have hday := w.day_spec
  have hplaced : ∀ offset, -86400 < offset → offset < 86400 →
      (w.instantAt offset).Representable := by
    intro offset hlo hhi
    have hshift : (w.instantAt offset).seconds = w.seconds - offset := rfl
    rw [Reading.representable_iff, hshift]
    unfold firstDay at hfrom
    unfold lastDay at hto
    omega
  rcases localOffsets_cases hzone w with
    ⟨offset, hoffsets, hlo, hhi⟩ | ⟨first, second, hoffsets, hlt, hlo, hhi⟩ | ⟨hoffsets, hbefore⟩
  · exact ⟨_, instantOf?_of_one hoffsets (hplaced offset hlo hhi)⟩
  · exact ⟨_, instantOf?_of_two hoffsets hlt (hplaced first (by omega) hhi)
      (hplaced second hlo (by omega))⟩
  · refine ⟨_, (instantOf?_of_gap hoffsets).trans
      ((placeAfterGap?_eq_some_iff hwhole).mpr ⟨?_, ?_, rfl⟩)⟩
    · rw [Reading.representable_iff]
      unfold firstDay at hfrom
      unfold lastDay at hto
      dsimp only
      omega
    · rw [hbefore]
      exact hplaced zone.standard hzone.standard_gt hzone.standard_lt

/-! ### The instants that show a reading -/

theorem wallClock_eq_iff {i : Instant} :
    zone.wallClock i = w ↔ i = w.instantAt (zone.offsetAt i) := by
  unfold wallClock
  constructor
  · intro h
    rw [← h, Reading.instantAt_shownAt]
  · intro h
    have hshown := Reading.shownAt_instantAt w (zone.offsetAt i)
    rwa [← h] at hshown

theorem wallClock_eq_iff_covers (hzone : zone.Regular) (hs : zone.saving = some saving)
    {i : Instant} :
    zone.wallClock i = w ↔
      i = w.instantAt saving.offset ∧ saving.Covers zone.standard (w.seconds - saving.offset) ∨
        i = w.instantAt zone.standard ∧
          ¬ saving.Covers zone.standard (w.seconds - zone.standard) := by
  rw [wallClock_eq_iff]
  constructor
  · intro h
    rcases offsetAt_spec hzone hs i with ⟨hcovers, hoffset⟩ | ⟨hcovers, hoffset⟩
    · rw [hoffset] at h
      rw [h] at hcovers
      exact Or.inl ⟨h, hcovers⟩
    · rw [hoffset] at h
      rw [h] at hcovers
      exact Or.inr ⟨h, hcovers⟩
  · intro h
    rcases h with ⟨rfl, hcovers⟩ | ⟨rfl, hcovers⟩
    · rcases offsetAt_spec hzone hs (w.instantAt saving.offset) with ⟨-, hoffset⟩ | ⟨hnot, -⟩
      · rw [hoffset]
      · exact absurd hcovers hnot
    · rcases offsetAt_spec hzone hs (w.instantAt zone.standard) with ⟨hin, -⟩ | ⟨-, hoffset⟩
      · exact absurd hin hcovers
      · rw [hoffset]

theorem resolvedOffset_spec (hzone : zone.Regular) (hs : zone.saving = some saving)
    (w : WallClock) :
    zone.ReadAsSaving saving w ∧ zone.resolvedOffset w = saving.offset ∨
      ¬ zone.ReadAsSaving saving w ∧ zone.resolvedOffset w = zone.standard := by
  unfold resolvedOffset
  rcases localOffsets_spec hzone hs w with ⟨hread, h | h⟩ | ⟨hread, h | h⟩
  · rw [h]
    exact Or.inl ⟨hread, rfl⟩
  · rw [h]
    exact Or.inl ⟨hread, rfl⟩
  · rw [h]
    exact Or.inr ⟨hread, rfl⟩
  · rw [h.1]
    exact Or.inr ⟨hread, rfl⟩

theorem resolvedOffset_of_saving_eq_none (hs : zone.saving = none) (w : WallClock) :
    zone.resolvedOffset w = zone.standard := by
  unfold resolvedOffset localOffsets
  rw [hs]

/-- Seconds by which clocks are turned when saving time starts or stops. -/
def turn (zone : Zone) (saving : Saving) : Int := saving.offset - zone.standard

theorem isLeast_of_shown (hzone : zone.Regular) (hback : ¬ zone.TurnsBackAt w)
    (hshown : ∃ i, zone.wallClock i = w) :
    IsLeast {i | zone.wallClock i = w} (w.instantAt (zone.resolvedOffset w)) := by
  obtain ⟨i, hi⟩ := hshown
  cases hs : zone.saving with
  | none =>
    rw [resolvedOffset_of_saving_eq_none hs]
    have hsame : ∀ j, zone.wallClock j = w → j = w.instantAt zone.standard := by
      intro j hj
      rwa [wallClock_eq_iff, offsetAt_of_saving_eq_none hs] at hj
    refine ⟨hsame i hi ▸ hi, fun j hj => ?_⟩
    rw [hsame j hj]
    exact Reading.le_refl _
  | some saving =>
    have hshows := fun j => wallClock_eq_iff_covers (i := j) (w := w) hzone hs
    rcases resolvedOffset_spec hzone hs w with ⟨hread, hoffset⟩ | ⟨hread, hoffset⟩
    · -- the standard clock may show it again, but later
      have hcovers := hread.resolve_right fun h => hback ⟨saving, hs, h⟩
      rw [hoffset]
      refine ⟨(hshows _).mpr (Or.inl ⟨rfl, hcovers⟩), fun j hj => ?_⟩
      rcases (hshows j).mp hj with ⟨rfl, -⟩ | ⟨rfl, -⟩
      · exact Reading.le_refl _
      · exact Reading.not_lt.mp (not_later_of_lt (hzone.saving saving hs).ahead w)
    · have hsame : ∀ j, zone.wallClock j = w → j = w.instantAt zone.standard := by
        intro j hj
        rcases (hshows j).mp hj with ⟨-, hcovers⟩ | ⟨h, -⟩
        · exact absurd (Or.inl hcovers) hread
        · exact h
      rw [hoffset]
      refine ⟨hsame i hi ▸ hi, fun j hj => ?_⟩
      rw [hsame j hj]
      exact Reading.le_refl _

theorem gap_of_not_shown (hzone : zone.Regular) (hskipped : ∀ i, zone.wallClock i ≠ w) :
    ∃ saving ∈ zone.saving, saving.start.moment (yearOf w.day) ≤ w.seconds ∧
      w.seconds < saving.start.moment (yearOf w.day) + zone.turn saving ∧
      zone.wallClock (w.instantAt (zone.resolvedOffset w)) =
        ⟨w.seconds + zone.turn saving, w.nanos⟩ := by
  cases hs : zone.saving with
  | none =>
    refine absurd ?_ (hskipped (w.instantAt zone.standard))
    rw [wallClock_eq_iff, offsetAt_of_saving_eq_none hs]
  | some saving =>
    have hregular := hzone.saving saving hs
    have hstandard := hzone.standard_gt
    have hday := w.day_spec
    have hyear := yearOf_spec w.day
    have hshows := fun j => wallClock_eq_iff_covers (i := j) (w := w) hzone hs
    have hsaving : ¬ saving.Covers zone.standard (w.seconds - saving.offset) :=
      fun h => hskipped _ ((hshows _).mpr (Or.inl ⟨rfl, h⟩))
    have hcovers : saving.Covers zone.standard (w.seconds - zone.standard) := by
      by_contra h
      exact hskipped _ ((hshows _).mpr (Or.inr ⟨rfl, h⟩))
    have hgap := Saving.gap_of_covers hregular hstandard
      (show 86400 * yearStart (yearOf w.day) ≤ w.seconds by omega)
      (show w.seconds < 86400 * yearStart (yearOf w.day + 1) by omega) hcovers hsaving
    have hoffset : zone.resolvedOffset w = zone.standard := by
      rcases resolvedOffset_spec hzone hs w with ⟨hread | hread, -⟩ | ⟨-, hoffset⟩
      · exact absurd hread hsaving
      · exact absurd hread hgap.2.2
      · exact hoffset
    refine ⟨saving, rfl, hgap.1, hgap.2.1, ?_⟩
    rw [hoffset]
    rcases offsetAt_spec hzone hs (w.instantAt zone.standard) with ⟨-, hsaves⟩ | ⟨hnot, -⟩
    · unfold wallClock
      rw [hsaves]
      unfold Reading.shownAt Reading.instantAt turn
      dsimp only
      congr 1
      omega
    · exact absurd hcovers hnot

/-- The moment that clocks are turned back is shown once, by the standard clock; its resolved
offset leads to the instant of the turn, which shows an earlier reading. -/
theorem turnsBackAt_shown (hzone : zone.Regular) (hs : zone.saving = some saving)
    (hback : w.seconds = saving.stop.moment (yearOf w.day)) :
    {i | zone.wallClock i = w} = {w.instantAt zone.standard} ∧
      zone.resolvedOffset w = saving.offset ∧
      zone.wallClock (w.instantAt saving.offset) = ⟨w.seconds - zone.turn saving, w.nanos⟩ := by
  have hregular := hzone.saving saving hs
  have hstandard := hzone.standard_gt
  have hday := w.day_spec
  have hyear := yearOf_spec w.day
  have hnot : ∀ x, zone.standard ≤ x → x ≤ saving.offset →
      ¬ saving.Covers zone.standard (w.seconds - x) := by
    intro x hx hx'
    rw [Saving.covers_sub_iff hregular hstandard hx hx'
      (show 86400 * yearStart (yearOf w.day) ≤ w.seconds by omega)
      (show w.seconds < 86400 * yearStart (yearOf w.day + 1) by omega)]
    split_ifs with hnorth
    · omega
    · have hapart := YearlyRule.moment_apart hregular.stop hregular.start
        (hregular.apart.resolve_left (by omega)) (yearOf w.day)
      omega
  have hsaving := hnot saving.offset hregular.ahead.le (le_refl _)
  have hstandardTime := hnot zone.standard (le_refl _) hregular.ahead.le
  refine ⟨?_, ?_, ?_⟩
  · ext i
    show zone.wallClock i = w ↔ i = w.instantAt zone.standard
    rw [wallClock_eq_iff_covers hzone hs]
    constructor
    · intro h
      exact (h.resolve_left fun hshown => hsaving hshown.2).1
    · intro h
      exact Or.inr ⟨h, hstandardTime⟩
  · rcases resolvedOffset_spec hzone hs w with ⟨-, hoffset⟩ | ⟨hread, -⟩
    · exact hoffset
    · exact absurd (Or.inr hback) hread
  · rcases offsetAt_spec hzone hs (w.instantAt saving.offset) with ⟨hin, -⟩ | ⟨-, hoffset⟩
    · exact absurd hin hsaving
    · unfold wallClock
      rw [hoffset]
      unfold Reading.shownAt Reading.instantAt turn
      dsimp only
      congr 1
      omega

/-- **A reading means the earliest instant that shows it.** A whole-second reading a day or
more inside the calendar is always resolved. One that is shown means the earliest instant that
shows it, and one that is skipped is pushed later by the length of the gap that it lies in. The
moment that clocks are turned back is the exception: one instant shows it, but it means an
instant that is earlier by the length of the turn and shows another reading. -/
theorem instantOf?_earliest (hzone : zone.Regular) (hwhole : w.nanos = 0)
    (hfrom : firstDay + 1 ≤ w.day) (hto : w.day ≤ lastDay - 1) :
    ∃ t, zone.instantOf? w = some t ∧
      (¬ zone.TurnsBackAt w →
        ((∃ i, zone.wallClock i = w) → IsLeast {i | zone.wallClock i = w} t.instant) ∧
        ((∀ i, zone.wallClock i ≠ w) →
          ∃ saving ∈ zone.saving, saving.start.moment (yearOf w.day) ≤ w.seconds ∧
            w.seconds < saving.start.moment (yearOf w.day) + zone.turn saving ∧
            zone.wallClock t.instant = ⟨w.seconds + zone.turn saving, 0⟩)) ∧
      (zone.TurnsBackAt w →
        ∃ saving ∈ zone.saving,
          {i | zone.wallClock i = w} = {⟨t.instant.seconds + zone.turn saving, 0⟩} ∧
          zone.wallClock t.instant = ⟨w.seconds - zone.turn saving, 0⟩) := by
  obtain ⟨t, ht⟩ := exists_instantOf? hzone hwhole hfrom hto
  have hinstant := instantOf?_eq_some hzone hwhole ht
  refine ⟨t, ht, fun hback => ⟨fun hshown => ?_, fun hskipped => ?_⟩, fun hback => ?_⟩
  · rw [hinstant]
    exact isLeast_of_shown hzone hback hshown
  · obtain ⟨saving, hs, hstart, hstop, hclock⟩ := gap_of_not_shown hzone hskipped
    rw [hwhole] at hclock
    exact ⟨saving, hs, hstart, hstop, by rw [hinstant, hclock]⟩
  · obtain ⟨saving, hs, hmoment⟩ := hback
    obtain ⟨honly, hoffset, hclock⟩ := turnsBackAt_shown hzone hs hmoment
    rw [hwhole] at hclock
    refine ⟨saving, hs, ?_, by rw [hinstant, hoffset, hclock]⟩
    rw [honly, hinstant, hoffset]
    unfold Reading.instantAt turn
    dsimp only
    rw [hwhole]
    congr 2
    omega

/-- In Central Europe clocks are turned back at 3:00 on October 26, 2025, which is 1:00 of
universal time. The reading 3:00 is resolved to that instant, when clocks show 2:00; the instant
that shows it comes an hour later. -/
theorem instantOf?_at_turn :
    ofPosix? "CET-1CEST,M3.5.0,M10.5.0/3" = some centralEurope ∧ centralEurope.Regular ∧
    ∃ w t, w = .onDay (Date.mk 2025 10 26).dayNumber ⟨10800⟩ ∧ w.nanos = 0 ∧
      firstDay + 1 ≤ w.day ∧ w.day ≤ lastDay - 1 ∧ centralEurope.TurnsBackAt w ∧
      centralEurope.instantOf? w = some t ∧
      t.instant = .onDay (Date.mk 2025 10 26).dayNumber ⟨3600⟩ ∧
      centralEurope.wallClock t.instant = .onDay (Date.mk 2025 10 26).dayNumber ⟨7200⟩ ∧
      {i | centralEurope.wallClock i = w} = {.onDay (Date.mk 2025 10 26).dayNumber ⟨7200⟩} := by
  have hback : centralEurope.TurnsBackAt (.onDay (Date.mk 2025 10 26).dayNumber ⟨10800⟩) :=
    ⟨_, rfl, by decide⟩
  obtain ⟨t, ht, -, hturn⟩ := instantOf?_earliest
    (w := .onDay (Date.mk 2025 10 26).dayNumber ⟨10800⟩) regular_centralEurope rfl (by decide)
    (by decide)
  have hinstant : t.instant = .onDay (Date.mk 2025 10 26).dayNumber ⟨3600⟩ := by
    have hresolved : centralEurope.instantOf? (.onDay (Date.mk 2025 10 26).dayNumber ⟨10800⟩) =
        some ⟨.onDay (Date.mk 2025 10 26).dayNumber ⟨3600⟩, 7200⟩ := by decide
    rw [ht] at hresolved
    cases hresolved
    rfl
  obtain ⟨saving, hs, honly, hclock⟩ := hturn hback
  cases hs
  rw [hinstant] at honly hclock
  refine ⟨ofPosix?_centralEurope, regular_centralEurope, _, t, rfl, rfl, by decide, by decide,
    hback, ht, hinstant, ?_, ?_⟩
  · rw [hinstant, hclock]
    rfl
  · exact honly

end Zone

end Blackout
