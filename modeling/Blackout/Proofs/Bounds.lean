import Blackout.Proofs.Fallible
import Blackout.Proofs.Recurrence

/-!
# What checked bounds guarantee

Each check of a pair of bounds is read as the condition under which it passes, in the order
of the checks. The schedule built from bounds that pass has times within the day and days
that exist: days of month from 1 to 31, and annual dates that a leap year has.
-/

namespace Blackout

/-! ### Single checks -/

/-- A present field of the point lies between the field's least and greatest legal value. -/
def PointField.Fits (field : PointField) (p : Point) : Prop :=
  ∀ value, field.get p = some value → field.range.1 ≤ value ∧ value ≤ field.range.2

theorem checkField_eq_ok_iff (b : Boundary) (p : Point) (field : PointField) :
    checkField b p field = .ok () ↔ field.Fits p := by
  unfold checkField PointField.Fits
  cases field.get p with
  | none => simp
  | some value =>
    simp only [Option.some.injEq, forall_eq']
    split
    · constructor
      · intro h
        cases h
      · intro h
        omega
    · simp only [true_iff]
      omega

theorem checkRanges_eq_ok_iff (b : Boundary) (p : Point) :
    checkRanges b p = .ok () ↔ p.hour.isSome = true ∧ ∀ field : PointField, field.Fits p := by
  unfold checkRanges
  simp only [bind_eq_ok]
  cases hhour : p.hour with
  | none =>
    simp only [Option.isNone_none, ite_true, Option.isSome_none, Bool.false_eq_true, false_and,
      iff_false]
    intro hchecks
    obtain ⟨_, _, h⟩ := hchecks
    cases h
  | some hour =>
    simp only [Option.isNone_some, Bool.false_eq_true, ite_false, Option.isSome_some, true_and,
      forM_eq_ok_iff, checkField_eq_ok_iff]
    constructor
    · intro hchecks field
      obtain ⟨_, hminute, hrest⟩ := hchecks
      cases field with
      | minute => exact (checkField_eq_ok_iff b p .minute).mp hminute
      | hour => exact hrest .hour (by decide)
      | dayOfWeek => exact hrest .dayOfWeek (by decide)
      | dayOfMonth => exact hrest .dayOfMonth (by decide)
      | month => exact hrest .month (by decide)
    · intro h
      exact ⟨(), (checkField_eq_ok_iff b p .minute).mpr (h .minute), fun field _ => h field⟩

theorem boundKind_eq_ok_iff (b : Boundary) (p : Point) (kind : Kind) :
    boundKind b p = .ok kind ↔ p.kind? = some kind := by
  unfold boundKind
  split
  · rename_i hboth
    have hnone : p.kind? = none := by
      unfold Point.kind?
      split <;> simp_all
    simp [hnone]
  · cases p.kind? <;> simp

/-- The date that a point names in a leap year. -/
def Point.leapDate (p : Point) : Date :=
  ⟨leapReferenceYear, (p.month.getD 0).toNat, (p.dayOfMonth.getD 0).toNat⟩

theorem checkAnnualDate_eq_ok_iff (b : Boundary) (p : Point) :
    checkAnnualDate b p = .ok () ↔
      0 ≤ p.month.getD 0 ∧ 0 ≤ p.dayOfMonth.getD 0 ∧ p.leapDate.isValid = true := by
  unfold checkAnnualDate Point.leapDate
  dsimp only
  split <;> simp_all

theorem checkBounds_eq_ok_iff (p q : Point) (kind : Kind) :
    checkBounds (some p) (some q) = .ok kind ↔
      checkRanges .start p = .ok () ∧ checkRanges .stop q = .ok () ∧
        p.kind? = some kind ∧ q.kind? = some kind ∧
        (kind = .annual →
          checkAnnualDate .start p = .ok () ∧ checkAnnualDate .stop q = .ok ()) := by
  unfold checkBounds
  simp only [bind_eq_ok, boundKind_eq_ok_iff]
  constructor
  · intro hchecks
    obtain ⟨_, hp, _, hq, startKind, hstart, stopKind, hstop, h⟩ := hchecks
    by_cases hkind : startKind = stopKind
    · subst hkind
      by_cases hannual : startKind = .annual
      · subst hannual
        simp only [ne_eq, not_true_eq_false, ite_false, ite_true, bind_eq_ok] at h
        obtain ⟨_, hpd, _, hqd, hk⟩ := h
        cases hk
        exact ⟨hp, hq, hstart, hstop, fun _ => ⟨hpd, hqd⟩⟩
      · simp only [ne_eq, not_true_eq_false, ite_false, if_neg hannual] at h
        cases h
        exact ⟨hp, hq, hstart, hstop, fun hk => absurd hk hannual⟩
    · simp only [ne_eq, hkind, not_false_eq_true, ite_true] at h
      cases h
  · intro hchecks
    obtain ⟨hp, hq, hstart, hstop, hdates⟩ := hchecks
    refine ⟨(), hp, (), hq, kind, hstart, kind, hstop, ?_⟩
    by_cases hannual : kind = .annual
    · obtain ⟨hpd, hqd⟩ := hdates hannual
      simp only [ne_eq, not_true_eq_false, ite_false, if_pos hannual, bind_eq_ok]
      exact ⟨(), hpd, (), hqd, rfl⟩
    · simp only [ne_eq, not_true_eq_false, ite_false, if_neg hannual]
      rfl

/-! ### Parts of a point -/

theorem Point.timeOfDay?_lt {p : Point} {time : TimeOfDay} (h : p.timeOfDay? = some time) :
    time.seconds < 86400 := by
  unfold timeOfDay? at h
  obtain ⟨hour, -, h⟩ := Option.bind_eq_some_iff.mp h
  unfold TimeOfDay.ofHourMinute? at h
  split at h
  · cases h
    dsimp only
    omega
  · cases h

namespace Schedule

theorem part_eq_ok_iff {α : Type} {name : String} {value : Option α} {a : α} :
    part name value = .ok a ↔ value = some a := by
  unfold part
  cases value <;> simp

theorem dayOfMonth?_bounds {p : Point} {day : Nat} (hfits : PointField.dayOfMonth.Fits p)
    (h : dayOfMonth? p = some day) : 1 ≤ day ∧ day ≤ 31 := by
  unfold dayOfMonth? at h
  obtain ⟨value, hvalue, h⟩ := Option.bind_eq_some_iff.mp h
  have hrange : 1 ≤ value ∧ value ≤ 31 := hfits value hvalue
  split at h
  · cases h
    omega
  · cases h

theorem dayOfMonth?_eq_some {p : Point} {day : Nat} (h : dayOfMonth? p = some day) :
    (p.dayOfMonth.getD 0).toNat = day := by
  unfold dayOfMonth? at h
  obtain ⟨value, hvalue, h⟩ := Option.bind_eq_some_iff.mp h
  rw [hvalue]
  split at h
  · exact Option.some.inj h
  · cases h

theorem leapDate_of_monthDay? {p : Point} {date : MonthDay} (h : monthDay? p = .ok date) :
    p.leapDate = ⟨leapReferenceYear, date.month, date.day⟩ := by
  unfold monthDay? at h
  unfold Point.leapDate
  split at h
  · rename_i month hmonth
    obtain ⟨value, hvalue, hmonth⟩ := Option.bind_eq_some_iff.mp hmonth
    split at h
    · rename_i day hday
      cases h
      rw [dayOfMonth?_eq_some hday, hvalue]
      split at hmonth
      · cases hmonth
        rfl
      · cases hmonth
    · cases h
  · cases h

theorem exists_of_monthDay? {p : Point} {date : MonthDay} (hvalid : p.leapDate.isValid = true)
    (h : monthDay? p = .ok date) : date.Exists := by
  unfold MonthDay.Exists
  rw [← leapDate_of_monthDay? h]
  exact hvalid

/-- Checked bounds make up a legal schedule of their kind. -/
theorem legal_of_ofPoints {kind : Kind} {p q : Point} {s : Schedule}
    (hcheck : checkBounds (some p) (some q) = .ok kind) (h : ofPoints kind p q = .ok s) :
    s.Legal ∧ s.kind = kind := by
  obtain ⟨hp, hq, -, -, hdates⟩ := (checkBounds_eq_ok_iff p q kind).mp hcheck
  have hpfits := ((checkRanges_eq_ok_iff _ p).mp hp).2
  have hqfits := ((checkRanges_eq_ok_iff _ q).mp hq).2
  unfold ofPoints at h
  cases kind with
  | daily =>
    simp only [bind_eq_ok, part_eq_ok_iff] at h
    obtain ⟨start, hstart, stop, hstop, h⟩ := h
    cases h
    exact ⟨⟨Point.timeOfDay?_lt hstart, Point.timeOfDay?_lt hstop, trivial⟩, rfl⟩
  | weekly =>
    simp only [bind_eq_ok, part_eq_ok_iff] at h
    obtain ⟨startDay, -, start, hstart, stopDay, -, stop, hstop, h⟩ := h
    cases h
    exact ⟨⟨Point.timeOfDay?_lt hstart, Point.timeOfDay?_lt hstop, trivial⟩, rfl⟩
  | monthly =>
    simp only [bind_eq_ok, part_eq_ok_iff] at h
    obtain ⟨startDay, hstartDay, start, hstart, stopDay, hstopDay, stop, hstop, h⟩ := h
    cases h
    obtain ⟨hlo, hhi⟩ := dayOfMonth?_bounds (hpfits .dayOfMonth) hstartDay
    obtain ⟨hlo', hhi'⟩ := dayOfMonth?_bounds (hqfits .dayOfMonth) hstopDay
    exact ⟨⟨Point.timeOfDay?_lt hstart, Point.timeOfDay?_lt hstop, hlo, hhi, hlo', hhi'⟩, rfl⟩
  | annual =>
    simp only [bind_eq_ok, part_eq_ok_iff] at h
    obtain ⟨startDate, hstartDate, start, hstart, stopDate, hstopDate, stop, hstop, h⟩ := h
    cases h
    obtain ⟨hpdate, hqdate⟩ := hdates rfl
    obtain ⟨-, -, hpvalid⟩ := (checkAnnualDate_eq_ok_iff _ p).mp hpdate
    obtain ⟨-, -, hqvalid⟩ := (checkAnnualDate_eq_ok_iff _ q).mp hqdate
    exact ⟨⟨Point.timeOfDay?_lt hstart, Point.timeOfDay?_lt hstop,
      exists_of_monthDay? hpvalid hstartDate, exists_of_monthDay? hqvalid hstopDate⟩, rfl⟩

end Schedule

theorem Window.legal_of_ofBounds {p q : Point} {trigger : Trigger} {mode : ZoneMode} {w : Window}
    (h : Window.ofBounds p q trigger mode = .ok w) : w.schedule.Legal := by
  unfold ofBounds at h
  obtain ⟨kind, hkind, h⟩ := bind_eq_ok.mp h
  cases hs : Schedule.ofPoints kind p q with
  | error part =>
    rw [hs] at h
    cases h
  | ok schedule =>
    rw [hs] at h
    cases h
    exact (Schedule.legal_of_ofPoints hkind hs).1

end Blackout
