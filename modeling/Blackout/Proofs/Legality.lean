import Blackout.Proofs.Acceptance

/-!
# Which bounds make a window

Two points bound a window of a kind if both have a time of day, all their fields are in range,
their fields of day and month are those of the kind, and the dates of an annual window exist in
leap years. A window is built from exactly these bounds.

From other bounds none is built, and the error says of them what is so. It never blames a part
that the checks should have found.
-/

namespace Blackout

/-! ### Legal points -/

namespace Point

/-- Every field that the point has lies in its range. -/
structure InRange (p : Point) : Prop where
  minute : ∀ minute ∈ p.minute, 0 ≤ minute ∧ minute ≤ 59
  hour : ∀ hour ∈ p.hour, 0 ≤ hour ∧ hour ≤ 23
  dayOfWeek : ∀ day ∈ p.dayOfWeek, 0 ≤ day ∧ day ≤ 7
  dayOfMonth : ∀ day ∈ p.dayOfMonth, 1 ≤ day ∧ day ≤ 31
  month : ∀ month ∈ p.month, 1 ≤ month ∧ month ≤ 12

/-- The fields of day and month that the point has. -/
def dayFields (p : Point) : List PointField :=
  [PointField.dayOfWeek, .month, .dayOfMonth].filter fun field => (field.get p).isSome

end Point

/-- A leap year has this month and day. -/
def InLeapYear (month day : Int) : Prop :=
  ∃ date : Date, date.isValid = true ∧ Calendar.isLeap date.year = true ∧
    date.month = month ∧ date.day = day

/-- The point can bound a window of this kind. -/
structure Point.Bounds (p : Point) (kind : Kind) : Prop where
  hour : p.hour.isSome = true
  inRange : p.InRange
  fields : p.dayFields = kind.fields
  date : kind = .annual → ∀ month ∈ p.month, ∀ day ∈ p.dayOfMonth, InLeapYear month day

theorem Point.inRange_iff (p : Point) : p.InRange ↔ ∀ field : PointField, field.Fits p := by
  constructor
  · intro h field
    cases field with
    | minute => exact h.minute
    | hour => exact h.hour
    | dayOfWeek => exact h.dayOfWeek
    | dayOfMonth => exact h.dayOfMonth
    | month => exact h.month
  · exact fun h => ⟨h .minute, h .hour, h .dayOfWeek, h .dayOfMonth, h .month⟩

theorem Point.kind?_eq_some_iff (p : Point) (kind : Kind) :
    p.kind? = some kind ↔ p.hour.isSome = true ∧ p.dayFields = kind.fields := by
  obtain ⟨minute, hour, dayOfWeek, dayOfMonth, month⟩ := p
  cases hour <;> cases dayOfWeek <;> cases dayOfMonth <;> cases month <;> cases kind <;>
    simp [kind?, dayFields, Kind.fields, PointField.get]

theorem Point.exists_date_of_kind? {p : Point} (h : p.kind? = some .annual) :
    ∃ month day, p.month = some month ∧ p.dayOfMonth = some day := by
  have hsome := isSome_of_kind? h
  obtain ⟨month, hmonth⟩ := Option.isSome_iff_exists.mp (hsome .month (by decide))
  obtain ⟨day, hday⟩ := Option.isSome_iff_exists.mp (hsome .dayOfMonth (by decide))
  exact ⟨month, day, hmonth, hday⟩

theorem inLeapYear_iff (month day : Int) :
    InLeapYear month day ↔ 0 ≤ month ∧ 0 ≤ day ∧
      (Date.mk leapReferenceYear month.toNat day.toNat).isValid = true := by
  constructor
  · rintro ⟨⟨year, m, d⟩, hvalid, hleap, rfl, rfl⟩
    refine ⟨Int.natCast_nonneg m, Int.natCast_nonneg d, ?_⟩
    rw [Date.isValid_iff] at hvalid ⊢
    -- all leap years have the same months
    have hlength : Calendar.monthLength leapReferenceYear m = Calendar.monthLength year m := by
      unfold Calendar.monthLength
      dsimp only at hleap
      rw [hleap]
      rfl
    dsimp only [Int.toNat_natCast] at hvalid ⊢
    rwa [hlength]
  · rintro ⟨hmonth, hday, hvalid⟩
    exact ⟨_, hvalid, rfl, Int.toNat_of_nonneg hmonth, Int.toNat_of_nonneg hday⟩

theorem checkAnnualDate_eq_ok_iff_inLeapYear (b : Boundary) (p : Point) :
    checkAnnualDate b p = .ok () ↔ InLeapYear (p.month.getD 0) (p.dayOfMonth.getD 0) := by
  rw [checkAnnualDate_eq_ok_iff, inLeapYear_iff]
  rfl

theorem Point.bounds_iff (b : Boundary) (p : Point) (kind : Kind) :
    p.Bounds kind ↔ checkRanges b p = .ok () ∧ p.kind? = some kind ∧
      (kind = .annual → checkAnnualDate b p = .ok ()) := by
  rw [checkRanges_eq_ok_iff, ← inRange_iff, kind?_eq_some_iff, checkAnnualDate_eq_ok_iff_inLeapYear]
  constructor
  · intro h
    refine ⟨⟨h.hour, h.inRange⟩, ⟨h.hour, h.fields⟩, ?_⟩
    rintro rfl
    obtain ⟨month, day, hmonth, hday⟩ :=
      exists_date_of_kind? ((kind?_eq_some_iff p .annual).mpr ⟨h.hour, h.fields⟩)
    have hdate := h.date rfl month hmonth day hday
    rwa [hmonth, hday]
  · rintro ⟨⟨hhour, hrange⟩, ⟨-, hfields⟩, hdate⟩
    refine ⟨hhour, hrange, hfields, fun hannual month hmonth day hday => ?_⟩
    have hexists := hdate hannual
    rwa [Option.mem_def.mp hmonth, Option.mem_def.mp hday] at hexists

theorem checkBounds_eq_ok_iff_bounds (p q : Point) (kind : Kind) :
    checkBounds (some p) (some q) = .ok kind ↔ p.Bounds kind ∧ q.Bounds kind := by
  rw [checkBounds_eq_ok_iff, Point.bounds_iff .start, Point.bounds_iff .stop]
  tauto

/-! ### What an error says -/

/-- What bounds a window on this side. -/
def Boundary.of {α : Type} (start stop : α) : Boundary → α
  | .start => start
  | .stop => stop

namespace WindowError

/-- What an error says of two bounds is so. An error about the fields of day and month or about a
date is only given where no field is out of range. -/
inductive Describes (start stop : Option Point) : WindowError → Prop where
  | missingBoundary {b : Boundary} (hnone : b.of start stop = none) :
    Describes start stop (.missingBoundary b)
  | missingHour {b : Boundary} {p : Point} (hbound : b.of start stop = some p)
    (hnone : p.hour = none) : Describes start stop (.missingHour b)
  | outOfRange {b : Boundary} {p : Point} {field : PointField} {value : Int}
    (hbound : b.of start stop = some p) (hvalue : field.get p = some value)
    (hout : value < field.range.1 ∨ field.range.2 < value) :
    Describes start stop (.outOfRange b field value field.range.1 field.range.2)
  | conflictingDays {b : Boundary} {p : Point} (hbound : b.of start stop = some p)
    (hrange : p.InRange) (hweek : p.dayOfWeek.isSome = true) (hmonth : p.dayOfMonth.isSome = true) :
    Describes start stop (.conflictingDays b)
  | unknownKind {b : Boundary} {p : Point} (hbound : b.of start stop = some p)
    (hrange : p.InRange) (hnone : ∀ kind : Kind, p.dayFields ≠ kind.fields) :
    Describes start stop (.unknownKind b p)
  | kindMismatch {p q : Point} {kind kind' : Kind} (hstart : start = some p) (hstop : stop = some q)
    (hrange : p.InRange) (hrange' : q.InRange) (hkind : p.dayFields = kind.fields)
    (hkind' : q.dayFields = kind'.fields) (hne : kind ≠ kind') :
    Describes start stop (.kindMismatch kind kind')
  | impossibleDate {b : Boundary} {p : Point} {month day : Int}
    (hbound : b.of start stop = some p) (hrange : p.InRange)
    (hkind : p.dayFields = Kind.annual.fields) (hmonth : p.month = some month)
    (hday : p.dayOfMonth = some day) (hnever : ¬ InLeapYear month day) :
    Describes start stop (.impossibleDate b month day)

/-- The error blames the calendar and not the bounds. -/
def isInternal : WindowError → Bool
  | unusable .. | noOccurrence .. | noEnd .. | unplaceable .. => true
  | _ => false

theorem Describes.isInternal_eq_false {start stop : Option Point} {e : WindowError}
    (h : e.Describes start stop) : e.isInternal = false := by
  cases h <;> rfl

end WindowError

section

variable {start stop : Option Point} {b : Boundary} {p : Point} {e : WindowError}

theorem describes_of_checkField (hbound : b.of start stop = some p) {field : PointField}
    (h : checkField b p field = .error e) : e.Describes start stop := by
  unfold checkField at h
  cases hvalue : field.get p with
  | none =>
    rw [hvalue] at h
    cases h
  | some value =>
    rw [hvalue] at h
    dsimp only at h
    split at h
    · next hout =>
      cases h
      exact .outOfRange hbound hvalue hout
    · cases h

theorem describes_of_checkRanges (hbound : b.of start stop = some p)
    (h : checkRanges b p = .error e) : e.Describes start stop := by
  unfold checkRanges at h
  rcases bind_eq_error.mp h with h | ⟨_, -, h⟩
  · exact describes_of_checkField hbound h
  · split at h
    · next hnone =>
      cases h
      exact .missingHour hbound (Option.isNone_iff_eq_none.mp hnone)
    · obtain ⟨field, -, h⟩ := exists_of_forM_eq_error h
      exact describes_of_checkField hbound h

theorem describes_of_boundKind (hbound : b.of start stop = some p)
    (hranges : checkRanges b p = .ok ()) (h : boundKind b p = .error e) :
    e.Describes start stop := by
  obtain ⟨hhour, hfits⟩ := (checkRanges_eq_ok_iff b p).mp hranges
  have hrange := p.inRange_iff.mpr hfits
  unfold boundKind at h
  split at h
  · next hboth =>
    cases h
    exact .conflictingDays hbound hrange hboth.1 hboth.2
  · cases hkind : p.kind? with
    | some kind =>
      rw [hkind] at h
      cases h
    | none =>
      rw [hkind] at h
      cases h
      refine .unknownKind hbound hrange fun kind hfields => ?_
      rw [(p.kind?_eq_some_iff kind).mpr ⟨hhour, hfields⟩] at hkind
      cases hkind

theorem describes_of_checkAnnualDate (hbound : b.of start stop = some p)
    (hranges : checkRanges b p = .ok ()) (hkind : p.kind? = some .annual)
    (h : checkAnnualDate b p = .error e) : e.Describes start stop := by
  have hrange := p.inRange_iff.mpr ((checkRanges_eq_ok_iff b p).mp hranges).2
  obtain ⟨month, day, hmonth, hday⟩ := Point.exists_date_of_kind? hkind
  have hnever : ¬ InLeapYear month day := by
    intro hdate
    have hok : checkAnnualDate b p = .ok () := by
      rwa [checkAnnualDate_eq_ok_iff_inLeapYear, hmonth, hday]
    rw [hok] at h
    cases h
  unfold checkAnnualDate at h
  rw [hmonth, hday] at h
  dsimp only at h
  split at h
  · cases h
  · cases h
    have hfields := ((p.kind?_eq_some_iff .annual).mp hkind).2
    exact .impossibleDate hbound hrange hfields hmonth hday hnever

theorem describes_of_checkBounds (h : checkBounds start stop = .error e) :
    e.Describes start stop := by
  unfold checkBounds at h
  cases start with
  | none =>
    cases h
    exact .missingBoundary (b := .start) rfl
  | some p =>
    cases stop with
    | none =>
      cases h
      exact .missingBoundary (b := .stop) rfl
    | some q =>
      dsimp only at h
      rcases bind_eq_error.mp h with h | ⟨_, hp, h⟩
      · exact describes_of_checkRanges (b := .start) rfl h
      rcases bind_eq_error.mp h with h | ⟨_, hq, h⟩
      · exact describes_of_checkRanges (b := .stop) rfl h
      rcases bind_eq_error.mp h with h | ⟨kind, hpkind, h⟩
      · exact describes_of_boundKind (b := .start) rfl hp h
      rcases bind_eq_error.mp h with h | ⟨kind', hqkind, h⟩
      · exact describes_of_boundKind (b := .stop) rfl hq h
      rw [boundKind_eq_ok_iff] at hpkind hqkind
      split at h
      · next hne =>
        cases h
        exact .kindMismatch rfl rfl
          (p.inRange_iff.mpr ((checkRanges_eq_ok_iff _ p).mp hp).2)
          (q.inRange_iff.mpr ((checkRanges_eq_ok_iff _ q).mp hq).2)
          ((p.kind?_eq_some_iff kind).mp hpkind).2 ((q.kind?_eq_some_iff kind').mp hqkind).2 hne
      · next heq =>
        rw [ne_eq, not_not] at heq
        subst heq
        split at h
        · next hannual =>
          subst hannual
          rcases bind_eq_error.mp h with h | ⟨_, -, h⟩
          · exact describes_of_checkAnnualDate (b := .start) rfl hp hpkind h
          rcases bind_eq_error.mp h with h | ⟨_, -, h⟩
          · exact describes_of_checkAnnualDate (b := .stop) rfl hq hqkind h
          cases h
        · cases h

end

/-! ### Windows of legal bounds -/

namespace Window

variable {start stop : Point} {trigger : Trigger} {mode : ZoneMode}

theorem checkBounds_of_ofBounds {w : Window} (h : ofBounds start stop trigger mode = .ok w) :
    checkBounds (some start) (some stop) = .ok w.kind := by
  unfold ofBounds at h
  obtain ⟨checked, hcheck, h⟩ := bind_eq_ok.mp h
  split at h
  · next schedule hschedule =>
    cases h
    rw [hcheck, kind, (Schedule.legal_of_ofPoints hcheck hschedule).2]
  · cases h

theorem exists_ofBounds {kind : Kind} (h : checkBounds (some start) (some stop) = .ok kind)
    (trigger : Trigger) (mode : ZoneMode) : ∃ w, ofBounds start stop trigger mode = .ok w := by
  obtain ⟨schedule, hschedule⟩ := Schedule.exists_ofPoints h
  unfold ofBounds
  rw [h]
  dsimp only [bind, Except.bind]
  rw [hschedule]
  exact ⟨_, rfl⟩

/-- **Exactly the legal bounds make a window, and errors are true.** From two points a window of a
kind is built if and only if both can bound one, and the check of the bounds names its kind. If none
is built, the error is that of the check. What it says of the bounds is so, and it never blames the
calendar. -/
theorem ofBounds_iff_bounds (start stop : Point) (trigger : Trigger) (mode : ZoneMode) :
    (∀ kind, (∃ w, ofBounds start stop trigger mode = .ok w ∧ w.kind = kind) ↔
      start.Bounds kind ∧ stop.Bounds kind) ∧
    (∀ w, ofBounds start stop trigger mode = .ok w →
      checkBounds (some start) (some stop) = .ok w.kind) ∧
    ∀ e, ofBounds start stop trigger mode = .error e →
      checkBounds (some start) (some stop) = .error e ∧
        e.Describes (some start) (some stop) ∧ e.isInternal = false := by
  refine ⟨fun kind => ?_, fun w => checkBounds_of_ofBounds, fun e h => ?_⟩
  · rw [← checkBounds_eq_ok_iff_bounds]
    constructor
    · rintro ⟨w, h, rfl⟩
      exact checkBounds_of_ofBounds h
    · intro hcheck
      obtain ⟨w, h⟩ := exists_ofBounds hcheck trigger mode
      have hkind := checkBounds_of_ofBounds h
      rw [hcheck] at hkind
      exact ⟨w, h, (Except.ok.inj hkind).symm⟩
  · have hcheck := ofBounds_eq_error_iff.mp h
    have hdescribes := describes_of_checkBounds hcheck
    exact ⟨hcheck, hdescribes, hdescribes.isInternal_eq_false⟩

/-- February 29 bounds an annual window and February 30 does not. The error names the end and the
date, which no leap year has. -/
theorem ofBounds_february :
    Point.Bounds ⟨none, some 22, none, some 29, some 2⟩ .annual ∧
    (∃ e, ofBounds ⟨none, some 22, none, some 29, some 2⟩ ⟨none, some 6, none, some 30, some 2⟩
        .all .utc = .error e ∧ e = .impossibleDate .stop 2 30 ∧
      e.Describes (some ⟨none, some 22, none, some 29, some 2⟩)
        (some ⟨none, some 6, none, some 30, some 2⟩)) := by
  have hfirst := (ofBounds_iff_bounds ⟨none, some 22, none, some 29, some 2⟩
    ⟨none, some 22, none, some 29, some 2⟩ .all .utc).1 .annual
  have hsecond := (ofBounds_iff_bounds ⟨none, some 22, none, some 29, some 2⟩
    ⟨none, some 6, none, some 30, some 2⟩ .all .utc).2.2 (.impossibleDate .stop 2 30) rfl
  exact ⟨(hfirst.mp ⟨_, rfl, rfl⟩).1, _, rfl, rfl, hsecond.2.1⟩

end Window

end Blackout
