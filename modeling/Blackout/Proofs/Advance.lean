import Blackout.Proofs.Clock
import Blackout.Proofs.Resolution

/-!
# Advances one after another

Spans that lead forward add up. That is plain away from leap seconds; a reading in a leap second
stays in it while the spans together are too short to leave it, and is carried on from the second
before as soon as they are not, whether one span or two of them lead there.

Within the calendar the limit on spans does not matter: a clock that would go beyond the limit would
leave the calendar much sooner. So an advance succeeds exactly if the calendar has the sum.
-/

namespace Blackout

namespace Reading

variable {scale : Scale} {r middle later : Reading scale} {span : Span}

/-! ### Spans that lead forward -/

theorem carry_add (seconds more nanos : Int) :
    (carry (seconds + more) nanos : Reading scale) = carry seconds (nanos + 1000000000 * more) := by
  unfold carry nanosPerSecond
  rw [Reading.mk.injEq]
  omega

theorem plus_of_not_leap (hleap : ¬ 1000000000 ≤ r.nanos) (span : Span) :
    r.plus span = carry r.seconds (r.nanos + 1000000 * span.millis) := by
  have hmillis := Int.mul_tdiv_add_tmod span.millis 1000
  unfold plus isLeapSecond nanosPerSecond
  dsimp only
  rw [if_neg (by simpa using hleap), carry_add]
  congr 1
  omega

theorem carry_plus (seconds nanos : Int) (span : Span) :
    (carry seconds nanos : Reading scale).plus span =
      carry seconds (nanos + 1000000 * span.millis) := by
  have hnanos : ((carry seconds nanos : Reading scale).nanos : Int) = nanos % 1000000000 := by
    unfold carry nanosPerSecond
    dsimp only
    omega
  have hseconds :
      (carry seconds nanos : Reading scale).seconds = seconds + nanos / 1000000000 := rfl
  rw [plus_of_not_leap (by omega), hseconds, hnanos, carry_add]
  congr 1
  omega

theorem plus_of_stays (hleap : 1000000000 ≤ r.nanos) (hspan : 0 ≤ span.millis)
    (hstays : span.millis = 0 ∨ r.nanos + 1000000 * span.millis < 2000000000) :
    r.plus span = ⟨r.seconds, (r.nanos + 1000000 * span.millis).toNat⟩ := by
  have hmillis := Int.mul_tdiv_add_tmod span.millis 1000
  have hseconds : 0 ≤ span.millis.tdiv 1000 := Int.tdiv_nonneg hspan (by decide)
  have hrest : 0 ≤ span.millis.tmod 1000 := Int.tmod_nonneg 1000 hspan
  unfold plus isLeapSecond nanosPerSecond
  dsimp only
  rw [if_pos (by simpa using hleap), if_neg (by omega), if_neg (by omega), Reading.mk.injEq]
  omega

theorem plus_of_leaves (hleap : 1000000000 ≤ r.nanos) (hspan : 0 < span.millis)
    (hleaves : 2000000000 ≤ r.nanos + 1000000 * span.millis) :
    r.plus span = carry r.seconds (r.nanos - 1000000000 + 1000000 * span.millis) := by
  have hmillis := Int.mul_tdiv_add_tmod span.millis 1000
  have hseconds : 0 ≤ span.millis.tdiv 1000 := Int.tdiv_nonneg (Int.le_of_lt hspan) (by decide)
  have hrest : span.millis.tmod 1000 < 1000 := Int.tmod_lt_of_pos _ (by decide)
  unfold plus isLeapSecond nanosPerSecond
  dsimp only
  rw [if_pos (by simpa using hleap), if_pos (by omega), carry_add]
  congr 1
  omega

theorem plus_plus (r : Reading scale) {a b : Span} (ha : 0 ≤ a.millis) (hb : 0 ≤ b.millis) :
    (r.plus a).plus b = r.plus ⟨a.millis + b.millis⟩ := by
  by_cases hleap : 1000000000 ≤ r.nanos
  · by_cases hstays : a.millis = 0 ∨ r.nanos + 1000000 * a.millis < 2000000000
    · rw [plus_of_stays hleap ha hstays]
      by_cases hboth : b.millis = 0 ∨ r.nanos + 1000000 * (a.millis + b.millis) < 2000000000
      · rw [plus_of_stays (by dsimp only; omega) hb (by dsimp only; omega),
          plus_of_stays hleap (by dsimp only; omega) (by dsimp only; omega), Reading.mk.injEq]
        dsimp only
        omega
      · rw [plus_of_leaves (by dsimp only; omega) (by omega) (by dsimp only; omega),
          plus_of_leaves hleap (by dsimp only; omega) (by dsimp only; omega)]
        congr 1
        dsimp only
        omega
    · rw [plus_of_leaves hleap (by omega) (by omega), carry_plus,
        plus_of_leaves hleap (by dsimp only; omega) (by dsimp only; omega)]
      congr 1
      dsimp only
      omega
  · rw [plus_of_not_leap hleap, carry_plus, plus_of_not_leap hleap]
    congr 1
    dsimp only
    omega

/-- Whole seconds of a span that leads forward are not lost. -/
theorem seconds_le_plus (r : Reading scale) (hspan : 0 ≤ span.millis) :
    r.seconds + span.millis / 1000 ≤ (r.plus span).seconds := by
  have hcarry : ∀ nanos : Int, 1000000 * span.millis ≤ nanos →
      r.seconds + span.millis / 1000 ≤ (carry r.seconds nanos : Reading scale).seconds := by
    intro nanos hle
    unfold carry nanosPerSecond
    dsimp only
    omega
  by_cases hleap : 1000000000 ≤ r.nanos
  · by_cases hstays : span.millis = 0 ∨ r.nanos + 1000000 * span.millis < 2000000000
    · rw [plus_of_stays hleap hspan hstays]
      dsimp only
      omega
    · rw [plus_of_leaves hleap (by omega) (by omega)]
      exact hcarry _ (by omega)
  · rw [plus_of_not_leap hleap]
    exact hcarry _ (by omega)

/-! ### Staying within the calendar -/

theorem Representable.between (hr : r.Representable) (hlater : later.Representable)
    (hsince : r ≤ middle) (huntil : middle ≤ later) : middle.Representable := by
  rw [representable_iff] at hr hlater ⊢
  rw [le_iff] at hsince huntil
  omega

end Reading

/-! ### Advancing the clock -/

namespace TimeUnit

/-- Span of an amount of a unit, where spans have no limit. -/
def spanOf (unit : TimeUnit) (amount : Nat) : Span := ⟨(amount * unit.millis : Nat)⟩

theorem spanOf_millis_nonneg (unit : TimeUnit) (amount : Nat) :
    0 ≤ (unit.spanOf amount).millis := Int.natCast_nonneg _

theorem spanOf_add (unit : TimeUnit) (a b : Nat) :
    unit.spanOf (a + b) = ⟨(unit.spanOf a).millis + (unit.spanOf b).millis⟩ := by
  unfold spanOf
  rw [Nat.add_mul, Int.natCast_add]

theorem eq_spanOf_of_span? {unit : TimeUnit} {amount : Nat} {span : Span}
    (h : unit.span? amount = some span) : span = unit.spanOf amount := by
  unfold span? at h
  split at h
  · exact (Option.some.inj h).symm
  · cases h

end TimeUnit

namespace Instant

variable {now next : Instant} {amount : Nat} {unit : TimeUnit}

/-- From one reading of the calendar to another no span comes near the limit. -/
theorem span?_of_representable (hnow : now.Representable)
    (hnext : (now.plus (unit.spanOf amount)).Representable) :
    unit.span? amount = some (unit.spanOf amount) := by
  have hlonger := Reading.seconds_le_plus now (unit.spanOf_millis_nonneg amount)
  rw [Reading.representable_iff] at hnow hnext
  have hfirst : Calendar.yearStart (-262143) = -96465292 := by decide
  have hlast : Calendar.yearStart 262143 = 95026237 := by decide
  have hmillis : 1 ≤ unit.millis := by cases unit <;> decide
  have hamount : amount ≤ amount * unit.millis := Nat.le_mul_of_pos_right amount hmillis
  have hspan : (unit.spanOf amount).millis = (amount * unit.millis : Nat) := rfl
  unfold TimeUnit.span? Span.limit
  rw [if_pos ⟨by omega, by omega⟩]
  rfl

/-- An advance leads to the sum, if the calendar has it. -/
theorem advance_eq_ok_iff (hnow : now.Representable) :
    now.advance amount unit = .ok next ↔
      next.Representable ∧ next = now.plus (unit.spanOf amount) := by
  unfold advance
  constructor
  · intro h
    split at h
    · cases h
    · next span hspan =>
      cases TimeUnit.eq_spanOf_of_span? hspan
      split at h
      · cases h
      · next later hlater =>
        cases h
        obtain ⟨hwithin, heq⟩ := Reading.withinCalendar?_eq_some_iff.mp hlater
        exact ⟨heq ▸ hwithin, heq⟩
  · rintro ⟨hnext, rfl⟩
    rw [span?_of_representable hnow hnext]
    dsimp only
    rw [Reading.plus?, Reading.withinCalendar?_eq_some_iff.mpr ⟨hnext, rfl⟩]

/-- Two advances lead where one by both amounts leads, and succeed where that one does. -/
theorem advance_add_iff (hnow : now.Representable) (a b : Nat) :
    (∃ middle, now.advance a unit = .ok middle ∧ middle.advance b unit = .ok next) ↔
      now.advance (a + b) unit = .ok next := by
  have hplus : (now.plus (unit.spanOf a)).plus (unit.spanOf b) =
      now.plus (unit.spanOf (a + b)) := by
    rw [Reading.plus_plus now (unit.spanOf_millis_nonneg a) (unit.spanOf_millis_nonneg b),
      unit.spanOf_add]
  rw [advance_eq_ok_iff hnow, ← hplus]
  constructor
  · rintro ⟨middle, hfirst, hsecond⟩
    obtain ⟨hmiddle, rfl⟩ := (advance_eq_ok_iff hnow).mp hfirst
    exact (advance_eq_ok_iff hmiddle).mp hsecond
  · rintro ⟨hnext, rfl⟩
    have hmiddle : (now.plus (unit.spanOf a)).Representable :=
      hnow.between hnext (Reading.le_plus now (unit.spanOf_millis_nonneg a))
        (Reading.le_plus _ (unit.spanOf_millis_nonneg b))
    exact ⟨_, (advance_eq_ok_iff hnow).mpr ⟨hmiddle, rfl⟩,
      (advance_eq_ok_iff hmiddle).mpr ⟨hnext, rfl⟩⟩

theorem advanceTo_of_le (hle : now ≤ next) : now.advanceTo next = .ok next := by
  unfold advanceTo
  rw [if_neg (Reading.not_lt.mpr hle)]

end Instant

end Blackout
