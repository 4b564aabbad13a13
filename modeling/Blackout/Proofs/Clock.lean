import Blackout.Clock
import Blackout.Proofs.Recurrence

/-!
# The clock never moves backward

Readings are ordered by their seconds and then by the nanoseconds within the second, leap seconds
last. A span that does not lead backward never makes a reading earlier, whether it leaves a
leap second or stays in it, so no advance of the clock does.
-/

namespace Blackout

namespace Reading

variable {scale : Scale} {a b c : Reading scale}

/-! ### Order -/

theorem lt_iff : a < b ↔ a.seconds < b.seconds ∨ a.seconds = b.seconds ∧ a.nanos < b.nanos :=
  Iff.rfl

theorem le_iff : a ≤ b ↔ a.seconds < b.seconds ∨ a.seconds = b.seconds ∧ a.nanos ≤ b.nanos :=
  Iff.rfl

theorem le_trans (hab : a ≤ b) (hbc : b ≤ c) : a ≤ c := by
  rw [le_iff] at hab hbc ⊢
  omega

theorem lt_of_le_of_lt (hab : a ≤ b) (hbc : b < c) : a < c := by
  rw [le_iff] at hab
  rw [lt_iff] at hbc ⊢
  omega

theorem lt_of_lt_of_le (hab : a < b) (hbc : b ≤ c) : a < c := by
  rw [lt_iff] at hab ⊢
  rw [le_iff] at hbc
  omega

theorem le_of_lt (h : a < b) : a ≤ b := by
  rw [lt_iff] at h
  rw [le_iff]
  omega

theorem le_antisymm (hab : a ≤ b) (hba : b ≤ a) : a = b := by
  obtain ⟨seconds, nanos⟩ := a
  obtain ⟨seconds', nanos'⟩ := b
  rw [le_iff] at hab hba
  dsimp only at hab hba
  have hseconds : seconds = seconds' := by omega
  have hnanos : nanos = nanos' := by omega
  rw [hseconds, hnanos]

/-! ### Spans that lead forward -/

/-- Nanoseconds beyond a second are carried into the seconds, and none are lost. -/
theorem le_carry {seconds nanos : Int} {r : Reading scale}
    (h : r.seconds < seconds + nanos / 1000000000 ∨
      r.seconds = seconds + nanos / 1000000000 ∧ (r.nanos : Int) ≤ nanos % 1000000000) :
    r ≤ carry seconds nanos := by
  unfold carry nanosPerSecond
  rw [le_iff]
  dsimp only
  omega

theorem le_plus (r : Reading scale) {span : Span} (hspan : 0 ≤ span.millis) :
    r ≤ r.plus span := by
  have hseconds : 0 ≤ span.millis.tdiv 1000 := Int.tdiv_nonneg hspan (by decide)
  have hnanos : 0 ≤ span.millis.tmod 1000 := Int.tmod_nonneg 1000 hspan
  unfold plus
  dsimp only
  split
  · rename_i hleap
    have hleap : 1000000000 ≤ r.nanos := of_decide_eq_true hleap
    unfold nanosPerSecond
    split
    · -- the leap second is left, so at least one second is carried or added
      apply le_carry
      omega
    · rw [if_neg (by omega), le_iff]
      dsimp only
      omega
  · rename_i hleap
    have hleap : ¬ 1000000000 ≤ r.nanos := fun h => hleap (decide_eq_true h)
    apply le_carry
    omega

end Reading

/-! ### Advancing the clock -/

namespace Instant

variable {now next : Instant}

theorem le_of_advance {amount : Nat} {unit : TimeUnit} (h : now.advance amount unit = .ok next) :
    now ≤ next := by
  unfold advance at h
  split at h
  · cases h
  · rename_i span hspan
    split at h
    · cases h
    · rename_i later hlater
      cases h
      have hforward : 0 ≤ span.millis := by
        unfold TimeUnit.span? at hspan
        split at hspan
        · cases hspan
          exact Int.natCast_nonneg _
        · cases hspan
      rw [Reading.withinCalendar?_eq_some hlater]
      exact Reading.le_plus now hforward

theorem le_of_advanceTo {target : Instant} (h : now.advanceTo target = .ok next) :
    now ≤ next := by
  unfold advanceTo at h
  split at h
  · cases h
  · rename_i hbackward
    cases h
    exact Reading.not_lt.mp hbackward

end Instant

end Blackout
