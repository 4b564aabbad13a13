import Blackout.Proofs.Fallible
import Blackout.Proofs.Resolution
import Blackout.Window

/-!
# Reading windows

A window is asked at an instant and answers by what its clocks show. Where they show nothing it
breaks down, and that is the only case: whatever else fails is an error that is reported.
-/

namespace Blackout

namespace Zone

variable {zone : Zone} {now : Instant} {t : WallClock}

theorem wallClock?_eq_some_iff :
    zone.wallClock? now = some t ↔ zone.shows now = true ∧ t = zone.wallClock now := by
  unfold shows wallClock?
  rw [Option.isSome_iff_exists]
  simp only [Reading.withinCalendar?_eq_some_iff]
  constructor
  · rintro ⟨hin, rfl⟩
    exact ⟨⟨_, hin, rfl⟩, rfl⟩
  · rintro ⟨⟨_, hin, -⟩, ht⟩
    exact ⟨hin, ht⟩

theorem wallClock?_eq_none_iff : zone.wallClock? now = none ↔ zone.shows now = false := by
  unfold shows
  rw [Option.isSome_eq_false_iff, Option.isNone_iff_eq_none]

theorem shows_iff : zone.shows now = true ↔ (zone.wallClock now).Representable := by
  unfold shows wallClock?
  rw [Option.isSome_iff_exists]
  simp only [Reading.withinCalendar?_eq_some_iff, exists_and_left, exists_eq, and_true]

end Zone

namespace Window

variable {w : Window} {here : Zone} {now : Instant}

theorem readClock_eq_ok_iff {t : WallClock} : w.readClock here now = .ok t ↔
    (w.mode.zone here).shows now = true ∧ t = (w.mode.zone here).wallClock now := by
  unfold readClock
  rw [← Zone.wallClock?_eq_some_iff]
  cases (w.mode.zone here).wallClock? now <;> simp

theorem readClock_eq_error_iff {failure : Failure WindowError} :
    w.readClock here now = .error failure ↔
      (w.mode.zone here).shows now = false ∧ failure = .breakdown := by
  unfold readClock
  rw [← Zone.wallClock?_eq_none_iff]
  cases (w.mode.zone here).wallClock? now <;> simp [eq_comm]

theorem isActive_eq_ok_iff {active : Bool} : w.isActive here now = .ok active ↔
    (w.mode.zone here).shows now = true ∧
      w.schedule.contains? ((w.mode.zone here).wallClock now) = some active := by
  unfold isActive
  rw [bind_eq_ok]
  simp only [readClock_eq_ok_iff]
  constructor
  · rintro ⟨t, ⟨hshows, rfl⟩, h⟩
    refine ⟨hshows, ?_⟩
    split at h
    · next hactive =>
      cases h
      exact hactive
    · cases h
  · rintro ⟨hshows, hactive⟩
    refine ⟨_, ⟨hshows, rfl⟩, ?_⟩
    rw [hactive]
    rfl

theorem isActive_eq_breakdown_iff :
    w.isActive here now = .error .breakdown ↔ (w.mode.zone here).shows now = false := by
  unfold isActive
  rw [bind_eq_error, readClock_eq_error_iff, and_iff_left rfl]
  refine or_iff_left ?_
  rintro ⟨t, -, h⟩
  split at h <;> cases h

theorem nextEnd_eq_ok_iff {r : OffsetTime} : w.nextEnd here now = .ok r ↔
    (w.mode.zone here).shows now = true ∧
      ∃ e, w.schedule.nextEnd? ((w.mode.zone here).wallClock now) = some e ∧
        (w.mode.zone here).instantOf? e = some r := by
  unfold nextEnd
  rw [bind_eq_ok]
  simp only [readClock_eq_ok_iff]
  constructor
  · rintro ⟨t, ⟨hshows, rfl⟩, h⟩
    refine ⟨hshows, ?_⟩
    split at h
    · cases h
    · next e hend =>
      split at h
      · next hplaced =>
        cases h
        exact ⟨e, hend, hplaced⟩
      · cases h
  · rintro ⟨hshows, e, hend, hplaced⟩
    refine ⟨_, ⟨hshows, rfl⟩, ?_⟩
    rw [hend]
    dsimp only
    rw [hplaced]
    rfl

theorem nextEnd_eq_breakdown_iff :
    w.nextEnd here now = .error .breakdown ↔ (w.mode.zone here).shows now = false := by
  unfold nextEnd
  rw [bind_eq_error, readClock_eq_error_iff, and_iff_left rfl]
  refine or_iff_left ?_
  rintro ⟨t, -, h⟩
  split at h
  · cases h
  · split at h <;> cases h

end Window

end Blackout
