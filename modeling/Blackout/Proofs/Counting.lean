import Blackout.Proofs.Advance
import Blackout.Proofs.Run

/-!
# The clock counts exactly

A clock that is not in a leap second is advanced by an amount of a unit exactly if the calendar has
the sum, and then it shows the sum, both counted in nanoseconds without any limit. In every state
that a run of a session can lead to, from within a leap second too, the clock has not gone back, an
advance by nothing leaves it, it moves to exactly the times that are not before it, and a call that
fails changes nothing.
-/

namespace Blackout

/-! ### Nanoseconds -/

/-- Nanoseconds since 1970-01-01T00:00:00. A leap second counts on from the second before. -/
def Reading.nanoseconds {scale : Scale} (r : Reading scale) : Int :=
  1000000000 * r.seconds + r.nanos

def TimeUnit.nanoseconds : TimeUnit → Int
  | milliseconds => 1000000
  | seconds => 1000000000
  | minutes => 60 * 1000000000
  | hours => 3600 * 1000000000
  | days => 86400 * 1000000000

/-- The last instant of the calendar that is not in a leap second. -/
def Instant.last : Instant := ⟨daySeconds * (Calendar.lastDay + 1) - 1, 999999999⟩

namespace Reading

variable {scale : Scale} {r : Reading scale}

theorem isLeapSecond_eq_false_iff : r.isLeapSecond = false ↔ r.nanos < 1000000000 := by
  unfold isLeapSecond nanosPerSecond
  rw [decide_eq_false_iff_not]
  omega

theorem nanoseconds_carry (seconds nanos : Int) :
    (carry seconds nanos : Reading scale).isLeapSecond = false ∧
      (carry seconds nanos : Reading scale).nanoseconds = 1000000000 * seconds + nanos := by
  rw [isLeapSecond_eq_false_iff]
  unfold nanoseconds carry nanosPerSecond
  dsimp only
  omega

theorem nanoseconds_plus (hleap : r.isLeapSecond = false) (span : Span) :
    (r.plus span).isLeapSecond = false ∧
      (r.plus span).nanoseconds = r.nanoseconds + 1000000 * span.millis := by
  have hnanos := isLeapSecond_eq_false_iff.mp hleap
  rw [plus_of_not_leap (by omega)]
  refine ⟨(nanoseconds_carry _ _).1, (nanoseconds_carry _ _).2.trans ?_⟩
  unfold nanoseconds
  omega

theorem plus_zero (r : Reading scale) : r.plus ⟨0⟩ = r := by
  by_cases hleap : 1000000000 ≤ r.nanos
  · rw [plus_of_stays hleap (Int.le_refl 0) (.inl rfl)]
    simp
  · rw [plus_of_not_leap hleap]
    unfold carry nanosPerSecond
    cases r
    rw [Reading.mk.injEq]
    dsimp only at hleap ⊢
    omega

end Reading

theorem TimeUnit.nanoseconds_spanOf (unit : TimeUnit) (amount : Nat) :
    1000000 * (unit.spanOf amount).millis = amount * unit.nanoseconds := by
  cases unit <;> simp [spanOf, millis, nanoseconds] <;> omega

namespace Instant

variable {now : Instant} {amount : Nat} {unit : TimeUnit}

/-- Of the instants after one of the calendar and in no leap second, the calendar has those up to
the last one. -/
theorem representable_iff_le_last {r : Instant} (hnow : now.Representable) (hle : now ≤ r)
    (hleap : r.isLeapSecond = false) :
    r.Representable ↔ r.nanoseconds ≤ last.nanoseconds := by
  rw [Reading.isLeapSecond_eq_false_iff] at hleap
  rw [Reading.representable_iff] at hnow ⊢
  rw [Reading.le_iff] at hle
  unfold Reading.nanoseconds last daySeconds Calendar.lastDay
  dsimp only
  omega

theorem exists_advance_iff (hnow : now.Representable) (hleap : now.isLeapSecond = false) :
    (∃ next, now.advance amount unit = .ok next) ↔
      now.nanoseconds + amount * unit.nanoseconds ≤ last.nanoseconds := by
  obtain ⟨hnext, hsum⟩ := Reading.nanoseconds_plus hleap (unit.spanOf amount)
  have hle := now.le_plus (unit.spanOf_millis_nonneg amount)
  rw [← unit.nanoseconds_spanOf, ← hsum, ← representable_iff_le_last hnow hle hnext]
  constructor
  · rintro ⟨next, h⟩
    obtain ⟨hin, rfl⟩ := (advance_eq_ok_iff hnow).mp h
    exact hin
  · exact fun hin => ⟨_, (advance_eq_ok_iff hnow).mpr ⟨hin, rfl⟩⟩

theorem nanoseconds_of_advance {next : Instant} (hnow : now.Representable)
    (hleap : now.isLeapSecond = false) (h : now.advance amount unit = .ok next) :
    next.isLeapSecond = false ∧
      next.nanoseconds = now.nanoseconds + amount * unit.nanoseconds := by
  obtain ⟨-, rfl⟩ := (advance_eq_ok_iff hnow).mp h
  rw [← unit.nanoseconds_spanOf]
  exact Reading.nanoseconds_plus hleap (unit.spanOf amount)

theorem advance_zero (hnow : now.Representable) (unit : TimeUnit) :
    now.advance 0 unit = .ok now := by
  have hspan : unit.spanOf 0 = ⟨0⟩ := by
    unfold TimeUnit.spanOf
    rw [Nat.zero_mul]
    rfl
  refine (advance_eq_ok_iff hnow).mpr ⟨hnow, ?_⟩
  rw [hspan, now.plus_zero]

theorem advanceTo_eq_ok_iff {target next : Instant} :
    now.advanceTo target = .ok next ↔ now ≤ target ∧ next = target := by
  unfold advanceTo
  rw [← Reading.not_lt]
  split
  · next hlt => simp [hlt]
  · next hle => simp [hle, eq_comm]

end Instant

/-! ### Runs -/

namespace Session

variable {α : Type} {here : Zone} {start session : Session α} {ops : List (Operation α)}

/-- What a call of the clock leaves where the clock has moved so: the new time, or if it has failed
the session as it was. -/
def Follows (session : Session α) (outcome : Outcome α) : Except ClockError Instant → Prop
  | .ok now => (∃ events, outcome.1 = .ok events) ∧ outcome.2.now = now
  | .error e => outcome = (.error (.reported (.clock e)), session)

theorem follows_moveClock (session : Session α) (moved : Except ClockError Instant) :
    session.Follows (session.moveClock moved) moved := by
  cases moved with
  | ok now => exact ⟨⟨_, rfl⟩, rfl⟩
  | error e => rfl

theorem representable_perform (hnow : session.now.Representable) {op : Operation α}
    (htarget : ∀ target, op = .advanceTo target → target.Representable) :
    (session.perform here op).2.now.Representable := by
  have hmove : ∀ moved, (∀ now, moved = .ok now → now.Representable) →
      (session.moveClock moved).2.now.Representable := by
    intro moved hmoved
    rcases session.moveClock_cases moved with ⟨now, hok, h⟩ | ⟨e, -, h⟩
    · rw [h]
      exact hmoved now hok
    · rwa [h]
  cases op with
  | process batch =>
    rw [perform, (processMatches_registry_now here batch session).2]
    exact hnow
  | advance amount unit =>
    exact hmove _ fun now hok => ((Instant.advance_eq_ok_iff hnow).mp hok).1
  | advanceTo target =>
    refine hmove _ fun now hok => ?_
    rw [(Instant.advanceTo_eq_ok_iff.mp hok).2]
    exact htarget target rfl

theorem representable_after (hstart : start.now.Representable)
    (htargets : ∀ target, Operation.advanceTo target ∈ ops → target.Representable) :
    (start.after here ops).now.Representable := by
  induction ops generalizing start with
  | nil => exact hstart
  | cons op rest ih =>
    refine ih (representable_perform hstart fun target hop => ?_) fun target hmem => ?_
    · exact htargets target (hop ▸ List.mem_cons_self)
    · exact htargets target (List.mem_cons_of_mem op hmem)

/-- **The clock counts exactly, never goes back and fails without a trace.** From any session with a
time of the calendar, in a leap second or not, any run of operations that succeed or fail and move
the clock to times of the calendar leads to a session whose clock is not earlier. Unless it is in a
leap second, an advance succeeds exactly if the sum in nanoseconds is not beyond the last instant,
and leads to the sum. An advance by nothing leaves the clock, and it moves to a time exactly if that
is not earlier. The session's own clock follows, and a call that fails leaves the session as it
was. -/
theorem after_counts_exactly (hstart : start.now.Representable)
    (htargets : ∀ target, Operation.advanceTo target ∈ ops → target.Representable)
    (hrun : start.after here ops = session) :
    start.now ≤ session.now ∧
    (session.now.isLeapSecond = false → ∀ amount unit,
      ((∃ next, session.now.advance amount unit = .ok next) ↔
        session.now.nanoseconds + amount * unit.nanoseconds ≤ Instant.last.nanoseconds) ∧
      ∀ next, session.now.advance amount unit = .ok next → next.isLeapSecond = false ∧
        next.nanoseconds = session.now.nanoseconds + amount * unit.nanoseconds) ∧
    (∀ unit, session.now.advance 0 unit = .ok session.now) ∧
    (∀ target next, session.now.advanceTo target = .ok next ↔
      session.now ≤ target ∧ next = target) ∧
    (∀ amount unit,
      session.Follows (session.advance amount unit) (session.now.advance amount unit)) ∧
    ∀ target, session.Follows (session.advanceTo target) (session.now.advanceTo target) := by
  subst hrun
  have hnow : (start.after here ops).now.Representable := representable_after hstart htargets
  refine ⟨le_after_now ops, fun hleap amount unit => ?_, Instant.advance_zero hnow, ?_, ?_, ?_⟩
  · exact ⟨Instant.exists_advance_iff hnow hleap,
      fun next => Instant.nanoseconds_of_advance hnow hleap⟩
  · exact fun target next => Instant.advanceTo_eq_ok_iff
  · exact fun amount unit => follows_moveClock _ _
  · exact fun target => follows_moveClock _ _

/-- Half a second into the leap second at the end of 2016. -/
def endOf2016 : Session Unit := .start .empty ⟨1483228799, 1500000000⟩

/-- A move to 1970 and an advance by too many days are refused. The other two advances stay in the
leap second and leave it, and the clock cannot be advanced by the greatest amount from there. -/
theorem after_counts_exactly_leap_second :
    ∃ (ops : List (Operation Unit)) (session : Session Unit), ops =
        [.advanceTo ⟨0, 0⟩, .advance 400 .milliseconds, .advance 0xffffffffffffffff .days,
          .advance 200 .milliseconds] ∧
      endOf2016.now.isLeapSecond = true ∧ endOf2016.now.Representable ∧
      (∀ target, Operation.advanceTo target ∈ ops → target.Representable) ∧
      endOf2016.after .universal ops = session ∧ session.now = ⟨1483228800, 100000000⟩ ∧
      endOf2016.now ≤ session.now ∧
      ¬ ∃ next, session.now.advance 0xffffffffffffffff .milliseconds = .ok next := by
  have hstart : endOf2016.now.Representable := (Reading.representable_iff _).mpr (by decide)
  have htargets : ∀ target : Instant, Operation.advanceTo target ∈
      [.advanceTo ⟨0, 0⟩, .advance 400 .milliseconds, .advance 0xffffffffffffffff .days,
        (.advance 200 .milliseconds : Operation Unit)] → target.Representable := by
    intro target hmem
    have htarget : target = ⟨0, 0⟩ := by simpa using hmem
    rw [htarget]
    exact (Reading.representable_iff _).mpr (by decide)
  obtain ⟨hle, hsum, -⟩ :=
    after_counts_exactly hstart htargets (rfl : endOf2016.after .universal _ = _)
  have hsum := (hsum rfl 0xffffffffffffffff .milliseconds).1
  exact ⟨_, _, rfl, rfl, hstart, htargets, rfl, by decide +kernel, hle, hsum.not.mpr (by decide)⟩

end Session

end Blackout
