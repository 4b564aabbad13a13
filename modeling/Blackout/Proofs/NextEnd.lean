import Blackout.Proofs.Activity

/-!
# The next end

`Schedule.nextEnd?` looks from the previous cycle up to three cycles ahead. For daily, weekly
and monthly schedules what it finds is the least end after the reading of the non-empty
occurrences of the whole calendar. For annual schedules it is, unless the schedule lasts from
February 28 to 29 and is empty in common years: leap years can be further apart than the
search looks.
-/

namespace Blackout

open Calendar

namespace Schedule

variable {s : Schedule}

def endsAfter (s : Schedule) (t : WallClock) : Set WallClock :=
  {e | t < e ∧ ∃ o, s.Occurs o ∧ o.stop = e}

/-- Ends strictly after a reading, of the occurrences that are not empty. -/
def liveEndsAfter (s : Schedule) (t : WallClock) : Set WallClock :=
  {e | t < e ∧ ∃ o, s.Occurs o ∧ o.start < o.stop ∧ o.stop = e}

def Ahead (s : Schedule) (t : WallClock) (n : Int) : Prop := t < (s.nth n).stop

def Lasts (s : Schedule) (n : Int) : Prop := (s.nth n).start < (s.nth n).stop

def FirstOf (cycles : List Int) (P : Int → Prop) (n : Int) : Prop :=
  n ∈ cycles ∧ P n ∧ ∀ m ∈ cycles, P m → n ≤ m

/-! ### Ends in the order of the cycles -/

theorem stop_le_stop (hs : s.Legal) {m n : Int} (h : m ≤ n) :
    (s.nth m).stop ≤ (s.nth n).stop := by
  rw [← Reading.not_lt, stop_lt_stop_iff hs]
  omega

theorem stop_injective (hs : s.Legal) {m n : Int}
    (h : (s.nth m).stop = (s.nth n).stop) : m = n := by
  have hmn := stop_lt_stop_iff hs m n
  have hnm := stop_lt_stop_iff hs n m
  have hirrefl : ¬ (s.nth n).stop < (s.nth n).stop := Reading.not_lt.mpr (Reading.le_refl _)
  rw [h] at hmn hnm
  have h1 := mt hmn.mpr hirrefl
  have h2 := mt hnm.mpr hirrefl
  omega

theorem ahead_iff (s : Schedule) (t : WallClock) (n : Int) :
    s.Ahead t n ↔ t.seconds < 86400 * s.lastDay n + s.stopTime.seconds := lt_stop_iff s n t

theorem lasts_iff (s : Schedule) (n : Int) :
    s.Lasts n ↔ 86400 * s.firstDay n + (s.startTime.seconds : Int) <
      86400 * s.lastDay n + s.stopTime.seconds := lt_stop_iff s n _

theorem Ahead.mono (hs : s.Legal) {t : WallClock} {m n : Int} (h : s.Ahead t m) (hmn : m ≤ n) :
    s.Ahead t n := by
  have hdays := (lastDay_strictMono hs).monotone hmn
  rw [ahead_iff] at h ⊢
  omega

/-- The first cycle ahead is the one whose predecessor is not. -/
theorem le_of_ahead (hs : s.Legal) {t : WallClock} {m n : Int} (hn : ¬ s.Ahead t (n - 1))
    (hm : s.Ahead t m) : n ≤ m := by
  by_contra hlt
  exact hn (hm.mono hs (by omega))

theorem isLeast_endsAfter (hs : s.Legal) {t : WallClock} {n : Int} (hn : s.Ahead t n)
    (hmin : ∀ m, s.Ahead t m → n ≤ m) : IsLeast (s.endsAfter t) (s.nth n).stop := by
  refine ⟨⟨hn, _, s.occurs_nth n, rfl⟩, ?_⟩
  intro e hend
  obtain ⟨he, o, ho, rfl⟩ := hend
  obtain ⟨m, rfl⟩ := occurs_iff.mp ho
  exact stop_le_stop hs (hmin m he)

theorem isLeast_liveEndsAfter (hs : s.Legal) {t : WallClock} {n : Int} (hn : s.Ahead t n)
    (hlasts : s.Lasts n) (hmin : ∀ m, s.Ahead t m → s.Lasts m → n ≤ m) :
    IsLeast (s.liveEndsAfter t) (s.nth n).stop := by
  refine ⟨⟨hn, _, s.occurs_nth n, hlasts, rfl⟩, ?_⟩
  intro e hend
  obtain ⟨he, o, ho, hlive, rfl⟩ := hend
  obtain ⟨m, rfl⟩ := occurs_iff.mp ho
  exact stop_le_stop hs (hmin m he hlive)

/-! ### The search over cycles -/

theorem FirstOf.head {a : Int} {rest : List Int} {P : Int → Prop} (ha : P a)
    (hrest : ∀ m ∈ rest, a < m) : FirstOf (a :: rest) P a := by
  refine ⟨List.mem_cons_self, ha, fun m hm _ => ?_⟩
  rcases List.mem_cons.mp hm with rfl | hm
  · exact Int.le_refl m
  · exact (hrest m hm).le

theorem FirstOf.cons {a n : Int} {rest : List Int} {P : Int → Prop} (hn : FirstOf rest P n)
    (ha : ¬ P a) : FirstOf (a :: rest) P n := by
  obtain ⟨hmem, hP, hmin⟩ := hn
  refine ⟨List.mem_cons_of_mem a hmem, hP, fun m hm hPm => ?_⟩
  rcases List.mem_cons.mp hm with rfl | hm
  · exact absurd hPm ha
  · exact hmin m hm hPm

/-- What a search over cycles in order finds: the end of the first non-empty occurrence that
ends after the reading, or, if there is none, what was found before or the first end after
the reading. -/
theorem firstEnd?_eq_some {t e : WallClock} {cycles : List Int} {found : Option WallClock}
    (hsorted : cycles.Pairwise (· < ·)) (h : s.firstEnd? t cycles found = some e) :
    (∃ n, FirstOf cycles (fun m => s.Ahead t m ∧ s.Lasts m) n ∧ e = (s.nth n).stop) ∨
    (∀ n ∈ cycles, ¬ (s.Ahead t n ∧ s.Lasts n)) ∧ (found = some e ∨
      found = none ∧ ∃ n, FirstOf cycles (s.Ahead t) n ∧ e = (s.nth n).stop) := by
  induction cycles generalizing found with
  | nil => exact Or.inr ⟨fun n hn => absurd hn List.not_mem_nil, Or.inl h⟩
  | cons n rest ih =>
    obtain ⟨hbefore, hrest⟩ := List.pairwise_cons.mp hsorted
    obtain ⟨o, ho, h⟩ := Option.bind_eq_some_iff.mp h
    rw [occurrence?_eq_some ho] at h
    split at h
    · -- the occurrence has ended
      rename_i hended
      have hnot : ¬ s.Ahead t n := Reading.not_lt.mpr hended
      rcases ih hrest h with ⟨k, hk, he⟩ | ⟨hnone, hfound | ⟨hfound, k, hk, he⟩⟩
      · exact Or.inl ⟨k, hk.cons fun hlive => hnot hlive.1, he⟩
      · refine Or.inr ⟨List.forall_mem_cons.mpr ⟨fun hlive => hnot hlive.1, hnone⟩, Or.inl hfound⟩
      · exact Or.inr ⟨List.forall_mem_cons.mpr ⟨fun hlive => hnot hlive.1, hnone⟩,
          Or.inr ⟨hfound, k, hk.cons hnot, he⟩⟩
    · rename_i hended
      have hahead : s.Ahead t n := by
        rw [← Reading.not_lt, not_not] at hended
        exact hended
      split at h
      · rename_i hlasts
        exact Or.inl ⟨n, FirstOf.head ⟨hahead, hlasts⟩ hbefore, (Option.some.inj h).symm⟩
      · -- the occurrence is empty: its end is kept unless one was found before
        rename_i hlasts
        have hnot : ¬ (s.Ahead t n ∧ s.Lasts n) := fun hlive => hlasts hlive.2
        rcases ih hrest h with ⟨k, hk, he⟩ | ⟨hnone, hfound⟩
        · exact Or.inl ⟨k, hk.cons hnot, he⟩
        · refine Or.inr ⟨List.forall_mem_cons.mpr ⟨hnot, hnone⟩, ?_⟩
          cases found with
          | some earlier =>
            rcases hfound with hfound | ⟨hfound, -⟩
            · exact Or.inl hfound
            · cases hfound
          | none =>
            rcases hfound with hfound | ⟨hfound, -⟩
            · exact Or.inr ⟨rfl, n, FirstOf.head hahead hbefore, (Option.some.inj hfound).symm⟩
            · cases hfound

/-! ### The end that is found -/

/-- A non-empty occurrence that starts at most three cycles ahead ends after the reading. -/
def Sees (s : Schedule) (t : WallClock) : Prop :=
  ∃ n, n ≤ s.cycleOf t.day + 3 ∧ s.Ahead t n ∧ s.Lasts n

/-- What `nextEnd?` returns: the least end of the non-empty occurrences if it sees one of
them, or else the least end of all, which is then the end of an empty one. -/
def Finds (s : Schedule) (t e : WallClock) : Prop :=
  s.Sees t ∧ IsLeast (s.liveEndsAfter t) e ∨
    ¬ s.Sees t ∧ (∃ n, ¬ s.Lasts n ∧ e = (s.nth n).stop) ∧ IsLeast (s.endsAfter t) e

theorem finds_of_search (hs : s.Legal) {t e : WallClock} {c : Int} (hc : c = s.cycleOf t.day)
    (h : s.firstEnd? t [c - 1, c, c + 1, c + 2, c + 3] none = some e) : s.Finds t e := by
  have hsorted : [c - 1, c, c + 1, c + 2, c + 3].Pairwise (· < ·) := by
    simp only [List.pairwise_cons, List.forall_mem_cons, List.not_mem_nil, false_imp_iff,
      implies_true, List.Pairwise.nil, and_true]
    omega
  have hmem : ∀ m, m ∈ [c - 1, c, c + 1, c + 2, c + 3] ↔ c - 1 ≤ m ∧ m ≤ c + 3 := by
    intro m
    simp only [List.mem_cons, List.not_mem_nil, or_false]
    omega
  have hlow : ∀ m, s.Ahead t m → c - 1 ≤ m := by
    intro m hm
    by_contra hlt
    exact stop_le_of_lt hs (show m + 1 < s.cycleOf t.day by omega) hm
  rcases firstEnd?_eq_some hsorted h with
    ⟨n, ⟨hn, ⟨hahead, hlasts⟩, hmin⟩, rfl⟩ | ⟨hnone, hfound | ⟨-, n, ⟨hn, hahead, hmin⟩, rfl⟩⟩
  · rw [hmem] at hn
    refine Or.inl ⟨⟨n, by omega, hahead, hlasts⟩,
      isLeast_liveEndsAfter hs hahead hlasts fun m hm hlm => ?_⟩
    by_cases hhigh : m ≤ c + 3
    · exact hmin m ((hmem m).mpr ⟨hlow m hm, hhigh⟩) ⟨hm, hlm⟩
    · omega
  · cases hfound
  · refine Or.inr ⟨?_, ⟨n, fun hlasts => hnone n hn ⟨hahead, hlasts⟩, rfl⟩, ?_⟩
    · intro hsees
      obtain ⟨m, hm, hlive⟩ := hsees
      exact hnone m ((hmem m).mpr ⟨hlow m hlive.1, by omega⟩) hlive
    · refine isLeast_endsAfter hs hahead fun m hm => ?_
      rw [hmem] at hn
      by_cases hhigh : m ≤ c + 3
      · exact hmin m ((hmem m).mpr ⟨hlow m hm, hhigh⟩) hm
      · omega

theorem finds_of_uniform (hs : s.Legal) (huniform : ∀ m n, s.Lasts m → s.Lasts n)
    {t : WallClock} {n : Int} (hahead : s.Ahead t n) (hnot : ¬ s.Ahead t (n - 1)) :
    s.Finds t (s.nth n).stop := by
  by_cases hlasts : s.Lasts n
  · have hnear := le_of_ahead hs hnot (lt_stop_of_lt hs (Int.lt_succ (s.cycleOf t.day)))
    exact Or.inl ⟨⟨n, by omega, hahead, hlasts⟩,
      isLeast_liveEndsAfter hs hahead hlasts fun m hm _ => le_of_ahead hs hnot hm⟩
  · refine Or.inr ⟨?_, ⟨n, hlasts, rfl⟩,
      isLeast_endsAfter hs hahead fun m hm => le_of_ahead hs hnot hm⟩
    intro hsees
    obtain ⟨m, -, -, hm⟩ := hsees
    exact hlasts (huniform m n hm)

theorem daily_uniform (start stop : TimeOfDay) (m n : Int)
    (h : (daily start stop).Lasts m) : (daily start stop).Lasts n := by
  rw [lasts_iff] at h ⊢
  unfold firstDay lastDay at h ⊢
  dsimp only at h ⊢
  split at h
  · rename_i hle
    rw [if_pos hle]
    omega
  · rename_i hle
    rw [if_neg hle]
    omega

theorem daily_lastDay (start stop : TimeOfDay) :
    ∃ k, ∀ n, (daily start stop).lastDay n = n + k := by
  unfold lastDay
  dsimp only
  by_cases hle : start ≤ stop
  · exact ⟨0, fun n => by rw [if_pos hle, Int.add_zero]⟩
  · exact ⟨1, fun n => if_neg hle⟩

theorem weekly_uniform (startDay stopDay : Weekday) (start stop : TimeOfDay) (m n : Int)
    (h : (weekly startDay start stopDay stop).Lasts m) :
    (weekly startDay start stopDay stop).Lasts n := by
  rw [lasts_iff] at h ⊢
  unfold firstDay lastDay at h ⊢
  dsimp only at h ⊢
  omega

theorem finds_daily {start stop : TimeOfDay} (hs : (daily start stop).Legal) {t e : WallClock}
    (h : (daily start stop).nextEnd? t = some e) : (daily start stop).Finds t e := by
  have huniform := daily_uniform start stop
  have hday := t.day_spec
  have hsecond := t.secondOfDay_eq
  have hstop : stop.seconds < 86400 := hs.stopTime_lt
  obtain ⟨k, hk⟩ := daily_lastDay start stop
  -- some occurrence ends at the stop time of every day
  have hnth : ∀ day, ((daily start stop).nth (day - k)).stop = .onDay day stop := by
    intro day
    unfold nth
    rw [hk, Int.sub_add_cancel]
    rfl
  have hahead : ∀ day, (daily start stop).Ahead t (day - k) ↔
      t.seconds < 86400 * day + stop.seconds := by
    intro day
    rw [ahead_iff, hk, Int.sub_add_cancel]
    rfl
  have hprevious : ∀ day, day - k - 1 = day - 1 - k := by
    intro day
    omega
  unfold nextEnd? at h
  dsimp only at h
  split at h
  · rename_i hbefore
    cases h
    rw [← hnth]
    apply finds_of_uniform hs huniform
    · rw [hahead]
      omega
    · rw [hprevious, hahead]
      omega
  · rename_i hbefore
    obtain ⟨next, hnext, h⟩ := Option.bind_eq_some_iff.mp h
    cases h
    rw [withinCalendar?_eq_some hnext, ← hnth]
    apply finds_of_uniform hs huniform
    · rw [hahead]
      omega
    · rw [hprevious, hahead]
      omega

theorem finds_weekly {startDay stopDay : Weekday} {start stop : TimeOfDay}
    (hs : (weekly startDay start stopDay stop).Legal) {t e : WallClock} {n : Int}
    (hn : n = (weekly startDay start stopDay stop).cycleOf t.day)
    (h : (weekly startDay start stopDay stop).nextEnd? t = some e) :
    (weekly startDay start stopDay stop).Finds t e := by
  have huniform := weekly_uniform startDay stopDay start stop
  obtain ⟨o, ho, h⟩ := Option.bind_eq_some_iff.mp h
  rw [weeklyOccurrence?_eq_some ho, ← hn] at h
  split at h
  · rename_i hended
    have hnext := nth_plusDays_week startDay stopDay start stop n 1
    have hahead : (weekly startDay start stopDay stop).Ahead t (n + 1) :=
      lt_stop_of_lt hs (by omega)
    have hnot : ¬ (weekly startDay start stopDay stop).Ahead t (n + 1 - 1) := by
      rw [Int.add_sub_cancel]
      exact Reading.not_lt.mpr hended
    have hfinds := finds_of_uniform hs huniform hahead hnot
    rw [hnext] at hfinds
    rw [Reading.withinCalendar?_eq_some h]
    exact hfinds
  · rename_i hended
    cases h
    apply finds_of_uniform hs huniform
    · rw [← Reading.not_lt, not_not] at hended
      exact hended
    · -- last week's occurrence has ended before this week's start weekday
      have hedge := (edge_cycleOf (weekly startDay start stopDay stop) t.day).1
      have hfirst : (weekly startDay start stopDay stop).firstDay n =
        (weekly startDay start stopDay stop).edge n := rfl
      have hlast := weekly_lastDay_lt startDay stopDay start stop (n - 1)
      have hday := t.day_spec
      have htime := hs.stopTime_lt
      rw [Int.sub_add_cancel] at hlast
      rw [← hn] at hedge
      rw [ahead_iff]
      omega

theorem nextEnd?_eq_some (hs : s.Legal) {t e : WallClock} (h : s.nextEnd? t = some e) :
    s.Finds t e := by
  cases s with
  | daily start stop => exact finds_daily hs h
  | weekly startDay start stopDay stop => exact finds_weekly hs rfl h
  | monthly startDay start stopDay stop => exact finds_of_search hs rfl h
  | annual startDate start stopDate stop => exact finds_of_search hs rfl h

/-! ### Which non-empty occurrences are seen -/

theorem sees_of_lasts (hs : s.Legal) {t : WallClock} {n : Int} (hfrom : s.cycleOf t.day < n)
    (hto : n ≤ s.cycleOf t.day + 3) (hlasts : s.Lasts n) : s.Sees t :=
  ⟨n, hto, lt_stop_of_lt hs hfrom, hlasts⟩

theorem lasts_iff_days (hs : s.Legal) (n : Int) :
    s.Lasts n ↔ s.firstDay n < s.lastDay n ∨
      s.firstDay n = s.lastDay n ∧ s.startTime.seconds < s.stopTime.seconds := by
  have hstart := hs.startTime_lt
  have hstop := hs.stopTime_lt
  rw [lasts_iff]
  omega

/-- Of two months in a row one is long. -/
theorem lengthOf_long (index : Int) : lengthOf index = 31 ∨ lengthOf (index + 1) = 31 := by
  have hlo : 0 ≤ index % 12 := by omega
  have hhi : index % 12 < 12 := by omega
  have hnext : (index + 1) % 12 = (index % 12 + 1) % 12 := by omega
  unfold lengthOf
  rw [hnext]
  generalize index % 12 = month at hlo hhi
  interval_cases month <;> simp [monthLength]

/-- A monthly window that lasts in some month lasts in every long month. -/
theorem monthly_lasts {startDay stopDay : Nat} {start stop : TimeOfDay}
    (hs : (monthly startDay start stopDay stop).Legal) {m n : Int}
    (hm : (monthly startDay start stopDay stop).Lasts m) (hlong : lengthOf n = 31) :
    (monthly startDay start stopDay stop).Lasts n := by
  obtain ⟨hlo, hhi, hlo', hhi'⟩ := hs.daysExist
  rw [lasts_iff_days hs] at hm ⊢
  unfold firstDay lastDay startTime stopTime at hm ⊢
  dsimp only at hm ⊢
  by_cases hle : startDay ≤ stopDay
  · rw [if_pos hle] at hm ⊢
    rcases Nat.lt_or_ge startDay stopDay with hlt | hge
    · have hmono := dayIn_mono n hle
      have hapart := dayIn_eq_dayIn_iff n hlt
      omega
    · have hsame : startDay = stopDay := by omega
      subst hsame
      omega
  · have hlt := dayIn_lt_dayIn (show n < n + 1 by omega) startDay hlo'
    rw [if_neg hle]
    exact Or.inl hlt

/-- Three cycles ahead are enough for every schedule that is not annual. -/
theorem sees_of_kind_ne_annual (hs : s.Legal) (hkind : s.kind ≠ .annual) {m : Int}
    (hm : s.Lasts m) (t : WallClock) : s.Sees t := by
  cases s with
  | daily start stop =>
    exact sees_of_lasts hs (Int.lt_succ _) (by omega) (daily_uniform start stop m _ hm)
  | weekly startDay start stopDay stop =>
    exact sees_of_lasts hs (Int.lt_succ _) (by omega)
      (weekly_uniform startDay stopDay start stop m _ hm)
  | monthly startDay start stopDay stop =>
    rcases lengthOf_long ((monthly startDay start stopDay stop).cycleOf t.day + 1) with
      hlong | hlong
    · exact sees_of_lasts hs (by omega) (by omega) (monthly_lasts hs hm hlong)
    · exact sees_of_lasts hs (by omega) (by omega) (monthly_lasts hs hm hlong)
  | annual startDate start stopDate stop => exact absurd rfl hkind

/-! ### Annual windows that only leap years have -/

/-- An annual window that lasts in some year lasts in every year, except that one from
February 28 to 29 can be empty in common years. -/
theorem annual_lasts {startDate stopDate : MonthDay} {start stop : TimeOfDay}
    (hs : (annual startDate start stopDate stop).Legal) {m : Int}
    (hm : (annual startDate start stopDate stop).Lasts m) (n : Int) :
    (annual startDate start stopDate stop).Lasts n ∨
      startDate = ⟨2, 28⟩ ∧ stopDate = ⟨2, 29⟩ ∧ stop ≤ start ∧ isLeap n = false := by
  obtain ⟨hstartDate, hstopDate⟩ := hs.daysExist
  rw [lasts_iff_days hs] at hm ⊢
  unfold firstDay lastDay startTime stopTime at hm ⊢
  dsimp only at hm ⊢
  by_cases hwraps : startDate.after stopDate = true
  · have hfirst := (dayIn_year hstartDate n).2
    have hlast := (dayIn_year hstopDate (n + 1)).1
    rw [if_pos hwraps]
    omega
  · rw [if_neg hwraps] at hm ⊢
    by_cases hafter : stopDate.after startDate = true
    · obtain ⟨hle, hsame⟩ := dayIn_after hstopDate hstartDate hafter n
      by_cases hday : dayIn (monthIndex n startDate.month) startDate.day =
          dayIn (monthIndex n stopDate.month) stopDate.day
      · obtain ⟨hstop, hstart, hcommon⟩ := hsame.mp hday.symm
        rcases Nat.lt_or_ge start.seconds stop.seconds with hlt | hge
        · exact Or.inl (Or.inr ⟨hday, hlt⟩)
        · exact Or.inr ⟨hstart, hstop, hge, hcommon⟩
      · omega
    · have hdate : startDate = stopDate := MonthDay.eq_of_not_after hwraps hafter
      subst hdate
      omega

/-- The look-ahead of the search ends before the next leap day: the window lasts from
February 28 to 29, is empty in common years, and from the year of the reading up to three
years on every leap day's end has passed. -/
def Overlooks : Schedule → WallClock → Prop
  | daily _ _, _ => False
  | weekly _ _ _ _, _ => False
  | monthly _ _ _ _, _ => False
  | annual startDate start stopDate stop, t =>
    startDate = ⟨2, 28⟩ ∧ stopDate = ⟨2, 29⟩ ∧ stop ≤ start ∧
      ∀ year, t.date.year ≤ year → year ≤ t.date.year + 3 → isLeap year = true →
        .onDay (Date.mk year 2 29).dayNumber stop ≤ t

theorem lastDay_leap (start stop : TimeOfDay) {year : Int} (hleap : isLeap year = true) :
    (annual ⟨2, 28⟩ start ⟨2, 29⟩ stop).lastDay year = (Date.mk year 2 29).dayNumber := by
  have hlen : lengthOf (monthIndex year 2) = 29 := by
    rw [lengthOf_monthIndex year (by decide) (by decide)]
    unfold monthLength
    rw [hleap]
    rfl
  show dayIn (monthIndex year 2) 29 = _
  rw [dayIn_eq, hlen, monthStart_monthIndex year (by decide) (by decide)]
  rfl

/-- A window from February 28 to 29 that starts no earlier in the day than it ends lasts in leap
years only. -/
theorem isLeap_of_lasts {start stop : TimeOfDay} (hs : (annual ⟨2, 28⟩ start ⟨2, 29⟩ stop).Legal)
    (hle : stop ≤ start) {year : Int} (hlasts : (annual ⟨2, 28⟩ start ⟨2, 29⟩ stop).Lasts year) :
    isLeap year = true := by
  by_contra hcommon
  rw [Bool.not_eq_true] at hcommon
  obtain ⟨hstartDate, hstopDate⟩ := hs.daysExist
  obtain ⟨-, hsame⟩ := dayIn_after hstopDate hstartDate rfl year
  have hday := hsame.mpr ⟨rfl, rfl, hcommon⟩
  have htime : stop.seconds ≤ start.seconds := hle
  rw [lasts_iff_days hs] at hlasts
  unfold firstDay lastDay startTime stopTime at hlasts
  dsimp only at hlasts hday
  rw [if_neg (by decide), hday] at hlasts
  omega

theorem sees_iff_not_overlooks (hs : s.Legal) (hkind : s.kind = .annual) {m : Int}
    (hm : s.Lasts m) (t : WallClock) : s.Sees t ↔ ¬ s.Overlooks t := by
  cases s with
  | daily start stop => cases hkind
  | weekly startDay start stopDay stop => cases hkind
  | monthly startDay start stopDay stop => cases hkind
  | annual startDate start stopDate stop =>
    have hyear : t.date.year = (annual startDate start stopDate stop).cycleOf t.day := rfl
    constructor
    · intro hsees hoverlooks
      obtain ⟨n, hto, hahead, hlasts⟩ := hsees
      obtain ⟨rfl, rfl, hle, hpassed⟩ := hoverlooks
      have hleap := isLeap_of_lasts hs hle hlasts
      have hfrom : t.date.year ≤ n := by
        -- the occurrence of an earlier year has ended within that year
        by_contra hlt
        have hlast := (dayIn_year hs.daysExist.2 n).2
        have hnext : yearStart (n + 1) ≤ yearStart t.date.year :=
          yearStart_strictMono.monotone (by omega)
        have hstart : yearStart t.date.year ≤ t.day := (yearOf_spec t.day).1
        have hday := t.day_spec
        have htime := hs.stopTime_lt
        rw [ahead_iff, show lastDay _ n = dayIn (monthIndex n 2) 29 from rfl] at hahead
        dsimp only at hlast
        omega
      have hended := hpassed n hfrom (by omega) hleap
      rw [← lastDay_leap start stop hleap] at hended
      exact Reading.not_lt.mpr hended hahead
    · intro hnot
      by_contra hsees
      rcases annual_lasts hs hm (t.date.year + 1) with hlasts | ⟨rfl, rfl, hle, -⟩
      · exact hsees (sees_of_lasts hs (by omega) (by omega) hlasts)
      · refine hnot ⟨rfl, rfl, hle, fun year hfrom hto hleap => ?_⟩
        rcases annual_lasts hs hm year with hlasts | ⟨-, -, -, hcommon⟩
        · rw [← lastDay_leap start stop hleap, ← Reading.not_lt]
          exact fun hahead => hsees ⟨year, by omega, hahead, hlasts⟩
        · rw [hleap] at hcommon
          cases hcommon

end Schedule

/-! ### Windows -/

/-- **The next end is the least end.** What is found for a built daily, weekly or monthly
window is the least end strictly after the reading among the non-empty occurrences of the whole
calendar, and among all occurrences if every one is empty. -/
theorem Window.nextEnd?_isLeast {p q : Point} {trigger : Trigger} {mode : ZoneMode} {w : Window}
    (hw : Window.ofBounds p q trigger mode = .ok w) (hkind : w.kind ≠ .annual) {t e : WallClock}
    (h : w.schedule.nextEnd? t = some e) :
    ((∃ o, w.schedule.Occurs o ∧ o.start < o.stop) → IsLeast (w.schedule.liveEndsAfter t) e) ∧
      ((∀ o, w.schedule.Occurs o → ¬ o.start < o.stop) → IsLeast (w.schedule.endsAfter t) e) := by
  have hs := Window.legal_of_ofBounds hw
  have hfinds := Schedule.nextEnd?_eq_some hs h
  constructor
  · intro hlasts
    obtain ⟨o, ho, hlive⟩ := hlasts
    obtain ⟨m, rfl⟩ := Schedule.occurs_iff.mp ho
    have hsees := Schedule.sees_of_kind_ne_annual hs hkind hlive t
    exact (hfinds.resolve_right fun hblind => hblind.1 hsees).2
  · intro hempty
    refine (hfinds.resolve_left ?_).2.2
    intro hsees
    obtain ⟨⟨n, -, -, hlasts⟩, -⟩ := hsees
    exact hempty _ (w.schedule.occurs_nth n) hlasts

/-- In April the 30th at 22:00 until the 31st at 6:00 is empty: the search goes on to May. -/
theorem Window.nextEnd?_after_empty_month :
    ∃ w t e, Window.ofBounds ⟨none, some 22, none, some 30, none⟩
        ⟨none, some 6, none, some 31, none⟩ .all .utc = .ok w ∧ w.kind ≠ .annual ∧
      t = .onDay (Date.mk 2025 4 30).dayNumber ⟨10800⟩ ∧
      e = .onDay (Date.mk 2025 5 31).dayNumber ⟨21600⟩ ∧
      w.schedule.nextEnd? t = some e ∧ IsLeast (w.schedule.liveEndsAfter t) e := by
  have hw : Window.ofBounds ⟨none, some 22, none, some 30, none⟩
      ⟨none, some 6, none, some 31, none⟩ .all .utc =
        .ok ⟨_, _, .monthly 30 ⟨79200⟩ 31 ⟨21600⟩, .all, .utc⟩ := rfl
  have hend : (Schedule.monthly 30 ⟨79200⟩ 31 ⟨21600⟩).nextEnd?
      (.onDay (Date.mk 2025 4 30).dayNumber ⟨10800⟩) =
        some (.onDay (Date.mk 2025 5 31).dayNumber ⟨21600⟩) := by decide
  have hleast := (Window.nextEnd?_isLeast hw (by decide) hend).1
  exact ⟨_, _, _, hw, by decide, rfl, rfl, hend,
    hleast ⟨_, .monthly (monthIndex 2025 5), by decide⟩⟩

/-- **The next end of annual windows.** For a built annual window that has a non-empty
occurrence, what is found is the least end strictly after the reading among the non-empty
occurrences of all years, unless the look-ahead overlooks the next leap day: then it is the end
of an empty occurrence and not the end of any that lasts. -/
theorem Window.nextEnd?_annual {p q : Point} {trigger : Trigger} {mode : ZoneMode} {w : Window}
    (hw : Window.ofBounds p q trigger mode = .ok w) (hkind : w.kind = .annual)
    (hlive : ∃ o, w.schedule.Occurs o ∧ o.start < o.stop) {t e : WallClock}
    (h : w.schedule.nextEnd? t = some e) :
    (¬ w.schedule.Overlooks t → IsLeast (w.schedule.liveEndsAfter t) e) ∧
      (w.schedule.Overlooks t →
        (∃ o, w.schedule.Occurs o ∧ ¬ o.start < o.stop ∧ o.stop = e) ∧
          ∀ o, w.schedule.Occurs o → o.start < o.stop → o.stop ≠ e) := by
  have hs := Window.legal_of_ofBounds hw
  obtain ⟨o, ho, hlasts⟩ := hlive
  obtain ⟨m, rfl⟩ := Schedule.occurs_iff.mp ho
  have hsees := Schedule.sees_iff_not_overlooks hs hkind hlasts t
  have hfinds := Schedule.nextEnd?_eq_some hs h
  constructor
  · intro hnot
    exact (hfinds.resolve_right fun hblind => hblind.1 (hsees.mpr hnot)).2
  · intro hoverlooks
    obtain ⟨-, ⟨n, hempty, rfl⟩, -⟩ :=
      hfinds.resolve_left fun hfound => hsees.mp hfound.1 hoverlooks
    refine ⟨⟨_, w.schedule.occurs_nth n, hempty, rfl⟩, ?_⟩
    intro o ho hlive hsame
    obtain ⟨k, rfl⟩ := Schedule.occurs_iff.mp ho
    rw [Schedule.stop_injective hs hsame] at hlive
    exact hempty hlive

/-- February 28 at 22:00 until February 29 at 6:00, asked in June of a leap year: the answer is
the end of the empty occurrence of the next year, three years too early. -/
theorem Window.nextEnd?_overlooks_leap_day :
    ∃ w t e, Window.ofBounds ⟨none, some 22, none, some 28, some 2⟩
        ⟨none, some 6, none, some 29, some 2⟩ .all .utc = .ok w ∧ w.kind = .annual ∧
      (∃ o, w.schedule.Occurs o ∧ o.start < o.stop) ∧
      t = .onDay (Date.mk 2024 6 1).dayNumber ⟨0⟩ ∧
      e = .onDay (Date.mk 2025 2 28).dayNumber ⟨21600⟩ ∧
      w.schedule.nextEnd? t = some e ∧
      ∀ o, w.schedule.Occurs o → o.start < o.stop → o.stop ≠ e := by
  have hw : Window.ofBounds ⟨none, some 22, none, some 28, some 2⟩
      ⟨none, some 6, none, some 29, some 2⟩ .all .utc =
        .ok ⟨_, _, .annual ⟨2, 28⟩ ⟨79200⟩ ⟨2, 29⟩ ⟨21600⟩, .all, .utc⟩ := rfl
  have hlive : ∃ o, (Schedule.annual ⟨2, 28⟩ ⟨79200⟩ ⟨2, 29⟩ ⟨21600⟩).Occurs o ∧ o.start < o.stop :=
    ⟨_, .annual 2024, by decide⟩
  have hend : (Schedule.annual ⟨2, 28⟩ ⟨79200⟩ ⟨2, 29⟩ ⟨21600⟩).nextEnd?
      (.onDay (Date.mk 2024 6 1).dayNumber ⟨0⟩) =
        some (.onDay (Date.mk 2025 2 28).dayNumber ⟨21600⟩) := by decide
  have hoverlooks : (Schedule.annual ⟨2, 28⟩ ⟨79200⟩ ⟨2, 29⟩ ⟨21600⟩).Overlooks
      (.onDay (Date.mk 2024 6 1).dayNumber ⟨0⟩) := by
    refine ⟨rfl, rfl, by decide, fun year hfrom hto hleap => ?_⟩
    have hfrom : 2024 ≤ year := hfrom
    have hto : year ≤ 2027 := hto
    interval_cases year
    · decide
    · cases hleap
    · cases hleap
    · cases hleap
  exact ⟨_, _, _, hw, rfl, hlive, rfl, rfl, hend,
    ((Window.nextEnd?_annual hw rfl hlive hend).2 hoverlooks).2⟩

end Blackout
