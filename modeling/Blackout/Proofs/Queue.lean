import Mathlib.Logic.Basic
import Blackout.Session.Queue

/-!
# The queue of deferred matches

A queue is known by the entry it has for each rule. A deferral changes the entry of its own rule
only. A flush removes exactly the entries of listed rules that are due, those that wait for an
end strictly before the clock, and releases one selection for each of them.
-/

namespace Blackout

/-! ### Triggers -/

/-- What a trigger hands on of withheld matches: all of them, only the first or only the last. -/
inductive Trigger.Selects {α : Type} : Trigger → List α → List α → Prop where
  | all (withheld : List α) : Selects .all withheld withheld
  | first (head : α) (rest : List α) : Selects .first (head :: rest) [head]
  | last (front : List α) (last : α) : Selects .last (front ++ [last]) [last]

theorem Trigger.selects_select {α : Type} (trigger : Trigger) {withheld : List α}
    (hsome : withheld ≠ []) :
    trigger.Selects withheld (trigger.select withheld) ∧
      1 ≤ (trigger.select withheld).length := by
  cases trigger with
  | all => exact ⟨.all withheld, List.length_pos_iff.mpr hsome⟩
  | first =>
    cases withheld with
    | nil => exact absurd rfl hsome
    | cons head rest => exact ⟨.first head rest, Nat.le_refl 1⟩
  | last =>
    rw [← List.dropLast_concat_getLast hsome]
    unfold select
    dsimp only
    rw [List.getLast?_concat]
    exact ⟨.last _ _, Nat.le_refl 1⟩

namespace Queue

variable {α : Type} {queue : Queue α} {rule r : String}

/-! ### Entries -/

theorem lookup_cons_of_ne {β : Type} {name : String} (hne : r ≠ name) (value : β)
    (rest : List (String × β)) : ((name, value) :: rest).lookup r = rest.lookup r := by
  rw [List.lookup_cons, beq_eq_false_iff_ne.mpr hne]

theorem lookup_filter {β : Type} (keeps : String → Bool) (entries : List (String × β))
    (r : String) :
    (entries.filter fun entry => keeps entry.1).lookup r =
      if keeps r then entries.lookup r else none := by
  induction entries with
  | nil => simp
  | cons entry rest ih =>
    obtain ⟨name, value⟩ := entry
    by_cases hname : keeps name = true
    · rw [List.filter_cons_of_pos (by exact hname)]
      by_cases hr : r = name
      · subst hr
        rw [List.lookup_cons_self, List.lookup_cons_self, if_pos hname]
      · rw [lookup_cons_of_ne hr, lookup_cons_of_ne hr, ih]
    · rw [List.filter_cons_of_neg (by exact hname), ih]
      split
      · next hr =>
        have hne : r ≠ name := fun h => hname (h ▸ hr)
        rw [lookup_cons_of_ne hne]
      · rfl

theorem get?_erase (queue : Queue α) (rule r : String) :
    (queue.erase rule).get? r = if r = rule then none else queue.get? r := by
  refine (lookup_filter (fun name => name != rule) queue.entries r).trans ?_
  by_cases hr : r = rule
  · rw [if_pos hr, if_neg (by simpa using hr)]
  · rw [if_neg hr, if_pos (by simpa using hr)]
    rfl

theorem get?_set (queue : Queue α) (rule r : String) (entry : Withheld α) :
    (queue.set rule entry).get? r = if r = rule then some entry else queue.get? r := by
  by_cases hr : r = rule
  · subst hr
    rw [if_pos rfl]
    exact List.lookup_cons_self
  · have herase := queue.get?_erase rule r
    rw [if_neg hr] at herase ⊢
    rw [← herase]
    exact lookup_cons_of_ne hr entry _

/-- Matches withheld for a rule, none if it has no entry. -/
def withheld (queue : Queue α) (rule : String) : List α :=
  match queue.get? rule with
  | some entry => entry.matches_
  | none => []

theorem withheld_of_get? {entry : Withheld α} (h : queue.get? rule = some entry) :
    queue.withheld rule = entry.matches_ := by
  unfold withheld
  rw [h]

theorem get?_push (queue : Queue α) (rule r : String) (token : α) (stop : OffsetTime) :
    (queue.push rule token stop).get? r =
      if r = rule then some ⟨stop, queue.withheld rule ++ [token]⟩ else queue.get? r :=
  queue.get?_set rule r _

theorem withheld_of_get?_eq_none (h : queue.get? rule = none) : queue.withheld rule = [] := by
  unfold withheld
  rw [h]

theorem exists_of_withheld_ne_nil (h : queue.withheld rule ≠ []) :
    ∃ entry, queue.get? rule = some entry := by
  cases hentry : queue.get? rule with
  | none => exact absurd (withheld_of_get?_eq_none hentry) h
  | some entry => exact ⟨entry, rfl⟩

theorem get?_erase_eq_some {entry : Withheld α} (h : (queue.erase rule).get? r = some entry) :
    r ≠ rule ∧ queue.get? r = some entry := by
  rw [get?_erase] at h
  split at h
  · cases h
  · next hr => exact ⟨hr, h⟩

theorem get?_push_eq_some {token : α} {stop : OffsetTime} {entry : Withheld α}
    (h : (queue.push rule token stop).get? r = some entry) :
    r = rule ∧ entry = ⟨stop, queue.withheld rule ++ [token]⟩ ∨
      r ≠ rule ∧ queue.get? r = some entry := by
  rw [get?_push] at h
  split at h
  · next hr =>
    cases h
    exact .inl ⟨hr, rfl⟩
  · next hr => exact .inr ⟨hr, h⟩

theorem withheld_push (queue : Queue α) (rule r : String) (token : α) (stop : OffsetTime) :
    (queue.push rule token stop).withheld r =
      if r = rule then queue.withheld rule ++ [token] else queue.withheld r := by
  by_cases hr : r = rule
  · rw [if_pos hr]
    exact withheld_of_get? ((get?_push ..).trans (if_pos hr))
  · rw [if_neg hr, withheld, get?_push, if_neg hr, withheld]

theorem pendingCount_push (queue : Queue α) (rule : String) (token : α) (stop : OffsetTime) :
    (queue.push rule token stop).pendingCount rule = (queue.withheld rule).length + 1 := by
  unfold pendingCount
  rw [get?_push, if_pos rfl]
  simp

theorem mem_pendingRules_iff {registry : Registry} {p : PendingRule} :
    p ∈ queue.pendingRules registry ↔ p.rule ∈ registry.entries.map Prod.fst ∧
      ∃ entry, queue.get? p.rule = some entry ∧ p.count = entry.matches_.length ∧
        p.stop = entry.stop := by
  unfold pendingRules
  rw [List.mem_filterMap]
  constructor
  · rintro ⟨listed, hlisted, hp⟩
    obtain ⟨entry, hentry, rfl⟩ := Option.map_eq_some_iff.mp hp
    exact ⟨List.mem_map_of_mem hlisted, entry, hentry, rfl, rfl⟩
  · rintro ⟨hlisted, entry, hentry, hcount, hstop⟩
    obtain ⟨⟨rule, window⟩, hmem, rfl⟩ := List.mem_map.mp hlisted
    refine ⟨(p.rule, window), hmem, ?_⟩
    dsimp only at hentry ⊢
    rw [hentry, Option.map_some, ← hcount, ← hstop]

/-! ### Deferring -/

theorem defer_eq_ok {here : Zone} {registry : Registry} {later : Queue α} {token : α}
    {now : Instant} {stop : OffsetTime}
    (h : queue.defer here registry rule token now = .ok (stop, later)) :
    ∃ window, registry.get? rule = some window ∧ window.nextEnd here now = .ok stop ∧
      later = queue.push rule token stop := by
  unfold defer at h
  split at h
  · cases h
  · next window hwindow =>
    split at h
    · cases h
    · next hend =>
      cases h
      exact ⟨window, hwindow, hend, rfl⟩

/-! ### Flushing -/

variable {now : Instant} {window : Window} {rules : List (String × Window)}

def Due (queue : Queue α) (now : Instant) (rule : String) : Prop :=
  ∃ entry, queue.get? rule = some entry ∧ entry.stop.instant < now

theorem due_erase_iff (hne : r ≠ rule) : (queue.erase rule).Due now r ↔ queue.Due now r := by
  unfold Due
  rw [get?_erase, if_neg hne]

theorem not_due_erase (queue : Queue α) (now : Instant) (rule : String) :
    ¬ (queue.erase rule).Due now rule := by
  intro hdue
  obtain ⟨entry, hentry, -⟩ := hdue
  rw [get?_erase, if_pos rfl] at hentry
  cases hentry

theorem flushRules_of_due {entry : Withheld α} (hentry : queue.get? rule = some entry)
    (hdue : entry.stop.instant < now) :
    flushRules now ((rule, window) :: rules) queue =
      (⟨rule, window.trigger.select entry.matches_⟩ :: (flushRules now rules (queue.erase rule)).1,
        (flushRules now rules (queue.erase rule)).2) := by
  rw [flushRules, hentry]
  dsimp only
  rw [if_pos hdue]

theorem flushRules_of_not_due (hnot : ¬ queue.Due now rule) :
    flushRules now ((rule, window) :: rules) queue = flushRules now rules queue := by
  rw [flushRules]
  cases hentry : queue.get? rule with
  | none => rfl
  | some entry =>
    dsimp only
    rw [if_neg fun hdue => hnot ⟨entry, hentry, hdue⟩]

theorem flushRules_of_none_due (hnone : ∀ rule, ¬ queue.Due now rule) :
    flushRules now rules queue = ([], queue) := by
  induction rules with
  | nil => rfl
  | cons listed rest ih =>
    obtain ⟨rule, window⟩ := listed
    rw [flushRules_of_not_due (hnone rule), ih]

theorem due_of_mem_flushRules {release : Release α}
    (h : release ∈ (flushRules now rules queue).1) : queue.Due now release.rule := by
  induction rules generalizing queue with
  | nil => cases h
  | cons listed rest ih =>
    obtain ⟨rule, window⟩ := listed
    by_cases hdue : queue.Due now rule
    · obtain ⟨entry, hentry, hpassed⟩ := hdue
      rw [flushRules_of_due hentry hpassed] at h
      rcases List.mem_cons.mp h with hhead | hrest
      · rw [hhead]
        exact ⟨entry, hentry, hpassed⟩
      · have hlater := ih hrest
        have hne : release.rule ≠ rule := fun heq => not_due_erase queue now rule (heq ▸ hlater)
        exact (due_erase_iff hne).mp hlater
    · rw [flushRules_of_not_due hdue] at h
      exact ih h

theorem mem_flushRules_of_due {entry : Withheld α} (hlisted : rules.lookup r = some window)
    (hentry : queue.get? r = some entry) (hpassed : entry.stop.instant < now) :
    ⟨r, window.trigger.select entry.matches_⟩ ∈ (flushRules now rules queue).1 := by
  induction rules generalizing queue with
  | nil => cases hlisted
  | cons listed rest ih =>
    obtain ⟨rule, first⟩ := listed
    by_cases hr : r = rule
    · subst hr
      rw [List.lookup_cons_self, Option.some.injEq] at hlisted
      subst hlisted
      rw [flushRules_of_due hentry hpassed]
      exact List.mem_cons_self
    · rw [lookup_cons_of_ne hr] at hlisted
      by_cases hdue : queue.Due now rule
      · obtain ⟨other, hother, hover⟩ := hdue
        rw [flushRules_of_due hother hover]
        refine List.mem_cons_of_mem _ (ih hlisted ?_)
        rw [get?_erase, if_neg hr]
        exact hentry
      · rw [flushRules_of_not_due hdue]
        exact ih hlisted hentry

theorem map_rule_flushRules_sublist :
    ((flushRules now rules queue).1.map Release.rule).Sublist (rules.map Prod.fst) := by
  induction rules generalizing queue with
  | nil => exact List.Sublist.slnil
  | cons listed rest ih =>
    obtain ⟨rule, window⟩ := listed
    by_cases hdue : queue.Due now rule
    · obtain ⟨entry, hentry, hpassed⟩ := hdue
      rw [flushRules_of_due hentry hpassed]
      exact ih.cons_cons rule
    · rw [flushRules_of_not_due hdue]
      exact ih.cons rule

/-! ### What a flush leaves -/

instance (queue : Queue α) (now : Instant) (rule : String) : Decidable (queue.Due now rule) :=
  match hentry : queue.get? rule with
  | none => .isFalse fun ⟨_, h, _⟩ => nomatch hentry.symm.trans h
  | some entry =>
    decidable_of_iff (entry.stop.instant < now)
      ⟨fun hpassed => ⟨entry, hentry, hpassed⟩,
        fun ⟨_, h, hpassed⟩ => Option.some.inj (hentry.symm.trans h) ▸ hpassed⟩

/-- The entries of rules that are not listed or not due stay, in their order. -/
theorem entries_flushRules (now : Instant) (rules : List (String × Window)) (queue : Queue α) :
    (flushRules now rules queue).2.entries = queue.entries.filter fun entry =>
      ¬ (entry.1 ∈ rules.map Prod.fst ∧ queue.Due now entry.1) := by
  induction rules generalizing queue with
  | nil =>
    symm
    rw [flushRules, List.filter_eq_self]
    intro entry _
    simp
  | cons listed rest ih =>
    obtain ⟨rule, window⟩ := listed
    by_cases hdue : queue.Due now rule
    · obtain ⟨entry, hentry, hpassed⟩ := id hdue
      rw [flushRules_of_due hentry hpassed, ih, erase, List.filter_filter]
      refine List.filter_congr fun entry _ => ?_
      rw [Bool.eq_iff_iff, Bool.and_eq_true, decide_eq_true_iff, decide_eq_true_iff, bne_iff_ne,
        List.map_cons, List.mem_cons]
      by_cases hname : entry.1 = rule
      · simp [hname, hdue]
      · rw [← erase, due_erase_iff hname]
        simp [hname]
    · rw [flushRules_of_not_due hdue, ih]
      refine List.filter_congr fun entry _ => ?_
      rw [decide_eq_decide, List.map_cons, List.mem_cons]
      by_cases hname : entry.1 = rule
      · simp [hname, hdue]
      · simp [hname]

theorem get?_flushRules (now : Instant) (rules : List (String × Window)) (queue : Queue α)
    (r : String) :
    (flushRules now rules queue).2.get? r =
      if r ∈ rules.map Prod.fst ∧ queue.Due now r then none else queue.get? r := by
  unfold get?
  rw [entries_flushRules,
    lookup_filter fun name => decide (¬ (name ∈ rules.map Prod.fst ∧ queue.Due now name))]
  by_cases htaken : r ∈ rules.map Prod.fst ∧ queue.Due now r
  · rw [if_pos htaken, if_neg (by simpa using htaken)]
  · rw [if_neg htaken, if_pos (decide_eq_true htaken)]

theorem get?_flushRules_of_not_due (hnot : ¬ queue.Due now r) :
    (flushRules now rules queue).2.get? r = queue.get? r := by
  rw [get?_flushRules, if_neg fun htaken => hnot htaken.2]

theorem get?_flushRules_of_due (hmem : r ∈ rules.map Prod.fst) (hdue : queue.Due now r) :
    (flushRules now rules queue).2.get? r = none := by
  rw [get?_flushRules, if_pos ⟨hmem, hdue⟩]

theorem get?_of_get?_flushRules {entry : Withheld α}
    (h : (flushRules now rules queue).2.get? r = some entry) : queue.get? r = some entry := by
  rw [get?_flushRules] at h
  split at h
  · cases h
  · exact h

/-! ### What a flush releases of one rule -/

/-- What is released of a rule at `now` where `window` is its window. -/
def releaseOf? (queue : Queue α) (now : Instant) (rule : String) (window : Window) :
    Option (Release α) :=
  (queue.get? rule).bind fun entry =>
    if entry.stop.instant < now then some ⟨rule, window.trigger.select entry.matches_⟩ else none

theorem releaseOf?_of_due {entry : Withheld α} (hentry : queue.get? rule = some entry)
    (hdue : entry.stop.instant < now) :
    queue.releaseOf? now rule window =
      some ⟨rule, window.trigger.select entry.matches_⟩ := by
  simp [releaseOf?, hentry, hdue]

theorem releaseOf?_of_not_due (hnot : ¬ queue.Due now rule) :
    queue.releaseOf? now rule window = none := by
  unfold releaseOf?
  cases hentry : queue.get? rule with
  | none => rfl
  | some entry => exact if_neg fun hdue => hnot ⟨entry, hentry, hdue⟩

theorem releaseOf?_erase (hne : r ≠ rule) :
    (queue.erase rule).releaseOf? now r = queue.releaseOf? now r := by
  funext window
  rw [releaseOf?, get?_erase, if_neg hne, releaseOf?]

/-- A rule is released at most once, as its first listing has it. -/
theorem filter_flushRules (now : Instant) (rules : List (String × Window)) (queue : Queue α)
    (r : String) :
    (flushRules now rules queue).1.filter (fun release => release.rule = r) =
      ((rules.lookup r).bind (queue.releaseOf? now r)).toList := by
  induction rules generalizing queue with
  | nil => rfl
  | cons listed rest ih =>
    obtain ⟨rule, window⟩ := listed
    by_cases hdue : queue.Due now rule
    · obtain ⟨entry, hentry, hpassed⟩ := hdue
      rw [flushRules_of_due hentry hpassed]
      by_cases hr : r = rule
      · subst hr
        dsimp only
        rw [List.filter_cons_of_pos (by simp), ih, List.lookup_cons_self,
          Option.bind_some, releaseOf?_of_due hentry hpassed]
        cases rest.lookup r with
        | none => rfl
        | some other =>
          rw [Option.bind_some, releaseOf?_of_not_due (not_due_erase queue now r)]
          rfl
      · dsimp only
        rw [List.filter_cons_of_neg (by simpa using Ne.symm hr), ih, lookup_cons_of_ne hr,
          releaseOf?_erase hr]
    · rw [flushRules_of_not_due hdue, ih]
      by_cases hr : r = rule
      · subst hr
        rw [List.lookup_cons_self, Option.bind_some, releaseOf?_of_not_due hdue]
        cases rest.lookup r with
        | none => rfl
        | some other => rw [Option.bind_some, releaseOf?_of_not_due hdue]
      · rw [lookup_cons_of_ne hr]

end Queue

end Blackout
