import Blackout.Proofs.Listing
import Blackout.Proofs.Withholding

/-!
# Which builders are refused

A builder enters a rule that comes to a window, its own or the default one, and passes over a rule
that comes to none. A rule is refused if its name has been entered. So a name that is added twice is
refused if it came to a window the first time, and is let through if it did not. Where every rule
comes to a window, the builders with a repeated name are refused, in whatever order it is added.
-/

namespace Blackout

namespace Registry

variable {registry : Registry} {defaultWindow : Option Window} {added : String × Option Window}
  {rules : List (String × Option Window)} {e : SessionError}

theorem add_eq_error_iff :
    registry.add defaultWindow added.1 added.2 = .error e ↔
      added.1 ∈ registry.entries.map Prod.fst ∧ e = .duplicateRule added.1 := by
  unfold add
  rw [← contains_iff_mem]
  split
  · next hlisted =>
    rw [and_iff_right hlisted, Except.error.injEq]
    exact eq_comm
  · next hnew =>
    refine iff_of_false (fun h => ?_) fun h => hnew h.1
    split at h <;> cases h

theorem mem_entered_iff (defaultWindow : Option Window) (rules : List (String × Option Window))
    (added : String × Option Window) :
    added.1 ∈ (empty.pushAll (rules.filterMap (entered? defaultWindow))).entries.map Prod.fst ↔
      ∃ earlier ∈ rules, ¬ MayFollow defaultWindow earlier added := by
  rw [entries_pushAll, empty, List.nil_append]
  simp only [← notMem_entered?_iff, not_not, List.mem_map, List.mem_filterMap, Option.mem_toList]
  constructor
  · rintro ⟨listed, ⟨earlier, hearlier, hentered⟩, hname⟩
    exact ⟨earlier, hearlier, listed, hentered, hname⟩
  · rintro ⟨earlier, hearlier, listed, hentered, hname⟩
    exact ⟨listed, ⟨earlier, hearlier, hentered⟩, hname⟩

theorem build_eq_error_iff :
    build defaultWindow rules = .error e ↔ ∃ before added after,
      rules = before ++ added :: after ∧ before.Pairwise (MayFollow defaultWindow) ∧
        (∃ earlier ∈ before, ¬ MayFollow defaultWindow earlier added) ∧
        e = .duplicateRule added.1 := by
  have hbefore (before : List (String × Option Window)) (registry : Registry) :
      before.foldlM (fun registry rule => registry.add defaultWindow rule.1 rule.2) empty =
        .ok registry ↔ _ := build_eq_ok_iff
  unfold build
  rw [foldlM_eq_error_iff]
  simp only [hbefore, add_eq_error_iff]
  constructor
  · rintro ⟨before, added, after, _, hsplit, ⟨hpairs, rfl⟩, hlisted, he⟩
    exact ⟨before, added, after, hsplit, hpairs, (mem_entered_iff ..).mp hlisted, he⟩
  · rintro ⟨before, added, after, hsplit, hpairs, hlisted, he⟩
    exact ⟨before, added, after, _, hsplit, ⟨hpairs, rfl⟩, (mem_entered_iff ..).mpr hlisted, he⟩

theorem exists_build_eq_error_iff :
    (∃ e, build defaultWindow rules = .error e) ↔
      ¬ rules.Pairwise (MayFollow defaultWindow) := by
  cases h : build defaultWindow rules with
  | ok registry => simp [(build_eq_ok_iff.mp h).1]
  | error e =>
    refine iff_of_true ⟨e, rfl⟩ fun hpairs => ?_
    rw [build_eq_ok_iff.mpr ⟨hpairs, rfl⟩] at h
    cases h

/-- **A name is refused after it came to a window.** A builder is refused exactly if some rule has
the name of an earlier one that came to a window, its own or the default one. The error names the
first such rule. So where every rule comes to a window, for instance by a default, a builder is
refused exactly if a name is repeated. -/
theorem build_refuses_repeated (defaultWindow : Option Window)
    (rules : List (String × Option Window)) :
    (∀ e, build defaultWindow rules = .error e ↔ ∃ before added after,
      rules = before ++ added :: after ∧ before.Pairwise (MayFollow defaultWindow) ∧
        (∃ earlier ∈ before, earlier.1 = added.1 ∧
          (earlier.2.isSome = true ∨ defaultWindow.isSome = true)) ∧
        e = .duplicateRule added.1) ∧
    ((∃ e, build defaultWindow rules = .error e) ↔
      ¬ rules.Pairwise (MayFollow defaultWindow)) ∧
    ((∀ rule ∈ rules, rule.2.isSome = true ∨ defaultWindow.isSome = true) →
      ((∃ e, build defaultWindow rules = .error e) ↔ ¬ (rules.map Prod.fst).Nodup)) := by
  refine ⟨fun e => ?_, exists_build_eq_error_iff, fun hall => ?_⟩
  · rw [build_eq_error_iff]
    simp only [MayFollow, Classical.not_imp, not_and_or, ← Option.isSome_iff_ne_none]
  · rw [exists_build_eq_error_iff, List.Nodup, List.pairwise_map]
    refine not_congr (List.Pairwise.iff_of_mem fun {earlier later} hearlier _ => ?_)
    have hwindow := hall earlier hearlier
    constructor
    · intro hfollow heq
      obtain ⟨hown, hdefault⟩ := hfollow heq
      rw [hown, hdefault] at hwindow
      simp at hwindow
    · exact fun hne heq => absurd heq hne

/-- A rule without a window is followed by one of its name with a window, and the registry lists the
name. The other way round it is refused. -/
theorem build_refuses_repeated_one_way :
    build none [("r", none), ("r", some .afternoon)] =
      .ok (.push .empty "r" .afternoon) ∧
    ¬ (["r", "r"] : List String).Nodup ∧
    (¬ ∃ e, build none [("r", none), ("r", some .afternoon)] = .error e) ∧
    build none [("r", some .afternoon), ("r", none)] = .error (.duplicateRule "r") := by
  have hlate := (build_refuses_repeated none [("r", none), ("r", some .afternoon)]).2.1
  have hearly := (build_refuses_repeated none [("r", some .afternoon), ("r", none)]).1
  refine ⟨rfl, by decide, fun h => hlate.mp h ?_, (hearly _).mpr ?_⟩
  · simp [MayFollow]
  · exact ⟨[("r", some .afternoon)], ("r", none), [], rfl, List.pairwise_singleton _ _,
      ⟨_, List.mem_singleton_self _, rfl, .inl rfl⟩, rfl⟩

end Registry

end Blackout
