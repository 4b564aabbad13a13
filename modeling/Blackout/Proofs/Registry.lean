import Mathlib.Data.List.Forall2
import Mathlib.Data.List.Nodup
import Blackout.Proofs.Bounds
import Blackout.RuleSet.File
import Blackout.Session.Queue

/-!
# Registries of accepted rule sets

A rule set is accepted only if the check finds no fault in it. Then no two of its rules share a
name, so neither do the rules of its policy, and its registry lists a rule once.
-/

namespace Blackout

/-! ### Checks -/

theorem not_mem_of_checkName_eq_nil {index : Nat} {seen : List String} {name : String}
    (h : checkName index seen name = []) : name ∉ seen := by
  unfold checkName at h
  split at h
  · cases h
  · split at h
    · cases h
    · next hseen =>
      rwa [List.contains_iff_mem] at hseen

theorem nodup_of_checkRules_eq_nil {index : Nat} {seen : List String} {rules : List RuleDef}
    (h : checkRules index seen rules = []) :
    (rules.map RuleDef.name).Nodup ∧ ∀ rule ∈ rules, rule.name ∉ seen := by
  induction rules generalizing index seen with
  | nil => exact ⟨List.nodup_nil, fun rule hrule => nomatch hrule⟩
  | cons rule rest ih =>
    unfold checkRules checkRule at h
    obtain ⟨hrule, hrest⟩ := List.append_eq_nil_iff.mp h
    obtain ⟨hnodup, hnew⟩ := ih hrest
    have hname := (List.append_eq_nil_iff.mp (List.append_eq_nil_iff.mp hrule).1).1
    constructor
    · rw [List.map_cons, List.nodup_cons]
      refine ⟨fun hmem => ?_, hnodup⟩
      obtain ⟨other, hother, heq⟩ := List.mem_map.mp hmem
      exact hnew other hother (heq ▸ List.mem_cons_self)
    · rw [List.forall_mem_cons]
      exact ⟨not_mem_of_checkName_eq_nil hname,
        fun other hother hseen => hnew other hother (List.mem_cons_of_mem _ hseen)⟩

/-! ### Policies -/

theorem RulePolicy.name_of_ofDef {defaultWindow : Option Window} {r : RuleDef} {p : RulePolicy}
    (h : RulePolicy.ofDef defaultWindow r = .ok p) : p.name = r.name := by
  unfold ofDef at h
  dsimp only at h
  split at h
  · obtain ⟨window, -, h⟩ := bind_eq_ok.mp h
    cases h
    rfl
  · cases h
    rfl
  · cases h
    rfl

namespace RuleSetPolicy

variable {policy : RuleSetPolicy} {s : RuleSetDef}

/-- The policy has the name of the rule set, its default window, and the policies of all its rules
in the order of their definition. -/
structure Loads (policy : RuleSetPolicy) (s : RuleSetDef) : Prop where
  name : policy.name = s.name
  default : s.blackout.map (BlackoutDef.window .ruleSet) = policy.defaultWindow.map .ok
  rules : List.Forall₂
    (fun entry rule => RulePolicy.ofDef policy.defaultWindow entry.rule = .ok rule)
    s.rules policy.rules

theorem loads_of_ofDef (h : ofDef s = .ok policy) : policy.Loads s := by
  unfold ofDef at h
  dsimp only at h
  split at h
  · next hnone =>
    obtain ⟨defaultWindow, hdefault, h⟩ := bind_eq_ok.mp h
    obtain ⟨rules, hrules, h⟩ := bind_eq_ok.mp h
    cases hdefault
    cases h
    exact ⟨rfl, by rw [hnone]; rfl, forall₂_of_mapM_eq_ok hrules⟩
  · next b hb =>
    obtain ⟨window, hwindow, h⟩ := bind_eq_ok.mp h
    obtain ⟨defaultWindow, hdefault, h⟩ := bind_eq_ok.mp h
    obtain ⟨rules, hrules, h⟩ := bind_eq_ok.mp h
    cases hdefault
    cases h
    exact ⟨rfl, by rw [hb, Option.map_some, hwindow]; rfl, forall₂_of_mapM_eq_ok hrules⟩

theorem Loads.names (h : policy.Loads s) :
    policy.rules.map RulePolicy.name = s.rules.map fun entry => entry.rule.name := by
  have hnames : List.Forall₂ (fun (entry : RuleEntry) (p : RulePolicy) => p.name = entry.rule.name)
      s.rules policy.rules := h.rules.imp fun _ _ hrule => RulePolicy.name_of_ofDef hrule
  rw [← List.forall₂_eq_eq_eq, List.forall₂_map_left_iff, List.forall₂_map_right_iff]
  exact hnames.flip

theorem ofChecked_eq_ok (h : ofChecked s = .ok policy) :
    checkRuleSet s = [] ∧ ofDef s = .ok policy := by
  unfold ofChecked at h
  split at h
  · next hclean =>
    cases hdef : ofDef s with
    | error fault =>
      rw [hdef] at h
      cases h
    | ok checked =>
      rw [hdef] at h
      cases h
      exact ⟨hclean, rfl⟩
  · cases h

theorem nodup_of_ofChecked (h : ofChecked s = .ok policy) :
    (policy.rules.map RulePolicy.name).Nodup := by
  obtain ⟨hclean, hdef⟩ := ofChecked_eq_ok h
  obtain ⟨hnodup, -⟩ := nodup_of_checkRules_eq_nil (List.append_eq_nil_iff.mp hclean).2
  rw [List.map_map] at hnodup
  rw [(loads_of_ofDef hdef).names]
  exact hnodup

/-- The rules of a rule set that is accepted have names of their own. -/
theorem nodup_of_ofText {format : RuleSetFormat} {text : String}
    (h : ofText format text = .ok policy) : (policy.rules.map RulePolicy.name).Nodup := by
  cases format with
  | json =>
    unfold ofText at h
    dsimp only at h
    unfold ofJson at h
    split at h
    · exact nodup_of_ofChecked h
    · cases h
  | toml =>
    unfold ofText at h
    dsimp only at h
    unfold ofToml at h
    split at h
    · exact nodup_of_ofChecked h
    · cases h

end RuleSetPolicy

/-! ### Registries -/

theorem mem_of_lookup {α : Type} {entries : List (String × α)} {name : String} {value : α}
    (h : entries.lookup name = some value) : (name, value) ∈ entries := by
  obtain ⟨_, _, hsplit, -⟩ := List.lookup_eq_some_iff.mp h
  rw [hsplit]
  exact List.mem_append_right _ List.mem_cons_self

/-- Where no name is listed twice, looking a name up finds what is listed with it. -/
theorem lookup_eq_some_iff_mem {α : Type} {entries : List (String × α)}
    (hnodup : (entries.map Prod.fst).Nodup) {name : String} {value : α} :
    entries.lookup name = some value ↔ (name, value) ∈ entries := by
  refine ⟨mem_of_lookup, fun hmem => ?_⟩
  obtain ⟨first, hfirst⟩ := Option.isSome_iff_exists.mp
    (List.lookup_isSome_iff.mpr ⟨_, hmem, beq_self_eq_true name⟩)
  cases List.inj_on_of_nodup_map hnodup (mem_of_lookup hfirst) hmem rfl
  exact hfirst

namespace Registry

variable {registry : Registry} {rule : String} {window : Window}

/-- Looking a rule up goes through its place. -/
theorem get?_eq_some_iff : registry.get? rule = some window ↔
    ∃ place, registry.place? rule = some place ∧
      registry.entries[place]? = some (rule, window) := by
  unfold get?
  split
  · next place hplace =>
    obtain ⟨listed, hlisted⟩ := registry.indexed.leads hplace
    obtain ⟨hwithin, hread⟩ := List.getElem?_eq_some_iff.mp hlisted
    rw [List.get_eq_getElem, hread, Option.some.injEq]
    constructor
    · rintro rfl
      exact ⟨place, hplace, hlisted⟩
    · rintro ⟨other, hother, hread⟩
      cases hplace.symm.trans hother
      cases hlisted.symm.trans hread
      rfl
  · next hnone =>
    rw [hnone]
    exact iff_of_false nofun nofun

theorem mem_of_get? (h : registry.get? rule = some window) :
    (rule, window) ∈ registry.entries := by
  obtain ⟨place, -, hlisted⟩ := get?_eq_some_iff.mp h
  exact List.mem_of_getElem? hlisted

theorem exists_lookup (h : registry.get? rule = some window) :
    ∃ first, registry.entries.lookup rule = some first :=
  Option.isSome_iff_exists.mp
    (List.lookup_isSome_iff.mpr ⟨_, mem_of_get? h, beq_self_eq_true rule⟩)

theorem lookup_of_get? (hnodup : (registry.entries.map Prod.fst).Nodup)
    (h : registry.get? rule = some window) : registry.entries.lookup rule = some window :=
  (lookup_eq_some_iff_mem hnodup).mpr (mem_of_get? h)

theorem entries_pushAll (registry : Registry) (entries : List (String × Window)) :
    (registry.pushAll entries).entries = registry.entries ++ entries := by
  induction entries generalizing registry with
  | nil => exact (List.append_nil _).symm
  | cons entry rest ih =>
    show ((registry.push entry.1 entry.2).pushAll rest).entries = _
    rw [ih, push, List.append_assoc, List.singleton_append]

theorem pushAll_pushAll (registry : Registry) (first second : List (String × Window)) :
    (registry.pushAll first).pushAll second = registry.pushAll (first ++ second) :=
  (List.foldl_append ..).symm

theorem entries_ofPolicy (policy : RuleSetPolicy) :
    (ofPolicy policy).entries = policy.enabledRules.filterMap fun rule =>
      rule.window.map fun window => (rule.name, window) :=
  entries_pushAll empty _

end Registry

theorem map_filterMap_sublist {α β γ : Type} {choose : α → Option β} (key : α → γ) (key' : β → γ)
    (hkeeps : ∀ x y, choose x = some y → key' y = key x) (xs : List α) :
    ((xs.filterMap choose).map key').Sublist (xs.map key) := by
  induction xs with
  | nil => exact List.Sublist.slnil
  | cons x xs ih =>
    cases hx : choose x with
    | none =>
      rw [List.filterMap_cons_none hx]
      exact ih.cons _
    | some y =>
      rw [List.filterMap_cons_some hx, List.map_cons, List.map_cons, hkeeps x y hx]
      exact ih.cons_cons _

theorem Registry.nodup_ofPolicy {policy : RuleSetPolicy}
    (h : (policy.rules.map RulePolicy.name).Nodup) :
    ((ofPolicy policy).entries.map Prod.fst).Nodup := by
  have hkeeps : ∀ (rule : RulePolicy) (listed : String × Window),
      (rule.window.map fun window => (rule.name, window)) = some listed →
        listed.1 = rule.name := by
    intro rule listed hlisted
    obtain ⟨window, -, rfl⟩ := Option.map_eq_some_iff.mp hlisted
    rfl
  have hwindows := map_filterMap_sublist RulePolicy.name Prod.fst hkeeps policy.enabledRules
  rw [entries_ofPolicy]
  exact h.sublist (hwindows.trans (List.filter_sublist.map _))

theorem Queue.map_rule_pendingRules_sublist {α : Type} (registry : Registry) (queue : Queue α) :
    ((queue.pendingRules registry).map PendingRule.rule).Sublist
      (registry.entries.map Prod.fst) := by
  refine map_filterMap_sublist Prod.fst PendingRule.rule ?_ registry.entries
  intro listed p hp
  obtain ⟨entry, -, rfl⟩ := Option.map_eq_some_iff.mp hp
  rfl

end Blackout
