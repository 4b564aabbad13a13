import Blackout.Proofs.Registry

/-!
# What registries list

The registry of an accepted rule set is settled by the document: its enabled rules with a blackout,
their own or the default one, in order. A builder that is given the default window and the rules'
own windows comes to the same registry, though it resolves the default itself.

In every registry of either kind a name is listed once. So the index, which keeps the last place of
a name, leads to the only entry of that name.
-/

namespace Blackout

namespace Registry

variable {registry : Registry} {rule : String} {window : Window} {place : Nat}

/-! ### The index of a registry -/

theorem contains_iff_mem (registry : Registry) (rule : String) :
    registry.contains rule = true ↔ rule ∈ registry.entries.map Prod.fst := by
  unfold contains
  rw [Option.isSome_iff_exists, List.mem_map]
  constructor
  · rintro ⟨place, hplace⟩
    obtain ⟨window, hlisted⟩ := registry.indexed.leads hplace
    exact ⟨_, List.mem_of_getElem? hlisted, rfl⟩
  · rintro ⟨⟨name, window⟩, hmem, rfl⟩
    obtain ⟨place, hlisted⟩ := List.mem_iff_getElem?.mp hmem
    obtain ⟨last, hlast, -⟩ := registry.indexed.covers hlisted
    exact ⟨last, hlast⟩

/-- Where no name is listed twice, the index leads to the entry of a name. -/
theorem place?_eq_some_iff (hnodup : (registry.entries.map Prod.fst).Nodup) :
    registry.place? rule = some place ↔
      ∃ window, registry.entries[place]? = some (rule, window) := by
  refine ⟨registry.indexed.leads, fun ⟨window, hlisted⟩ => ?_⟩
  obtain ⟨last, hlast, -⟩ := registry.indexed.covers hlisted
  obtain ⟨other, hother⟩ := registry.indexed.leads hlast
  -- the last place of the name is the only one
  have hsame :
      (registry.entries.map Prod.fst)[last]? = (registry.entries.map Prod.fst)[place]? := by
    rw [List.getElem?_map, List.getElem?_map, hother, hlisted]
    rfl
  have hwithin : last < (registry.entries.map Prod.fst).length := by
    rw [List.length_map]
    exact registry.indexed.lt_length hlast
  rw [← (List.getElem?_inj hwithin hnodup).mp hsame]
  exact hlast

/-- A registry with no name twice, where looking a name up finds what is listed with it. -/
structure ListsOnce (registry : Registry) : Prop where
  nodup : (registry.entries.map Prod.fst).Nodup
  place : ∀ rule place, registry.place? rule = some place ↔
    ∃ window, registry.entries[place]? = some (rule, window)
  get : ∀ rule window, registry.get? rule = some window ↔ (rule, window) ∈ registry.entries
  contains : ∀ rule, registry.contains rule = true ↔ ∃ window, (rule, window) ∈ registry.entries

theorem listsOnce_of_nodup (hnodup : (registry.entries.map Prod.fst).Nodup) :
    registry.ListsOnce where
  nodup := hnodup
  place _ _ := place?_eq_some_iff hnodup
  get rule window := by
    refine ⟨mem_of_get?, fun hmem => ?_⟩
    obtain ⟨place, hlisted⟩ := List.mem_iff_getElem?.mp hmem
    exact get?_eq_some_iff.mpr
      ⟨place, (place?_eq_some_iff hnodup).mpr ⟨window, hlisted⟩, hlisted⟩
  contains rule := by
    rw [contains_iff_mem, List.mem_map]
    constructor
    · rintro ⟨⟨name, window⟩, hmem, rfl⟩
      exact ⟨window, hmem⟩
    · rintro ⟨window, hmem⟩
      exact ⟨_, hmem, rfl⟩

/-! ### Builders -/

/-- What a builder enters for a rule: nothing, if it has no window and there is no default one. -/
def entered? (defaultWindow : Option Window) (rule : String × Option Window) :
    Option (String × Window) :=
  (rule.2 <|> defaultWindow).map fun window => (rule.1, window)

variable {defaultWindow : Option Window} {added : String × Option Window} {next built : Registry}
  {rules : List (String × Option Window)}

theorem map_fst_entered?_sublist (defaultWindow : Option Window) (added : String × Option Window) :
    ((entered? defaultWindow added).toList.map Prod.fst).Sublist [added.1] := by
  unfold entered?
  cases added.2 <|> defaultWindow with
  | none => exact List.nil_sublist _
  | some window => exact List.Sublist.refl _

theorem add_eq_ok_iff :
    registry.add defaultWindow added.1 added.2 = .ok next ↔
      added.1 ∉ registry.entries.map Prod.fst ∧
        next = registry.pushAll (entered? defaultWindow added).toList := by
  unfold add entered?
  rw [← contains_iff_mem]
  split
  · next hlisted => exact iff_of_false (fun h => nomatch h) fun h => h.1 hlisted
  · next hnew =>
    rw [and_iff_right hnew]
    cases added.2 <|> defaultWindow with
    | none =>
      rw [Except.ok.injEq]
      exact eq_comm
    | some window =>
      rw [Except.ok.injEq]
      exact eq_comm

theorem nodup_add (h : registry.add defaultWindow added.1 added.2 = .ok next)
    (hnodup : (registry.entries.map Prod.fst).Nodup) : (next.entries.map Prod.fst).Nodup := by
  obtain ⟨hnew, rfl⟩ := add_eq_ok_iff.mp h
  have hall : (registry.entries.map Prod.fst ++ [added.1]).Nodup := by
    rw [← List.concat_eq_append, List.nodup_concat]
    exact ⟨hnew, hnodup⟩
  rw [entries_pushAll, List.map_append]
  exact hall.sublist ((map_fst_entered?_sublist defaultWindow added).append_left _)

theorem nodup_foldlM_add
    (h : rules.foldlM (fun registry rule => registry.add defaultWindow rule.1 rule.2) registry =
      .ok built)
    (hnodup : (registry.entries.map Prod.fst).Nodup) : (built.entries.map Prod.fst).Nodup := by
  induction rules generalizing registry with
  | nil =>
    cases h
    exact hnodup
  | cons rule rest ih =>
    rw [List.foldlM_cons] at h
    obtain ⟨next, hadd, hrest⟩ := bind_eq_ok.mp h
    exact ih hrest (nodup_add hadd hnodup)

theorem listsOnce_of_build (h : build defaultWindow rules = .ok registry) : registry.ListsOnce :=
  listsOnce_of_nodup (nodup_foldlM_add h List.nodup_nil)

/-- A rule may be added after another: it has its own name, or nothing was entered for the other. -/
def MayFollow (defaultWindow : Option Window) (earlier later : String × Option Window) : Prop :=
  earlier.1 = later.1 → earlier.2 = none ∧ defaultWindow = none

theorem notMem_entered?_iff (earlier later : String × Option Window) :
    later.1 ∉ (entered? defaultWindow earlier).toList.map Prod.fst ↔
      MayFollow defaultWindow earlier later := by
  unfold entered? MayFollow
  cases earlier.2 <;> cases defaultWindow <;> simp [eq_comm]

theorem foldlM_add_eq_ok_iff :
    rules.foldlM (fun registry rule => registry.add defaultWindow rule.1 rule.2) registry =
        .ok built ↔
      (∀ rule ∈ rules, rule.1 ∉ registry.entries.map Prod.fst) ∧
        rules.Pairwise (MayFollow defaultWindow) ∧
        built = registry.pushAll (rules.filterMap (entered? defaultWindow)) := by
  induction rules generalizing registry with
  | nil =>
    rw [List.foldlM_nil, List.filterMap_nil]
    simp [pure, Except.pure, pushAll, eq_comm]
  | cons rule rest ih =>
    have hentries : (entered? defaultWindow rule).toList ++
        rest.filterMap (entered? defaultWindow) =
          (rule :: rest).filterMap (entered? defaultWindow) := by
      cases h : entered? defaultWindow rule with
      | none => exact (List.filterMap_cons_none h).symm
      | some listed => exact (List.filterMap_cons_some h).symm
    -- what is entered for the rule keeps out the later rules of its name
    have hlater : (∀ later ∈ rest, later.1 ∉
        (registry.pushAll (entered? defaultWindow rule).toList).entries.map Prod.fst) ↔
        (∀ later ∈ rest, later.1 ∉ registry.entries.map Prod.fst) ∧
          ∀ later ∈ rest, MayFollow defaultWindow rule later := by
      simp only [entries_pushAll, List.map_append, List.mem_append, not_or, notMem_entered?_iff,
        forall_and]
    rw [List.foldlM_cons, bind_eq_ok, List.forall_mem_cons, List.pairwise_cons, ← hentries,
      ← pushAll_pushAll]
    constructor
    · rintro ⟨next, hadd, hrest⟩
      obtain ⟨hnew, rfl⟩ := add_eq_ok_iff.mp hadd
      obtain ⟨hfresh, hpairs, hbuilt⟩ := ih.mp hrest
      obtain ⟨hold, hfollow⟩ := hlater.mp hfresh
      exact ⟨⟨hnew, hold⟩, ⟨hfollow, hpairs⟩, hbuilt⟩
    · rintro ⟨⟨hnew, hold⟩, ⟨hfollow, hpairs⟩, hbuilt⟩
      exact ⟨_, add_eq_ok_iff.mpr ⟨hnew, rfl⟩, ih.mpr ⟨hlater.mpr ⟨hold, hfollow⟩, hpairs, hbuilt⟩⟩

theorem build_eq_ok_iff : build defaultWindow rules = .ok registry ↔
    rules.Pairwise (MayFollow defaultWindow) ∧
      registry = empty.pushAll (rules.filterMap (entered? defaultWindow)) := by
  unfold build
  rw [foldlM_add_eq_ok_iff]
  simp [empty]

theorem build_of_nodup (hnodup : (rules.map Prod.fst).Nodup) :
    build defaultWindow rules =
      .ok (empty.pushAll (rules.filterMap (entered? defaultWindow))) :=
  build_eq_ok_iff.mpr ⟨(List.pairwise_map.mp hnodup).imp fun hne heq => absurd heq hne, rfl⟩

end Registry

/-! ### Windows that apply to rules -/

/-- Window of a rule's own blackout, if it has one without a fault. -/
def RuleDef.ownWindow? (r : RuleDef) : Option Window :=
  r.blackout.bind fun b => (b.window (.rule r.name)).toOption

namespace RuleSetDef

def defaultWindow? (s : RuleSetDef) : Option Window :=
  s.blackout.bind fun b => (b.window .ruleSet).toOption

def enabledRules (s : RuleSetDef) : List RuleDef :=
  (s.rules.map RuleEntry.rule).filter fun r => r.enabled.getD true

/-- The enabled rules that have a blackout of their own or inherit the default one. -/
def blackoutRules (s : RuleSetDef) : List RuleDef :=
  s.enabledRules.filter fun r => r.blackout.isSome || s.blackout.isSome

end RuleSetDef

/-- A rule is listed by its name with the window of its own blackout or, if it has none, with that
of the default blackout. -/
inductive RuleDef.ListedAs (defaultBlackout : Option BlackoutDef) (r : RuleDef) :
    String × Window → Prop where
  | own {b : BlackoutDef} {window : Window} (hown : r.blackout = some b)
    (hwindow : b.window (.rule r.name) = .ok window) : ListedAs defaultBlackout r (r.name, window)
  | inherited {b : BlackoutDef} {window : Window} (hnone : r.blackout = none)
    (hdefault : defaultBlackout = some b) (hwindow : b.window .ruleSet = .ok window) :
    ListedAs defaultBlackout r (r.name, window)

theorem RuleDef.ownWindow?_of_none {r : RuleDef} (h : r.blackout = none) : r.ownWindow? = none := by
  rw [ownWindow?, h]
  rfl

theorem RuleSetDef.defaultWindow?_of_none {s : RuleSetDef} (h : s.blackout = none) :
    s.defaultWindow? = none := by
  rw [defaultWindow?, h]
  rfl

theorem bind_toOption_of_map_eq {ε α β : Type} {x : Option α} {f : α → Except ε β} {y : Option β}
    (h : x.map f = y.map .ok) : (x.bind fun a => (f a).toOption) = y := by
  cases x with
  | none =>
    cases y with
    | none => rfl
    | some b => cases h
  | some a =>
    cases y with
    | none => cases h
    | some b =>
      rw [Option.bind_some, Option.some.inj h]
      rfl

theorem exists_of_map_eq {ε α β : Type} {x : Option α} {f : α → Except ε β} {y : Option β} {a : α}
    (h : x.map f = y.map .ok) (hx : x = some a) : ∃ b, y = some b ∧ f a = .ok b := by
  rw [hx] at h
  cases y with
  | none => cases h
  | some b => exact ⟨b, rfl, Option.some.inj h⟩

theorem forall₂_filter_filterMap {α β : Type} {R : α → β → Prop} {p : α → Bool} {f : α → Option β}
    {xs : List α} (hsome : ∀ x ∈ xs, p x = true → ∃ y, f x = some y ∧ R x y)
    (hnone : ∀ x ∈ xs, ¬ p x = true → f x = none) :
    List.Forall₂ R (xs.filter p) (xs.filterMap f) := by
  induction xs with
  | nil => exact .nil
  | cons x xs ih =>
    rw [List.forall_mem_cons] at hsome hnone
    have hrest := ih hsome.2 hnone.2
    by_cases hx : p x = true
    · obtain ⟨y, hy, hR⟩ := hsome.1 hx
      rw [List.filter_cons_of_pos hx, List.filterMap_cons_some hy]
      exact .cons hR hrest
    · rw [List.filter_cons_of_neg hx, List.filterMap_cons_none (hnone.1 hx)]
      exact hrest

/-- The policy has the name of the rule and whether it is enabled. The rule's own blackout, if any,
is without a fault, and the window that applies is its own, else the default one. -/
structure RulePolicy.Loads (p : RulePolicy) (defaultWindow : Option Window) (r : RuleDef) :
    Prop where
  name : p.name = r.name
  enabled : p.enabled = r.enabled.getD true
  own : r.blackout.map (BlackoutDef.window (.rule r.name)) = r.ownWindow?.map .ok
  window : p.window = (r.ownWindow? <|> defaultWindow)

theorem RulePolicy.loads_of_ofDef {p : RulePolicy} {defaultWindow : Option Window} {r : RuleDef}
    (h : RulePolicy.ofDef defaultWindow r = .ok p) : p.Loads defaultWindow r := by
  unfold ofDef at h
  dsimp only at h
  cases hb : r.blackout with
  | some b =>
    rw [hb] at h
    obtain ⟨window, hwindow, h⟩ := bind_eq_ok.mp h
    cases h
    have hown : r.ownWindow? = some window := by
      rw [RuleDef.ownWindow?, hb, Option.bind_some, hwindow]
      rfl
    refine ⟨rfl, rfl, ?_, ?_⟩
    · rw [hb, hown, Option.map_some, hwindow]
      rfl
    · rw [hown]
      rfl
  | none =>
    rw [hb] at h
    have hown := RuleDef.ownWindow?_of_none hb
    have hfaultless : r.blackout.map (BlackoutDef.window (.rule r.name)) =
        r.ownWindow?.map .ok := by
      rw [hb, hown]
      rfl
    cases defaultWindow with
    | some window =>
      cases h
      exact ⟨rfl, rfl, hfaultless, by rw [hown]; rfl⟩
    | none =>
      cases h
      exact ⟨rfl, rfl, hfaultless, by rw [hown]; rfl⟩

theorem filterMap_entered?_of_loads {defaultWindow : Option Window} {rules : List RuleDef}
    {policies : List RulePolicy}
    (h : List.Forall₂ (fun r (p : RulePolicy) => p.Loads defaultWindow r) rules policies) :
    ((policies.filter (·.enabled)).filterMap fun p => p.window.map fun window => (p.name, window)) =
      (rules.filter fun r => r.enabled.getD true).filterMap fun r =>
        Registry.entered? defaultWindow (r.name, r.ownWindow?) := by
  induction h with
  | nil => rfl
  | @cons r p rules policies hrule _ ih =>
    have hentry : (p.window.map fun window => (p.name, window)) =
        Registry.entered? defaultWindow (r.name, r.ownWindow?) := by
      rw [hrule.window, hrule.name]
      rfl
    rw [List.filter_cons, List.filter_cons, hrule.enabled]
    split
    · rw [List.filterMap_cons, List.filterMap_cons, hentry, ih]
    · exact ih

namespace RuleSetPolicy

variable {policy : RuleSetPolicy} {s : RuleSetDef}

theorem Loads.defaultWindow? (h : policy.Loads s) : s.defaultWindow? = policy.defaultWindow :=
  bind_toOption_of_map_eq h.default

theorem Loads.forall₂_rules (h : policy.Loads s) :
    List.Forall₂ (fun r (p : RulePolicy) => p.Loads s.defaultWindow? r) (s.rules.map RuleEntry.rule)
      policy.rules := by
  rw [h.defaultWindow?, List.forall₂_map_left_iff]
  exact h.rules.imp fun _ _ hrule => RulePolicy.loads_of_ofDef hrule

theorem Loads.entries (h : policy.Loads s) :
    (Registry.ofPolicy policy).entries = s.enabledRules.filterMap fun r =>
      Registry.entered? s.defaultWindow? (r.name, r.ownWindow?) :=
  (Registry.entries_ofPolicy policy).trans (filterMap_entered?_of_loads h.forall₂_rules)

theorem Loads.own (h : policy.Loads s) {r : RuleDef} (hr : r ∈ s.enabledRules) :
    r.blackout.map (BlackoutDef.window (.rule r.name)) = r.ownWindow?.map .ok :=
  ((List.forall₂_and_left _ _).mp (h.forall₂_rules.imp fun _ _ hrule => ⟨hrule.own, hrule⟩)).1 r
    (List.mem_of_mem_filter hr)

theorem Loads.forall₂_listedAs (h : policy.Loads s) :
    List.Forall₂ (RuleDef.ListedAs s.blackout) s.blackoutRules
      (Registry.ofPolicy policy).entries := by
  rw [h.entries]
  refine forall₂_filter_filterMap (fun r hr hblackout => ?_) fun r hr hblackout => ?_
  · cases hb : r.blackout with
    | some b =>
      obtain ⟨window, hwindow, hok⟩ := exists_of_map_eq (h.own hr) hb
      exact ⟨_, by rw [hwindow]; rfl, .own hb hok⟩
    | none =>
      rw [hb] at hblackout
      obtain ⟨b, hdefault⟩ := Option.isSome_iff_exists.mp hblackout
      obtain ⟨window, hwindow, hok⟩ := exists_of_map_eq h.default hdefault
      rw [← h.defaultWindow?] at hwindow
      exact ⟨_, by rw [RuleDef.ownWindow?_of_none hb, hwindow]; rfl, .inherited hb hdefault hok⟩
  · rw [Bool.or_eq_true, not_or, Option.not_isSome_iff_eq_none,
      Option.not_isSome_iff_eq_none] at hblackout
    rw [RuleDef.ownWindow?_of_none hblackout.1, RuleSetDef.defaultWindow?_of_none hblackout.2]
    rfl

end RuleSetPolicy

namespace Registry

/-- **What registries list.** The registry of a rule set that is accepted as JSON lists, in the
order of the document, the enabled rules that have a blackout of their own or inherit the default
one, each with the window of that blackout. A builder that is given the default window and, for
every enabled rule, its own window or none comes to this very registry. This registry, and every
registry that a builder comes to, lists no name twice, and looking a name up finds what is listed
with it. -/
theorem lists_document :
    (∀ text policy, RuleSetPolicy.ofJson text = .ok policy →
      ∃ s, Json.readString RuleSetDef.read text = .ok s ∧
        List.Forall₂ (RuleDef.ListedAs s.blackout) s.blackoutRules (ofPolicy policy).entries ∧
        (ofPolicy policy).ListsOnce ∧
        build s.defaultWindow? (s.enabledRules.map fun r => (r.name, r.ownWindow?)) =
          .ok (ofPolicy policy)) ∧
    ∀ defaultWindow rules registry, build defaultWindow rules = .ok registry →
      registry.ListsOnce := by
  refine ⟨fun text policy h => ?_, fun _ _ _ h => listsOnce_of_build h⟩
  unfold RuleSetPolicy.ofJson at h
  split at h
  · next s hread =>
    obtain ⟨hclean, hdef⟩ := RuleSetPolicy.ofChecked_eq_ok h
    have hloads := RuleSetPolicy.loads_of_ofDef hdef
    obtain ⟨hnames, -⟩ := nodup_of_checkRules_eq_nil (List.append_eq_nil_iff.mp hclean).2
    have henabled :
        ((s.enabledRules.map fun r => (r.name, r.ownWindow?)).map Prod.fst).Nodup := by
      rw [List.map_map]
      exact hnames.sublist (List.filter_sublist.map _)
    refine ⟨s, hread, hloads.forall₂_listedAs,
      listsOnce_of_nodup (nodup_ofPolicy (RuleSetPolicy.nodup_of_ofChecked h)), ?_⟩
    rw [build_of_nodup henabled, List.filterMap_map]
    exact congrArg (fun entries => Except.ok (empty.pushAll entries))
      (hloads.entries.symm.trans (entries_ofPolicy policy))
  · cases h

/-- Of three rules the second is disabled. The first inherits the default blackout and the third has
its own, which keeps the last match only. -/
def oneDisabled : String :=
  "[null,[null,null,[30,14],[15,16]]," ++
    "[[\"a\"],[\"b\",null,null,[],false],[\"c\",[\"last\",null,[0,0],[0,6]]]]]"

theorem lists_document_one_disabled :
    ∃ policy s, RuleSetPolicy.ofJson oneDisabled = .ok policy ∧
      Json.readString RuleSetDef.read oneDisabled = .ok s ∧
      (ofPolicy policy).entries.map (fun listed => (listed.1, listed.2.trigger)) =
        [("a", .all), ("c", .last)] ∧
      (ofPolicy policy).contains "b" = false ∧ (ofPolicy policy).place? "c" = some 1 ∧
      List.Forall₂ (RuleDef.ListedAs s.blackout) s.blackoutRules (ofPolicy policy).entries ∧
      (ofPolicy policy).ListsOnce ∧
      build s.defaultWindow? (s.enabledRules.map fun r => (r.name, r.ownWindow?)) =
        .ok (ofPolicy policy) := by
  have hlisted : (RuleSetPolicy.ofJson oneDisabled).toOption.map (fun policy =>
      ((ofPolicy policy).entries.map fun listed => (listed.1, listed.2.trigger),
        (ofPolicy policy).contains "b", (ofPolicy policy).place? "c")) =
      some ([("a", .all), ("c", .last)], false, some 1) := by decide +kernel
  cases hpolicy : RuleSetPolicy.ofJson oneDisabled with
  | error e =>
    rw [hpolicy] at hlisted
    cases hlisted
  | ok policy =>
    rw [hpolicy] at hlisted
    obtain ⟨hentries, hrest⟩ := Prod.mk.inj (Option.some.inj hlisted)
    obtain ⟨hcontains, hplace⟩ := Prod.mk.inj hrest
    obtain ⟨s, hread, hlists, honce, hbuild⟩ := lists_document.1 _ _ hpolicy
    exact ⟨_, s, rfl, hread, hentries, hcontains, hplace, hlists, honce, hbuild⟩

end Registry

end Blackout
