import Blackout.Proofs.Legality

/-!
# What the check of a rule set lists

The check goes through the default blackout and then through the rules in their order. Of each it
lists one fault for every condition that is violated, and nothing else. A rule's name is held
against the names of the rules before it only. So more rules at the end add faults at the end, and
nothing is listed exactly for rule sets in which every rule has a name of its own, every blackout
is valid and every action is an object.
-/

namespace Blackout

/-- One fault of this form if the condition holds, and none if it does not. -/
structure ListsIf (condition : Prop) (form : RuleSetFault → Prop) (faults : List RuleSetFault) :
    Prop where
  one : condition → ∃ fault, form fault ∧ faults = [fault]
  none : ¬ condition → faults = []

namespace ListsIf

variable {condition condition' : Prop} {form form' : RuleSetFault → Prop}
  {faults : List RuleSetFault}

theorem eq_nil_iff (h : ListsIf condition form faults) : faults = [] ↔ ¬ condition := by
  refine ⟨fun hnil hcondition => ?_, h.none⟩
  obtain ⟨fault, -, hone⟩ := h.one hcondition
  rw [hone] at hnil
  cases hnil

theorem of_holds {fault : RuleSetFault} (hcondition : condition) (hform : form fault) :
    ListsIf condition form [fault] :=
  ⟨fun _ => ⟨fault, hform, rfl⟩, fun hnot => absurd hcondition hnot⟩

theorem of_not (hnot : ¬ condition) : ListsIf condition form [] :=
  ⟨fun hcondition => absurd hcondition hnot, fun _ => rfl⟩

theorem faultOf {ε α : Type} {wrap : ε → RuleSetFault} {x : Except ε α}
    (hcondition : condition ↔ ∃ e, x = .error e) (hform : ∀ e, x = .error e → form (wrap e)) :
    ListsIf condition form (Blackout.faultOf wrap x) := by
  cases x with
  | ok a => exact of_not fun h => nomatch hcondition.mp h
  | error e => exact of_holds (hcondition.mpr ⟨e, rfl⟩) (hform e rfl)

end ListsIf

/-! ### Blackouts -/

def knownTriggers : List String := ["all", "first", "last"]

def knownTimezones : List String := ["utc", "local"]

theorem Trigger.ofText_eq_error_iff {text : String} {e : SettingError} :
    Trigger.ofText text = .error e ↔
      Text.lowercase text ∉ knownTriggers ∧ e = .unknownTrigger (Text.lowercase text) := by
  unfold Trigger.ofText knownTriggers
  split <;> simp_all [eq_comm]

theorem ZoneMode.ofText_eq_error_iff {text : String} {e : SettingError} :
    ZoneMode.ofText text = .error e ↔
      Text.lowercase text ∉ knownTimezones ∧ e = .unknownTimezone (Text.lowercase text) := by
  unfold ZoneMode.ofText knownTimezones
  split <;> simp_all [eq_comm]

namespace BlackoutDef

/-- Both bounds are there, and they bound a window of one kind. -/
def Bounded (b : BlackoutDef) : Prop :=
  ∃ start ∈ b.start, ∃ stop ∈ b.stop, ∃ kind, start.Bounds kind ∧ stop.Bounds kind

/-- The trigger and the zone are known, where they are given, and the blackout is bounded. -/
structure Valid (b : BlackoutDef) : Prop where
  trigger : ∀ text ∈ b.trigger, Text.lowercase text ∈ knownTriggers
  timezone : ∀ text ∈ b.timezone, Text.lowercase text ∈ knownTimezones
  bounds : b.Bounded

/-- What is listed for a blackout: a trigger and a zone that are not known, and bounds that make no
window. -/
inductive Report (owner : BlackoutOwner) (b : BlackoutDef) : List RuleSetFault → Prop where
  | parts {trigger timezone bounds : List RuleSetFault}
    (htrigger : ListsIf (∃ text ∈ b.trigger, Text.lowercase text ∉ knownTriggers)
      (fun fault => ∃ text ∈ b.trigger,
        fault = .badSetting owner (.unknownTrigger (Text.lowercase text))) trigger)
    (htimezone : ListsIf (∃ text ∈ b.timezone, Text.lowercase text ∉ knownTimezones)
      (fun fault => ∃ text ∈ b.timezone,
        fault = .badSetting owner (.unknownTimezone (Text.lowercase text))) timezone)
    (hbounds : ListsIf (¬ b.Bounded)
      (fun fault => ∃ e, checkBounds b.start b.stop = .error e ∧ e.Describes b.start b.stop ∧
        fault = .badWindow owner e) bounds) :
    Report owner b (trigger ++ timezone ++ bounds)

variable {owner : BlackoutOwner} {b : BlackoutDef} {faults : List RuleSetFault}

theorem bounded_iff (b : BlackoutDef) :
    b.Bounded ↔ ∃ kind, checkBounds b.start b.stop = .ok kind := by
  constructor
  · rintro ⟨start, hstart, stop, hstop, kind, hboth⟩
    rw [Option.mem_def.mp hstart, Option.mem_def.mp hstop]
    exact ⟨kind, (checkBounds_eq_ok_iff_bounds start stop kind).mpr hboth⟩
  · rintro ⟨kind, h⟩
    cases hstart : b.start with
    | none =>
      rw [hstart] at h
      cases h
    | some start =>
      cases hstop : b.stop with
      | none =>
        rw [hstart, hstop] at h
        cases h
      | some stop =>
        rw [hstart, hstop] at h
        exact ⟨start, hstart, stop, hstop, kind, (checkBounds_eq_ok_iff_bounds ..).mp h⟩

theorem listsIf_setting {α : Type} {parse : String → Except SettingError α} {known : List String}
    {unknown : String → SettingError}
    (hparse : ∀ text e, parse text = .error e ↔
      Text.lowercase text ∉ known ∧ e = unknown (Text.lowercase text))
    (owner : BlackoutOwner) (setting : Option String) :
    ListsIf (∃ text ∈ setting, Text.lowercase text ∉ known)
      (fun fault => ∃ text ∈ setting, fault = .badSetting owner (unknown (Text.lowercase text)))
      (setting.toList.flatMap fun text => faultOf (.badSetting owner) (parse text)) := by
  cases setting with
  | none => exact .of_not (by simp)
  | some text =>
    rw [Option.toList_some, List.flatMap_singleton]
    refine .faultOf ?_ fun e h => ⟨text, rfl, congrArg _ ((hparse text e).mp h).2⟩
    simp [hparse]

theorem report_checkBlackout (owner : BlackoutOwner) (b : BlackoutDef) :
    b.Report owner (checkBlackout owner b) := by
  refine .parts (listsIf_setting (fun _ _ => Trigger.ofText_eq_error_iff) owner b.trigger)
    (listsIf_setting (fun _ _ => ZoneMode.ofText_eq_error_iff) owner b.timezone)
    (.faultOf ?_ fun e h => ⟨e, h, describes_of_checkBounds h, rfl⟩)
  rw [bounded_iff]
  cases checkBounds b.start b.stop with
  | ok kind => simp
  | error e => simp

theorem Report.eq_nil_iff (h : b.Report owner faults) : faults = [] ↔ b.Valid := by
  obtain ⟨htrigger, htimezone, hbounds⟩ := h
  rw [List.append_eq_nil_iff, List.append_eq_nil_iff, htrigger.eq_nil_iff, htimezone.eq_nil_iff,
    hbounds.eq_nil_iff, not_not]
  push Not
  exact ⟨fun h => ⟨h.1.1, h.1.2, h.2⟩, fun h => ⟨⟨h.trigger, h.timezone⟩, h.bounds⟩⟩

/-- What is listed for a blackout that need not be there. -/
def OptionReport (owner : BlackoutOwner) :
    Option BlackoutDef → List RuleSetFault → Prop
  | none, faults => faults = []
  | some b, faults => b.Report owner faults

theorem optionReport_checkBlackout (owner : BlackoutOwner) (blackout : Option BlackoutDef) :
    OptionReport owner blackout (blackout.toList.flatMap (checkBlackout owner)) := by
  cases blackout with
  | none => rfl
  | some b =>
    rw [Option.toList_some, List.flatMap_singleton]
    exact report_checkBlackout owner b

theorem OptionReport.eq_nil_iff {blackout : Option BlackoutDef}
    (h : OptionReport owner blackout faults) : faults = [] ↔ ∀ b ∈ blackout, b.Valid := by
  cases blackout with
  | none => exact iff_of_true h fun b hb => nomatch hb
  | some b => simpa using Report.eq_nil_iff h

end BlackoutDef

/-! ### Rules -/

namespace RuleDef

/-- What is listed for a rule after the rules `earlier`: its name, if it is blank or else an earlier
rule has it, its own blackout, and the first of its actions that is no object. -/
inductive Report (earlier : List RuleDef) (index : Nat) (r : RuleDef) :
    List RuleSetFault → Prop where
  | parts {blank duplicate blackout action : List RuleSetFault}
    (hblank : ListsIf (∀ c ∈ r.name.toList, Text.isBlank c = true) (· = .emptyName index) blank)
    (hduplicate : ListsIf
      ((∃ c ∈ r.name.toList, Text.isBlank c = false) ∧ ∃ other ∈ earlier, other.name = r.name)
      (· = .duplicateName r.name) duplicate)
    (hblackout : BlackoutDef.OptionReport (.rule r.name) r.blackout blackout)
    (haction : ListsIf (∃ action ∈ r.actions, action.isObject = false)
      (fun fault => ∃ objects action rest, r.actions = objects ++ action :: rest ∧
        (∀ object ∈ objects, object.isObject = true) ∧ action.isObject = false ∧
        fault = .badAction r.name action) action) :
    Report earlier index r (blank ++ duplicate ++ blackout ++ action)

variable {earlier : List RuleDef} {index : Nat} {r : RuleDef} {faults : List RuleSetFault}

theorem listsIf_checkActions (r : RuleDef) :
    ListsIf (∃ action ∈ r.actions, action.isObject = false)
      (fun fault => ∃ objects action rest, r.actions = objects ++ action :: rest ∧
        (∀ object ∈ objects, object.isObject = true) ∧ action.isObject = false ∧
        fault = .badAction r.name action) (checkActions r) := by
  unfold checkActions
  cases hfind : r.actions.find? fun action => !action.isObject with
  | none =>
    rw [List.find?_eq_none] at hfind
    exact .of_not (by simpa using hfind)
  | some action =>
    obtain ⟨hbad, objects, rest, hsplit, hobjects⟩ := List.find?_eq_some_iff_append.mp hfind
    rw [Bool.not_eq_true'] at hbad
    refine .of_holds ⟨action, List.mem_of_find?_eq_some hfind, hbad⟩
      ⟨objects, action, rest, hsplit, fun object hobject => ?_, hbad, rfl⟩
    simpa using hobjects object hobject

theorem report_checkRule {seen : List String}
    (hseen : ∀ name, name ∈ seen ↔ ∃ other ∈ earlier, other.name = name) (index : Nat)
    (r : RuleDef) : r.Report earlier index (checkRule index seen r) := by
  have hblank : Text.allBlank r.name = true ↔ ∀ c ∈ r.name.toList, Text.isBlank c = true :=
    List.all_eq_true
  have hlater := BlackoutDef.optionReport_checkBlackout (.rule r.name) r.blackout
  have hactions := r.listsIf_checkActions
  unfold checkRule checkName
  split
  · next hall =>
    have hnot : ¬ ∃ c ∈ r.name.toList, Text.isBlank c = false := by
      simpa using hblank.mp hall
    exact .parts (.of_holds (hblank.mp hall) rfl) (.of_not fun h => hnot h.1) hlater hactions
  · next hsome =>
    have hname : ∃ c ∈ r.name.toList, Text.isBlank c = false := by
      simpa using mt hblank.mpr hsome
    split
    · next hdup =>
      rw [List.contains_iff_mem, hseen] at hdup
      exact .parts (.of_not (mt hblank.mpr hsome)) (.of_holds ⟨hname, hdup⟩ rfl) hlater hactions
    · next hnew =>
      rw [List.contains_iff_mem, hseen] at hnew
      exact .parts (.of_not (mt hblank.mpr hsome)) (.of_not fun h => hnew h.2) hlater hactions

theorem Report.eq_nil_iff (h : r.Report earlier index faults) :
    faults = [] ↔ (∃ c ∈ r.name.toList, Text.isBlank c = false) ∧
      (∀ other ∈ earlier, other.name ≠ r.name) ∧ (∀ b ∈ r.blackout, b.Valid) ∧
      ∀ action ∈ r.actions, action.isObject = true := by
  obtain ⟨hblank, hduplicate, hblackout, haction⟩ := h
  rw [List.append_eq_nil_iff, List.append_eq_nil_iff, List.append_eq_nil_iff, hblank.eq_nil_iff,
    hduplicate.eq_nil_iff, hblackout.eq_nil_iff, haction.eq_nil_iff]
  simp only [not_forall, not_and, not_exists, Bool.not_eq_true, Bool.not_eq_false, exists_prop,
    and_assoc]
  exact and_congr_right fun hname => and_congr_left' (imp_iff_right hname)

end RuleDef

/-! ### Rule sets -/

theorem checkRules_eq_flatten (index : Nat) (seen : List String) (rules : List RuleDef) :
    checkRules index seen rules = (rules.mapIdx fun i r =>
      checkRule (index + i) (((rules.take i).map RuleDef.name).reverse ++ seen) r).flatten := by
  induction rules generalizing index seen with
  | nil => rfl
  | cons rule rest ih =>
    rw [checkRules, ih, List.mapIdx_cons, List.flatten_cons]
    simp only [List.take_succ_cons, List.map_cons, List.reverse_cons, List.append_assoc,
      List.singleton_append, Nat.add_assoc, Nat.add_comm 1]
    rfl

theorem checkRules_append (index : Nat) (seen : List String) (first second : List RuleDef) :
    checkRules index seen (first ++ second) = checkRules index seen first ++
      checkRules (index + first.length) ((first.map RuleDef.name).reverse ++ seen) second := by
  induction first generalizing index seen with
  | nil => rfl
  | cons rule rest ih =>
    rw [List.cons_append, checkRules, checkRules, ih, List.append_assoc]
    simp only [List.length_cons, List.map_cons, List.reverse_cons, List.append_assoc,
      List.singleton_append, Nat.add_assoc, Nat.add_comm 1]

theorem nodup_map_iff_take {α β : Type} (f : α → β) (xs : List α) :
    (xs.map f).Nodup ↔ ∀ i x, xs[i]? = some x → ∀ earlier ∈ xs.take i, f earlier ≠ f x := by
  rw [List.Nodup, List.pairwise_map, List.pairwise_iff_getElem]
  constructor
  · intro h i x hx earlier hearlier
    obtain ⟨j, hj, rfl⟩ := List.mem_take_iff_getElem.mp hearlier
    obtain ⟨hi, rfl⟩ := List.getElem?_eq_some_iff.mp hx
    exact h j i (by omega) hi (by omega)
  · intro h i j hi hj hij
    exact h j _ (List.getElem?_eq_getElem hj) _ (List.mem_take_iff_getElem.mpr ⟨i, by omega, rfl⟩)

namespace RuleSetDef

def ruleDefs (s : RuleSetDef) : List RuleDef := s.rules.map RuleEntry.rule

/-- Every rule has a name of its own that is not blank, all blackouts are valid, and all actions are
objects. -/
structure Sound (s : RuleSetDef) : Prop where
  named : ∀ r ∈ s.ruleDefs, ∃ c ∈ r.name.toList, Text.isBlank c = false
  distinct : (s.ruleDefs.map RuleDef.name).Nodup
  default : ∀ b ∈ s.blackout, b.Valid
  blackouts : ∀ r ∈ s.ruleDefs, ∀ b ∈ r.blackout, b.Valid
  actions : ∀ r ∈ s.ruleDefs, ∀ action ∈ r.actions, action.isObject = true

/-- What is listed for a rule set: a part for the default blackout, and then one for each rule after
the rules before it. -/
structure Report (s : RuleSetDef) (first : List RuleSetFault) (parts : List (List RuleSetFault)) :
    Prop where
  default : BlackoutDef.OptionReport .ruleSet s.blackout first
  length : parts.length = s.ruleDefs.length
  rules : ∀ index (r : RuleDef) part, s.ruleDefs[index]? = some r → parts[index]? = some part →
    r.Report (s.ruleDefs.take index) index part

variable {s : RuleSetDef} {first : List RuleSetFault} {parts : List (List RuleSetFault)}

theorem exists_report (s : RuleSetDef) :
    ∃ first parts, checkRuleSet s = first ++ parts.flatten ∧ s.Report first parts := by
  refine ⟨_, _, congrArg _ (checkRules_eq_flatten 0 [] s.ruleDefs),
    BlackoutDef.optionReport_checkBlackout .ruleSet s.blackout, List.length_mapIdx, ?_⟩
  intro index r part hr hpart
  rw [List.getElem?_mapIdx, hr, Option.map_some, Nat.zero_add] at hpart
  cases hpart
  refine RuleDef.report_checkRule (fun name => ?_) index r
  rw [List.append_nil, List.mem_reverse, List.mem_map]

theorem Report.eq_nil_iff (h : s.Report first parts) :
    first ++ parts.flatten = [] ↔ s.Sound := by
  have hrules : parts.flatten = [] ↔ ∀ index r, s.ruleDefs[index]? = some r →
      (∃ c ∈ r.name.toList, Text.isBlank c = false) ∧
      (∀ other ∈ s.ruleDefs.take index, other.name ≠ r.name) ∧ (∀ b ∈ r.blackout, b.Valid) ∧
      ∀ action ∈ r.actions, action.isObject = true := by
    rw [List.flatten_eq_nil_iff]
    constructor
    · intro hempty index r hr
      have hindex : index < parts.length := h.length ▸ (List.getElem?_eq_some_iff.mp hr).1
      exact (h.rules index r _ hr (List.getElem?_eq_getElem hindex)).eq_nil_iff.mp
        (hempty _ (List.getElem_mem hindex))
    · intro hsound part hmem
      obtain ⟨index, hpart⟩ := List.mem_iff_getElem?.mp hmem
      have hindex : index < s.ruleDefs.length :=
        h.length ▸ (List.getElem?_eq_some_iff.mp hpart).1
      have hr := List.getElem?_eq_getElem hindex
      exact (h.rules index _ part hr hpart).eq_nil_iff.mpr (hsound index _ hr)
  rw [List.append_eq_nil_iff, h.default.eq_nil_iff, hrules]
  constructor
  · rintro ⟨hdefault, hall⟩
    have heach : ∀ r ∈ s.ruleDefs, ∃ index, s.ruleDefs[index]? = some r := fun r hr =>
      List.mem_iff_getElem?.mp hr
    refine ⟨fun r hr => ?_, (nodup_map_iff_take _ _).mpr fun i r hr => (hall i r hr).2.1, hdefault,
      fun r hr => ?_, fun r hr => ?_⟩
    · obtain ⟨index, hr⟩ := heach r hr
      exact (hall index r hr).1
    · obtain ⟨index, hr⟩ := heach r hr
      exact (hall index r hr).2.2.1
    · obtain ⟨index, hr⟩ := heach r hr
      exact (hall index r hr).2.2.2
  · intro hsound
    refine ⟨hsound.default, fun index r hr => ?_⟩
    have hmem := List.mem_of_getElem? hr
    exact ⟨hsound.named r hmem, (nodup_map_iff_take _ _).mp hsound.distinct index r hr,
      hsound.blackouts r hmem, hsound.actions r hmem⟩

/-- **The check lists every fault and nothing else.** It lists the faults of the default blackout
and then those of each rule, in order. Nothing is listed exactly for a sound rule set, and rules
that are added at the end add faults at the end. -/
theorem checkRuleSet_lists_all (s : RuleSetDef) :
    (∃ first parts, checkRuleSet s = first ++ parts.flatten ∧ s.Report first parts) ∧
    (checkRuleSet s = [] ↔ s.Sound) ∧
    ∀ more, checkRuleSet s <+: checkRuleSet { s with rules := s.rules ++ more } := by
  obtain ⟨first, parts, hlist, hreport⟩ := s.exists_report
  refine ⟨⟨first, parts, hlist, hreport⟩, ?_, fun more => ?_⟩
  · rw [hlist]
    exact hreport.eq_nil_iff
  · unfold checkRuleSet
    dsimp only
    rw [List.map_append, checkRules_append, ← List.append_assoc]
    exact List.prefix_append _ _

/-- The second rule has no name, and the third one repeats the name of the first. Its blackout has a
trigger that is not known and no bounds, and its second action is no object. -/
def muddled : RuleSetDef :=
  ⟨none, none, [.bare ⟨"a", none, none, [], none⟩, .wrapped ⟨" ", none, none, [], none⟩,
    .bare ⟨"a", some ⟨some "Never", none, none, none⟩, none, [.object [], .null], none⟩]⟩

theorem checkRuleSet_lists_all_muddled :
    checkRuleSet muddled = [.emptyName 1, .duplicateName "a",
      .badSetting (.rule "a") (.unknownTrigger "never"),
      .badWindow (.rule "a") (.missingBoundary .start), .badAction "a" .null] ∧
    ¬ muddled.Sound ∧
    checkRuleSet muddled <+: checkRuleSet ⟨none, none, muddled.rules ++ muddled.rules⟩ := by
  obtain ⟨-, hsound, hmore⟩ := checkRuleSet_lists_all muddled
  have hlist : checkRuleSet muddled = [.emptyName 1, .duplicateName "a",
      .badSetting (.rule "a") (.unknownTrigger "never"),
      .badWindow (.rule "a") (.missingBoundary .start), .badAction "a" .null] := by rfl
  refine ⟨hlist, fun h => ?_, hmore muddled.rules⟩
  have hnil := hsound.mpr h
  rw [hlist] at hnil
  cases hnil

end RuleSetDef

end Blackout
