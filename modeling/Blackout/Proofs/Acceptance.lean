import Blackout.Proofs.Registry

/-!
# Checks and policies agree

A rule set is checked for all of its faults, and its policy is built on its own, up to the first
blackout that cannot be. Both look at settings and bounds in the same order, so the policy fails
exactly for the first fault of a blackout that the check lists, and a rule set without faults is
loaded with all its rules.
-/

namespace Blackout

/-! ### Outcomes and lists of faults -/

/-- An outcome fails exactly for the first of these faults. -/
def Blames {ε α : Type} (outcome : Except ε α) (faults : List ε) : Prop :=
  ∀ e, outcome = .error e ↔ faults.head? = some e

namespace Blames

variable {ε ε' α β : Type} {x : Except ε α} {faults : List ε}

theorem ok (a : α) : Blames (.ok a : Except ε α) [] := by
  intro e
  simp

theorem error (e : ε) : Blames (.error e : Except ε α) [e] := by
  intro e'
  simp

theorem eq_nil_of_ok {a : α} (h : Blames (.ok a) faults) : faults = [] := by
  cases faults with
  | nil => rfl
  | cons e rest => cases (h e).mpr rfl

theorem mapError (wrap : ε → ε') (x : Except ε α) :
    Blames (x.mapError wrap) (faultOf wrap x) := by
  intro e
  cases x with
  | ok a => simp [Except.mapError, faultOf]
  | error e' => simp [Except.mapError, faultOf]

theorem bind {f : α → Except ε β} {later : List ε} (hx : Blames x faults)
    (hf : ∀ a, x = .ok a → Blames (f a) later) : Blames (x >>= f) (faults ++ later) := by
  intro e
  cases x with
  | ok a =>
    rw [hx.eq_nil_of_ok]
    exact hf a rfl e
  | error e' =>
    obtain ⟨rest, rfl⟩ := List.head?_eq_some_iff.mp ((hx e').mp rfl)
    simp [bind_eq_error]

/-- What is done with a value once it is there can no longer fail. -/
theorem map {f : α → β} (hx : Blames x faults) :
    Blames (x >>= fun a => .ok (f a)) faults := by
  have h := hx.bind (f := fun a => .ok (f a)) fun a _ => ok (f a)
  rwa [List.append_nil] at h

theorem mapM {f : α → Except ε β} {g : α → List ε} (h : ∀ a, Blames (f a) (g a)) (xs : List α) :
    Blames (xs.mapM f) (xs.flatMap g) := by
  induction xs with
  | nil => exact ok []
  | cons a rest ih =>
    rw [List.mapM_cons, List.flatMap_cons]
    exact (h a).bind fun b _ => ih.map

end Blames

/-! ### Checked bounds make a schedule -/

namespace Point

variable {p : Point}

theorem exists_timeOfDay? (hhour : p.hour.isSome = true)
    (hfits : ∀ field : PointField, field.Fits p) : ∃ time, p.timeOfDay? = some time := by
  obtain ⟨hour, hhour⟩ := Option.isSome_iff_exists.mp hhour
  have hrange : 0 ≤ hour ∧ hour ≤ 23 := hfits .hour hour hhour
  have hminute : 0 ≤ p.minute.getD 0 ∧ p.minute.getD 0 ≤ 59 := by
    cases hm : p.minute with
    | none => simp
    | some minute => exact hfits .minute minute hm
  refine ⟨⟨(3600 * hour + 60 * p.minute.getD 0).toNat⟩, ?_⟩
  unfold timeOfDay? TimeOfDay.ofHourMinute?
  rw [hhour]
  exact if_pos ⟨hrange.1, hrange.2, hminute.1, hminute.2⟩

theorem exists_weekday? (hday : p.dayOfWeek.isSome = true)
    (hfits : PointField.dayOfWeek.Fits p) : ∃ weekday, p.weekday? = some weekday := by
  obtain ⟨day, hday⟩ := Option.isSome_iff_exists.mp hday
  have hrange : 0 ≤ day ∧ day ≤ 7 := hfits day hday
  refine ⟨Weekday.ofNumber (day.toNat + 6), ?_⟩
  unfold weekday?
  rw [hday]
  exact if_pos hrange

end Point

namespace Schedule

variable {p q : Point} {kind : Kind}

theorem exists_dayOfMonth? (hday : p.dayOfMonth.isSome = true)
    (hfits : PointField.dayOfMonth.Fits p) : ∃ day, dayOfMonth? p = some day := by
  obtain ⟨day, hday⟩ := Option.isSome_iff_exists.mp hday
  have hrange : 1 ≤ day ∧ day ≤ 31 := hfits day hday
  refine ⟨day.toNat, ?_⟩
  unfold dayOfMonth?
  rw [hday]
  exact if_pos (by omega)

theorem exists_monthDay? (hmonth : p.month.isSome = true) (hday : p.dayOfMonth.isSome = true)
    (hfits : ∀ field : PointField, field.Fits p) : ∃ date, monthDay? p = .ok date := by
  obtain ⟨month, hmonth⟩ := Option.isSome_iff_exists.mp hmonth
  obtain ⟨day, hday⟩ := exists_dayOfMonth? hday (hfits .dayOfMonth)
  have hrange : 1 ≤ month ∧ month ≤ 12 := hfits .month month hmonth
  refine ⟨⟨month.toNat, day⟩, ?_⟩
  unfold monthDay?
  have hsome : (p.month.bind fun m => if 0 ≤ m then some m.toNat else none) =
      some month.toNat := by
    rw [hmonth]
    exact if_pos (by omega)
  rw [hsome, hday]
  rfl

end Schedule

/-- The fields that make up a kind, beside the time of day. -/
def Kind.fields : Kind → List PointField
  | daily => []
  | weekly => [.dayOfWeek]
  | monthly => [.dayOfMonth]
  | annual => [.month, .dayOfMonth]

theorem Point.isSome_of_kind? {p : Point} {kind : Kind} (h : p.kind? = some kind) :
    ∀ field ∈ kind.fields, (field.get p).isSome = true := by
  unfold kind? at h
  split at h
  all_goals cases h
  all_goals simp_all [Kind.fields, PointField.get]

theorem Schedule.exists_ofPoints {p q : Point} {kind : Kind}
    (h : checkBounds (some p) (some q) = .ok kind) : ∃ s, ofPoints kind p q = .ok s := by
  obtain ⟨hp, hq, hpkind, hqkind, -⟩ := (checkBounds_eq_ok_iff p q kind).mp h
  obtain ⟨hphour, hpfits⟩ := (checkRanges_eq_ok_iff _ p).mp hp
  obtain ⟨hqhour, hqfits⟩ := (checkRanges_eq_ok_iff _ q).mp hq
  obtain ⟨start, hstart⟩ := Point.exists_timeOfDay? hphour hpfits
  obtain ⟨stop, hstop⟩ := Point.exists_timeOfDay? hqhour hqfits
  have hpsome := Point.isSome_of_kind? hpkind
  have hqsome := Point.isSome_of_kind? hqkind
  unfold ofPoints
  rw [hstart, hstop]
  cases kind with
  | daily => exact ⟨_, rfl⟩
  | weekly =>
    obtain ⟨startDay, hstartDay⟩ := Point.exists_weekday? (hpsome .dayOfWeek (by decide)) (hpfits _)
    obtain ⟨stopDay, hstopDay⟩ := Point.exists_weekday? (hqsome .dayOfWeek (by decide)) (hqfits _)
    rw [hstartDay, hstopDay]
    exact ⟨_, rfl⟩
  | monthly =>
    obtain ⟨startDay, hstartDay⟩ := exists_dayOfMonth? (hpsome .dayOfMonth (by decide)) (hpfits _)
    obtain ⟨stopDay, hstopDay⟩ := exists_dayOfMonth? (hqsome .dayOfMonth (by decide)) (hqfits _)
    rw [hstartDay, hstopDay]
    exact ⟨_, rfl⟩
  | annual =>
    obtain ⟨startDate, hstartDate⟩ := exists_monthDay? (hpsome .month (by decide))
      (hpsome .dayOfMonth (by decide)) hpfits
    obtain ⟨stopDate, hstopDate⟩ := exists_monthDay? (hqsome .month (by decide))
      (hqsome .dayOfMonth (by decide)) hqfits
    rw [hstartDate, hstopDate]
    exact ⟨_, rfl⟩

theorem Window.ofBounds_eq_error_iff {p q : Point} {trigger : Trigger} {mode : ZoneMode}
    {e : WindowError} :
    ofBounds p q trigger mode = .error e ↔ checkBounds (some p) (some q) = .error e := by
  unfold ofBounds
  rw [bind_eq_error]
  apply or_iff_left
  rintro ⟨kind, hkind, h⟩
  obtain ⟨s, hs⟩ := Schedule.exists_ofPoints hkind
  rw [hs] at h
  cases h

/-! ### Blackouts -/

theorem faultOf_congr {ε α β γ : Type} {wrap : ε → γ} {x : Except ε α} {y : Except ε β}
    (h : ∀ e, x = .error e ↔ y = .error e) : faultOf wrap x = faultOf wrap y := by
  cases x with
  | error e =>
    rw [(h e).mp rfl]
    rfl
  | ok a =>
    cases y with
    | error e => cases (h e).mpr rfl
    | ok b => rfl

theorem blames_settingOr {α : Type} (owner : BlackoutOwner)
    (parse : String → Except SettingError α) (default : α) (text : Option String) :
    Blames (settingOr owner parse default text)
      (text.toList.flatMap fun t => faultOf (.badSetting owner) (parse t)) := by
  cases text with
  | none => exact .ok default
  | some t =>
    rw [Option.toList_some, List.flatMap_singleton]
    exact .mapError _ (parse t)

theorem BlackoutDef.blames_window (owner : BlackoutOwner) (b : BlackoutDef) :
    Blames (b.window owner) (checkBlackout owner b) := by
  unfold window checkBlackout
  rw [List.append_assoc]
  refine (blames_settingOr owner Trigger.ofText .all b.trigger).bind fun trigger _ => ?_
  refine (blames_settingOr owner ZoneMode.ofText .utc b.timezone).bind fun mode _ => ?_
  split
  · next start stop hstart hstop =>
    have hbounds : faultOf (RuleSetFault.badWindow owner) (checkBounds b.start b.stop) =
        faultOf (.badWindow owner) (Window.ofBounds start stop trigger mode) := by
      rw [hstart, hstop]
      exact faultOf_congr fun e => Window.ofBounds_eq_error_iff.symm
    rw [hbounds]
    exact .mapError _ _
  · next hstart =>
    rw [hstart]
    exact .error _
  · next start hstart hstop =>
    rw [hstart, hstop]
    exact .error _

/-! ### Policies -/

theorem RulePolicy.blames_ofDef (defaultWindow : Option Window) (r : RuleDef) :
    Blames (ofDef defaultWindow r)
      (r.blackout.toList.flatMap (checkBlackout (.rule r.name))) := by
  unfold ofDef
  dsimp only
  split
  · next own hown =>
    rw [hown, Option.toList_some, List.flatMap_singleton]
    exact (own.blames_window (.rule r.name)).map
  · next hown =>
    rw [hown]
    exact .ok _
  · next hown =>
    rw [hown]
    exact .ok _

/-- Faults of the default blackout and then of the rules' own blackouts, in order. -/
def RuleSetDef.blackoutFaults (s : RuleSetDef) : List RuleSetFault :=
  (s.blackout.toList.flatMap (checkBlackout .ruleSet)) ++
    s.rules.flatMap fun entry =>
      entry.rule.blackout.toList.flatMap (checkBlackout (.rule entry.rule.name))

theorem RuleSetPolicy.blames_ofDef (s : RuleSetDef) : Blames (ofDef s) s.blackoutFaults := by
  have hrules (defaultWindow : Option Window) :=
    Blames.mapM (fun entry : RuleEntry => RulePolicy.blames_ofDef defaultWindow entry.rule) s.rules
  unfold ofDef RuleSetDef.blackoutFaults
  dsimp only
  split
  · next hnone =>
    rw [hnone]
    exact (hrules none).map
  · next b hb =>
    rw [hb, Option.toList_some, List.flatMap_singleton]
    exact (b.blames_window .ruleSet).bind fun window _ => (hrules (some window)).map

/-! ### The check's faults of blackouts -/

def RuleSetFault.isBlackout : RuleSetFault → Bool
  | badWindow .. => true
  | badSetting .. => true
  | badAction .. => false
  | duplicateName .. => false
  | emptyName .. => false

theorem eq_wrap_of_mem_faultOf {ε α β : Type} {wrap : ε → β} {x : Except ε α} {fault : β}
    (h : fault ∈ faultOf wrap x) : ∃ e, fault = wrap e := by
  cases x with
  | ok a => cases h
  | error e => exact ⟨e, List.mem_singleton.mp h⟩

theorem isBlackout_of_mem_checkBlackout {owner : BlackoutOwner} {b : BlackoutDef}
    {fault : RuleSetFault} (h : fault ∈ checkBlackout owner b) : fault.isBlackout = true := by
  unfold checkBlackout at h
  simp only [List.mem_append, List.mem_flatMap] at h
  rcases h with (⟨_, -, h⟩ | ⟨_, -, h⟩) | h
  all_goals
    obtain ⟨e, rfl⟩ := eq_wrap_of_mem_faultOf h
    rfl

theorem filter_checkBlackout (owner : BlackoutOwner) (blackout : Option BlackoutDef) :
    (blackout.toList.flatMap (checkBlackout owner)).filter RuleSetFault.isBlackout =
      blackout.toList.flatMap (checkBlackout owner) := by
  rw [List.filter_eq_self]
  intro fault h
  obtain ⟨b, -, h⟩ := List.mem_flatMap.mp h
  exact isBlackout_of_mem_checkBlackout h

theorem filter_checkName (index : Nat) (seen : List String) (name : String) :
    (checkName index seen name).filter RuleSetFault.isBlackout = [] := by
  unfold checkName
  split
  · rfl
  · split <;> rfl

theorem filter_checkActions (rule : RuleDef) :
    (checkActions rule).filter RuleSetFault.isBlackout = [] := by
  unfold checkActions
  cases rule.actions.find? fun a => !a.isObject <;> rfl

theorem filter_checkRules (index : Nat) (seen : List String) (rules : List RuleDef) :
    (checkRules index seen rules).filter RuleSetFault.isBlackout =
      rules.flatMap fun rule => rule.blackout.toList.flatMap (checkBlackout (.rule rule.name)) := by
  induction rules generalizing index seen with
  | nil => rfl
  | cons rule rest ih =>
    simp only [checkRules, checkRule, List.filter_append, filter_checkName, filter_checkActions,
      filter_checkBlackout, ih, List.nil_append, List.append_nil, List.flatMap_cons]

theorem filter_checkRuleSet (s : RuleSetDef) :
    (checkRuleSet s).filter RuleSetFault.isBlackout = s.blackoutFaults := by
  simp only [checkRuleSet, RuleSetDef.blackoutFaults, List.filter_append, filter_checkBlackout,
    filter_checkRules, List.flatMap_map]

namespace RuleSetPolicy

theorem ofDef_eq_error_iff {s : RuleSetDef} {fault : RuleSetFault} :
    ofDef s = .error fault ↔ (checkRuleSet s).find? RuleSetFault.isBlackout = some fault := by
  rw [blames_ofDef s fault, ← filter_checkRuleSet, List.head?_filter]

/-- **Check and policy agree.** A policy fails exactly for the first fault of a blackout that the
check of the rule set lists. So a rule set without faults is loaded, with all its rules, and one
with faults is refused for all of them. -/
theorem ofDef_iff_checkRuleSet (s : RuleSetDef) :
    (∀ fault, ofDef s = .error fault ↔
      (checkRuleSet s).find? RuleSetFault.isBlackout = some fault) ∧
    ((∃ fault, ofDef s = .error fault) ↔ ∃ fault ∈ checkRuleSet s, fault.isBlackout = true) ∧
    (checkRuleSet s = [] →
      ∃ policy, ofDef s = .ok policy ∧ ofChecked s = .ok policy ∧ policy.Loads s) ∧
    (checkRuleSet s ≠ [] → ofChecked s = .error (.invalid (checkRuleSet s))) := by
  refine ⟨fun fault => ofDef_eq_error_iff, ?_, fun hclean => ?_, fun hfaulty => ?_⟩
  · simp only [ofDef_eq_error_iff, ← Option.isSome_iff_exists, List.find?_isSome]
  · cases h : ofDef s with
    | ok policy =>
      refine ⟨policy, rfl, ?_, loads_of_ofDef h⟩
      unfold ofChecked
      rw [hclean, h]
      rfl
    | error fault =>
      rw [ofDef_eq_error_iff, hclean] at h
      cases h
  · unfold ofChecked
    split
    · next hclean => exact absurd hclean hfaulty
    · rfl

end RuleSetPolicy

end Blackout
