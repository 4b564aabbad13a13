import Blackout.Proofs.FiniteNumber
import Blackout.Proofs.JsonRecord
import Blackout.Proofs.JsonText
import Blackout.RuleSet.Policy

/-!
# Rule sets are read back as they were written

What a document defines can be written again: its points have numbers of 32 bits, its values are
normal, and a condition that is there is not null. What can be written is read back from its value,
since absent fields are null or missing there and a bare rule has no member that could wrap it.
-/

namespace Blackout

open Json

/-! ### What can be written -/

/-- The field is absent or has a number of 32 bits. -/
def Point.Holds32 (field : Option Int) : Prop := ∀ v ∈ field, -0x80000000 ≤ v ∧ v ≤ 0x7fffffff

/-- A point that a document can hold, in range or not. -/
structure Point.Writable (p : Point) : Prop where
  minute : Point.Holds32 p.minute
  hour : Point.Holds32 p.hour
  dayOfWeek : Point.Holds32 p.dayOfWeek
  dayOfMonth : Point.Holds32 p.dayOfMonth
  month : Point.Holds32 p.month

structure BlackoutDef.Writable (b : BlackoutDef) : Prop where
  start : ∀ p ∈ b.start, p.Writable
  stop : ∀ p ∈ b.stop, p.Writable

structure RuleDef.Writable (r : RuleDef) : Prop where
  blackout : ∀ b ∈ r.blackout, b.Writable
  condition : ∀ j ∈ r.condition, j.Normal Number.IsFinite ∧ j ≠ .null
  actions : ∀ j ∈ r.actions, j.Normal Number.IsFinite

structure RuleSetDef.Writable (s : RuleSetDef) : Prop where
  blackout : ∀ b ∈ s.blackout, b.Writable
  rules : ∀ entry ∈ s.rules, entry.rule.Writable

/-! ### What is read can be written -/

theorem Json.Node.IsFinite.parts {node : Node} (h : node.IsFinite) :
    ∀ part ∈ node.parts, part.IsFinite := by
  cases node with
  | leaf l => exact nofun
  | array items tail => exact finiteItems_iff.mp h
  | object members tail => exact List.forall_mem_map.mpr (finiteMembers_iff.mp h)

theorem forall_mem_none {β : Type} {P : β → Prop} : ∀ v ∈ (none : Option β), P v :=
  fun v h => absurd h (Option.not_mem_none v)

/-- What holds of all that is read holds of it where it may be absent. -/
theorem forall_mem_of_readOption {β : Type} {P : β → Prop} {reader : Reader β} {c : Context}
    {node : Node} {value : Option β} (h : readOption reader c node = .ok value)
    (hread : ∀ v, reader c node = .ok v → P v) : ∀ v ∈ value, P v := by
  rcases readOption_eq_ok h with rfl | ⟨-, v, rfl, hv⟩
  · exact forall_mem_none
  · intro w hw
    cases hw
    exact hread v hv

theorem Point.writable_of_read {c : Context} {node : Node} {p : Point}
    (h : Point.read c node = .ok p) : p.Writable := by
  have hblank : Writable ⟨none, none, none, none, none⟩ :=
    ⟨forall_mem_none, forall_mem_none, forall_mem_none, forall_mem_none, forall_mem_none⟩
  refine Shape.read_holds (fun _ => True) Writable ?_ hblank (fun _ _ => trivial) h
  intro field hfield c part a b _ ha hset
  simp only [shape, List.mem_cons, List.not_mem_nil, or_false] at hfield
  rcases hfield with rfl | rfl | rfl | rfl | rfl
  all_goals
    obtain ⟨v, hv, rfl⟩ := map_eq_ok.mp hset
    have hholds : Holds32 v := forall_mem_of_readOption hv fun _ => readWhole_eq_ok
  · exact { ha with minute := hholds }
  · exact { ha with hour := hholds }
  · exact { ha with dayOfWeek := hholds }
  · exact { ha with dayOfMonth := hholds }
  · exact { ha with month := hholds }

theorem BlackoutDef.writable_of_read {c : Context} {node : Node} {b : BlackoutDef}
    (h : BlackoutDef.shape.read c node = .ok b) : b.Writable := by
  have hblank : Writable ⟨none, none, none, none⟩ := ⟨forall_mem_none, forall_mem_none⟩
  refine Shape.read_holds (fun _ => True) Writable ?_ hblank (fun _ _ => trivial) h
  intro field hfield c part a b _ ha hset
  simp only [shape, List.mem_cons, List.not_mem_nil, or_false] at hfield
  rcases hfield with rfl | rfl | rfl | rfl
  all_goals obtain ⟨v, hv, rfl⟩ := map_eq_ok.mp hset
  · exact ⟨ha.start, ha.stop⟩
  · exact ⟨ha.start, ha.stop⟩
  · exact { ha with start := forall_mem_of_readOption hv fun _ => Point.writable_of_read }
  · exact { ha with stop := forall_mem_of_readOption hv fun _ => Point.writable_of_read }

/-- A finite tree that is kept and is not null has a value that is not null. -/
theorem toJson_ne_null {c : Context} {node : Node} (hfinite : node.IsFinite)
    (hkeep : node.keep c = .ok ()) (hnull : node ≠ .leaf .null) : node.toJson ≠ .null := by
  cases node with
  | array items tail => nofun
  | object members tail => nofun
  | leaf l =>
    cases l with
    | null => exact absurd rfl hnull
    | bool b => nofun
    | text s => nofun
    | faulty kept skipped => cases hkeep
    | number n =>
      cases n with
      | whole i => nofun
      | double x =>
        unfold Node.toJson
        rw [if_pos (show x.isFinite = true from hfinite)]
        nofun

theorem RuleDef.writable_of_read {c : Context} {node : Node} (hnode : node.IsFinite) {r : RuleDef}
    (h : RuleDef.shape.read c node = .ok r) : r.Writable := by
  have hblank : Writable ⟨"", none, none, [], none⟩ :=
    ⟨forall_mem_none, forall_mem_none, List.forall_mem_nil _⟩
  refine Shape.read_holds Node.IsFinite Writable ?_ hblank hnode.parts h
  intro field hfield c part a b hpart ha hset
  simp only [shape, List.mem_cons, List.not_mem_nil, or_false] at hfield
  rcases hfield with rfl | rfl | rfl | rfl | rfl
  all_goals obtain ⟨v, hv, rfl⟩ := map_eq_ok.mp hset
  · exact ⟨ha.blackout, ha.condition, ha.actions⟩
  · exact { ha with blackout := forall_mem_of_readOption hv fun _ => BlackoutDef.writable_of_read }
  · refine { ha with condition := ?_ }
    rcases readOption_eq_ok hv with rfl | ⟨hnull, j, rfl, hj⟩
    · exact forall_mem_none
    · intro k hk
      cases hk
      obtain ⟨hkeep, rfl⟩ := readJson_eq_ok.mp hj
      exact ⟨normal_toJson part, toJson_ne_null hpart hkeep hnull⟩
  · refine { ha with actions := fun j hj => ?_ }
    obtain ⟨inner, item, -, hread⟩ := readList_eq_ok hv j hj
    rw [(readJson_eq_ok.mp hread).2]
    exact normal_toJson item
  · exact ⟨ha.blackout, ha.condition, ha.actions⟩

theorem RuleEntry.writable_of_wrapper {c : Context} {node : Node} (hnode : node.IsFinite)
    {r : RuleDef} (h : RuleEntry.wrapper.read c node = .ok r) : r.Writable := by
  have hblank : RuleDef.Writable ⟨"", none, none, [], none⟩ :=
    ⟨forall_mem_none, forall_mem_none, List.forall_mem_nil _⟩
  refine Shape.read_holds Node.IsFinite RuleDef.Writable ?_ hblank hnode.parts h
  intro field hfield c part a b hpart _ hset
  rw [List.mem_singleton.mp hfield] at hset
  obtain ⟨v, hv, rfl⟩ := map_eq_ok.mp hset
  exact RuleDef.writable_of_read hpart hv

theorem RuleEntry.writable_of_read {c : Context} {node : Node} (hnode : node.IsFinite)
    {entry : RuleEntry} (h : RuleEntry.read c node = .ok entry) : entry.rule.Writable := by
  obtain ⟨_, -, h⟩ := bind_eq_ok.mp h
  dsimp only at h
  split at h
  · next rule hwrapped =>
    cases h
    cases node with
    | leaf | array => cases hwrapped
    | object members tail =>
      cases hread : RuleEntry.wrapper.read .whole (.object members tail) with
      | error e =>
        rw [hread] at hwrapped
        cases hwrapped
      | ok read =>
        rw [hread] at hwrapped
        cases hwrapped
        exact RuleEntry.writable_of_wrapper hnode hread
  · next rule hbare =>
    cases h
    exact RuleDef.writable_of_read hnode hbare
  · cases h

theorem RuleSetDef.writable_of_read {c : Context} {node : Node} (hnode : node.IsFinite)
    {s : RuleSetDef} (h : RuleSetDef.read c node = .ok s) : s.Writable := by
  have hblank : Writable ⟨none, none, []⟩ := ⟨forall_mem_none, List.forall_mem_nil _⟩
  refine Shape.read_holds Node.IsFinite Writable ?_ hblank hnode.parts h
  intro field hfield c part a b hpart ha hset
  simp only [shape, List.mem_cons, List.not_mem_nil, or_false] at hfield
  rcases hfield with rfl | rfl | rfl
  all_goals obtain ⟨v, hv, rfl⟩ := map_eq_ok.mp hset
  · exact ⟨ha.blackout, ha.rules⟩
  · exact { ha with blackout := forall_mem_of_readOption hv fun _ => BlackoutDef.writable_of_read }
  · refine { ha with rules := fun entry hentry => ?_ }
    obtain ⟨inner, item, hitem, hread⟩ := readList_eq_ok hv entry hentry
    exact RuleEntry.writable_of_read (hpart.parts item hitem) hread

/-! ### What can be written is read back -/

theorem Json.Context.enter_unlimited {c : Context} (hc : c.levels = none) : c.enter = .ok c := by
  unfold Context.enter
  rw [hc]

theorem Json.Context.leaves_unlimited {c : Context} (hc : c.levels = none) (depth : Nat) :
    c.Leaves depth := by
  intro n hn
  rw [hc] at hn
  cases hn

namespace Point

/-- A field's member, if the field is there. -/
def presentMember (name : String) (value : Option Int) : List (String × Json) :=
  value.toList.map fun v => (name, .ofInt v)

/-- The members of the fields that are there, in the order of their names. -/
def presentMembers (p : Point) : List (String × Json) :=
  presentMember "day_of_month" p.dayOfMonth ++ (presentMember "day_of_week" p.dayOfWeek ++
    (presentMember "hour" p.hour ++ (presentMember "minute" p.minute ++
      (presentMember "month" p.month ++ []))))

theorem toJson_eq_object (p : Point) : p.toJson = .object p.presentMembers := by
  refine ofMembers_of_perm ?_ ?_
  · unfold presentMembers presentMember
    simp only [← Multiset.coe_eq_coe, ← Multiset.coe_add, List.append_nil]
    abel
  · have hkey : ∀ (name : String) (value : Option Int),
        ((presentMember name value).map Prod.fst).Sublist [name] := by
      intro name value
      cases value with
      | none => exact .cons _ .slnil
      | some v => exact .refl _
    have hkeys : List.Pairwise (· < ·)
        ["day_of_month", "day_of_week", "hour", "minute", "month"] := by decide
    unfold Sorted presentMembers
    simp only [List.map_append]
    refine hkeys.sublist ((hkey _ _).append ((hkey _ _).append ?_))
    exact (hkey _ _).append ((hkey _ _).append ((hkey _ _).append (.refl _)))

/-- A field that has not been seen is read from its member, or stays absent without one. -/
theorem readMembers_presentMember {c : Context} {name : String} {value : Option Int}
    {put : Point → Option Int → Point} {seen : List String} {p : Point} (hvalue : Holds32 value)
    (hfind : shape.fields.find? (·.name = name) =
      some (.optional name (readOption readInt32) put))
    (hseen : name ∉ seen) (hput : put p none = p) (rest : List (String × Json)) :
    shape.readMembers c (memberNodes (presentMember name value ++ rest)) seen p =
      shape.readMembers c (memberNodes rest) ((presentMember name value).map Prod.fst ++ seen)
        (put p value) := by
  cases value with
  | none =>
    rw [hput]
    rfl
  | some v =>
    have hread : readInt32 c (Json.ofInt v).toNode = .ok v := readWhole_ofInt (hvalue v rfl) _ _
    have hoption : readOption readInt32 c (Json.ofInt v).toNode = .ok (some v) :=
      congrArg (Except.map some) hread
    exact Shape.readMembers_known hfind (by simpa using hseen) hoption

theorem read_toJson {p : Point} (hp : p.Writable) {c : Context} (hc : c.levels = none) :
    Point.read c p.toJson.toNode = .ok p := by
  obtain ⟨seen, hmembers⟩ : ∃ seen,
      shape.readMembers c (memberNodes p.presentMembers) [] shape.blank = .ok (p, seen) := by
    unfold presentMembers
    rw [readMembers_presentMember hp.dayOfMonth rfl List.not_mem_nil rfl,
      readMembers_presentMember hp.dayOfWeek rfl (by simp [presentMember]) rfl,
      readMembers_presentMember hp.hour rfl (by simp [presentMember]) rfl,
      readMembers_presentMember hp.minute rfl (by simp [presentMember]) rfl,
      readMembers_presentMember hp.month rfl (by simp [presentMember]) rfl]
    exact ⟨_, rfl⟩
  rw [toJson_eq_object]
  exact Shape.read_object (Context.enter_unlimited hc) hmembers rfl

end Point

theorem BlackoutDef.toJson_eq_object (b : BlackoutDef) :
    b.toJson = .object [("end_time", .ofOption Point.toJson b.stop),
      ("start_time", .ofOption Point.toJson b.start), ("timezone", .ofOption .text b.timezone),
      ("trigger", .ofOption .text b.trigger)] := by
  refine ofMembers_of_perm (List.reverse_perm _).symm ?_
  show List.Pairwise (· < ·) ["end_time", "start_time", "timezone", "trigger"]
  decide

theorem RuleDef.toJson_eq_object (r : RuleDef) :
    r.toJson = .object [("actions", .array r.actions),
      ("black_out", .ofOption BlackoutDef.toJson r.blackout),
      ("condition", r.condition.getD .null), ("enabled", .ofOption .bool r.enabled),
      ("name", .text r.name)] := by
  have hperm : ∀ name blackout condition actions enabled : String × Json,
      [name, blackout, condition, actions, enabled].Perm
        [actions, blackout, condition, enabled, name] := by
    intro name blackout condition actions enabled
    have hmiddle : ([blackout, condition] ++ actions :: [enabled, name]).Perm
        (actions :: ([blackout, condition] ++ [enabled, name])) := List.perm_middle
    exact (List.perm_append_singleton name _).symm.trans hmiddle
  refine ofMembers_of_perm (hperm _ _ _ _ _) ?_
  show List.Pairwise (· < ·) ["actions", "black_out", "condition", "enabled", "name"]
  decide

theorem RuleSetDef.toJson_eq_object (s : RuleSetDef) :
    s.toJson = .object [("black_out", .ofOption BlackoutDef.toJson s.blackout),
      ("name", .ofOption .text s.name), ("rules", .ofList RuleEntry.toJson s.rules)] := by
  refine ofMembers_of_perm (.swap ..) ?_
  show List.Pairwise (· < ·) ["black_out", "name", "rules"]
  decide

theorem BlackoutDef.read_toJson {b : BlackoutDef} (hb : b.Writable) {c : Context}
    (hc : c.levels = none) : BlackoutDef.shape.read c b.toJson.toNode = .ok b := by
  have hpoint : ∀ {value : Option Point}, (∀ p ∈ value, p.Writable) →
      readOption Point.read c (Json.ofOption Point.toJson value).toNode = .ok value := by
    intro value hvalue
    refine readOption_ofOption fun p hp => ⟨?_, Point.read_toJson (hvalue p hp) hc⟩
    rw [Point.toJson_eq_object]
    nofun
  have htext : ∀ value : Option String,
      readOption readText c (Json.ofOption .text value).toNode = .ok value := fun value =>
    readOption_ofOption fun text _ => ⟨nofun, rfl⟩
  rw [toJson_eq_object]
  exact Shape.read_object (Context.enter_unlimited hc)
    (Shape.readMembers_cons rfl rfl (hpoint hb.stop) <|
      Shape.readMembers_cons rfl rfl (hpoint hb.start) <|
      Shape.readMembers_cons rfl rfl (htext b.timezone) <|
      Shape.readMembers_cons rfl rfl (htext b.trigger) rfl) rfl

theorem readOption_blackout {value : Option BlackoutDef} (h : ∀ b ∈ value, b.Writable) {c : Context}
    (hc : c.levels = none) :
    readOption BlackoutDef.shape.read c (Json.ofOption BlackoutDef.toJson value).toNode =
      .ok value := by
  refine readOption_ofOption fun b hb => ⟨?_, BlackoutDef.read_toJson (h b hb) hc⟩
  rw [BlackoutDef.toJson_eq_object]
  nofun

theorem RuleDef.read_toJson {r : RuleDef} (hr : r.Writable) {c : Context} (hc : c.levels = none) :
    RuleDef.shape.read c r.toJson.toNode = .ok r := by
  have hjson : ∀ {j : Json}, j.Normal Number.IsFinite → readJson c j.toNode = .ok j := fun hj =>
    readJson_toNode hj (Context.leaves_unlimited hc _)
  have hactions : readList readJson c (Json.array r.actions).toNode = .ok r.actions := by
    have hlist : readList readJson c (Json.ofList id r.actions).toNode = .ok r.actions :=
      readList_ofList (Context.enter_unlimited hc) fun j hj => hjson (hr.actions j hj)
    rwa [Json.ofList, List.map_id] at hlist
  have hcondition : readOption readJson c (r.condition.getD .null).toNode = .ok r.condition := by
    have hoption : readOption readJson c (Json.ofOption id r.condition).toNode = .ok r.condition :=
      readOption_ofOption fun j hj => ⟨(hr.condition j hj).2, hjson (hr.condition j hj).1⟩
    cases hvalue : r.condition with
    | none => rfl
    | some j => rwa [hvalue] at hoption
  have henabled : readOption readBool c (Json.ofOption .bool r.enabled).toNode = .ok r.enabled :=
    readOption_ofOption fun b _ => ⟨nofun, rfl⟩
  rw [toJson_eq_object]
  exact Shape.read_object (Context.enter_unlimited hc)
    (Shape.readMembers_cons rfl rfl hactions <|
      Shape.readMembers_cons rfl rfl (readOption_blackout hr.blackout hc) <|
      Shape.readMembers_cons rfl rfl hcondition <|
      Shape.readMembers_cons rfl rfl henabled <|
      Shape.readMembers_cons rfl rfl rfl rfl) rfl

/-- A bare rule has no member that could wrap a rule. -/
theorem RuleDef.not_wrapped (r : RuleDef) (c : Context) :
    (RuleEntry.wrapper.read c r.toJson.toNode).toOption = none := by
  rw [toJson_eq_object]
  unfold toNode
  cases hread : RuleEntry.wrapper.read c (.object (memberNodes _) none) with
  | error e => rfl
  | ok rule =>
    obtain ⟨value, hvalue⟩ := Shape.exists_required hread List.mem_cons_self rfl
    simp [memberNodes, Field.needed, Field.make] at hvalue

theorem RuleEntry.read_toJson {entry : RuleEntry} (hentry : entry.rule.Writable) {c : Context}
    (hc : c.levels = none) : RuleEntry.read c entry.toJson.toNode = .ok entry := by
  have hkeep : entry.toJson.toNode.keep c = .ok () := keep_toNode (Context.leaves_unlimited hc _)
  refine bind_eq_ok.mpr ⟨(), hkeep, ?_⟩
  cases entry with
  | wrapped rule =>
    have hnode : (wrapped rule).toJson.toNode =
        .object [(.ok "Rule", rule.toJson.toNode)] none := rfl
    have hrule : wrapper.read .whole (wrapped rule).toJson.toNode = .ok rule :=
      Shape.read_object rfl
        (Shape.readMembers_cons rfl rfl (RuleDef.read_toJson hentry rfl) rfl) rfl
    rw [hnode] at hrule ⊢
    dsimp only
    rw [hrule]
    rfl
  | bare rule =>
    have hnot := rule.not_wrapped .whole
    have hbare : RuleDef.shape.read .whole rule.toJson.toNode = .ok rule :=
      RuleDef.read_toJson hentry rfl
    obtain ⟨members, hmembers⟩ : ∃ members, rule.toJson = .object members :=
      ⟨_, rule.toJson_eq_object⟩
    rw [hmembers] at hnot hbare
    dsimp only [toJson]
    rw [hmembers]
    unfold toNode at *
    dsimp only
    rw [hnot, hbare]
    rfl

theorem RuleSetDef.read_toJson {s : RuleSetDef} (hs : s.Writable) {c : Context}
    (hc : c.levels = none) : RuleSetDef.read c s.toJson.toNode = .ok s := by
  have hrules : readList RuleEntry.read c (Json.ofList RuleEntry.toJson s.rules).toNode =
      .ok s.rules :=
    readList_ofList (Context.enter_unlimited hc) fun entry hentry =>
      RuleEntry.read_toJson (hs.rules entry hentry) hc
  have hname : readOption readText c (Json.ofOption .text s.name).toNode = .ok s.name :=
    readOption_ofOption fun text _ => ⟨nofun, rfl⟩
  rw [toJson_eq_object]
  exact Shape.read_object (Context.enter_unlimited hc)
    (Shape.readMembers_cons rfl rfl (readOption_blackout hs.blackout hc) <|
      Shape.readMembers_cons rfl rfl hname <| Shape.readMembers_cons rfl rfl hrules rfl) rfl

/-! ### Main result -/

namespace RuleSetDef

/-- **Writing a rule set again loses nothing.** What a JSON text defines, in whatever form it does,
is read back from the value that it is written as: wrapped rules wrapped, bare rules bare, absent
fields absent and values unchanged. So it has the same faults and the same policy. -/
theorem read_back_of_readString {text : String} {s : RuleSetDef}
    (h : readString RuleSetDef.read text = .ok s) :
    readValue RuleSetDef.read s.toJson = .ok s ∧
    (readValue RuleSetDef.read s.toJson).map checkRuleSet =
      (readString RuleSetDef.read text).map checkRuleSet ∧
    (readValue RuleSetDef.read s.toJson).map RuleSetPolicy.ofDef =
      (readString RuleSetDef.read text).map RuleSetPolicy.ofDef := by
  have hback : readValue RuleSetDef.read s.toJson = .ok s :=
    read_toJson (writable_of_read (finite_ofText text) (readString_eq_ok h)) rfl
  rw [h, hback]
  exact ⟨rfl, rfl, rfl⟩

/-- A document with a wrapped rule, a rule that is written as an array, and an hour out of range. -/
def mixedForms : Json := .object [
  ("rules", .array [
    .object [("Rule", .object [("name", .text "a"), ("condition", .null), ("x", .ofNat 1)])],
    .array [.text "b", .null, .object [("k", .array [.ofNat 1])], .array [.object []]]]),
  ("name", .null),
  ("black_out", .object [("start_time", .object [("hour", .ofNat 99)])])]

def mixedRules : RuleSetDef where
  name := none
  blackout := some ⟨none, none, some ⟨none, some 99, none, none, none⟩, none⟩
  rules := [.wrapped ⟨"a", none, none, [], none⟩,
    .bare ⟨"b", none, some (.object [("k", .array [.ofNat 1])]), [.object []], none⟩]

/-- The wrapped rule stays wrapped and the array becomes a bare rule. -/
theorem read_back_of_readString_mixed_forms :
    readString RuleSetDef.read mixedForms.render = .ok mixedRules ∧
      readValue RuleSetDef.read mixedRules.toJson = .ok mixedRules := by
  have hfits : mixedForms.Every Number.FitsWord fun _ => True := by
    simp [mixedForms, Every, EveryItem, EveryMember, ofNat, Number.FitsWord]
  have hread : readString RuleSetDef.read mixedForms.render = .ok mixedRules :=
    readString_of_toNode hfits rfl
  exact ⟨hread, (read_back_of_readString hread).1⟩

end RuleSetDef

end Blackout
