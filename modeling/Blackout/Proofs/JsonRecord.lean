import Blackout.Proofs.JsonValue

/-!
# Records that are read back

A record is read from an object member by member: a member of a known name that has not been seen is
read into the record. A tagged record is told by the member that names it, and keeps the other
members as they are.
-/

namespace Blackout.Json

variable {α β : Type}

/-! ### Single values -/

theorem readWhole_ofInt {least greatest i : Int} (h : least ≤ i ∧ i ≤ greatest) (expected : String)
    (c : Context) : readWhole least greatest expected c (ofInt i).toNode = .ok i :=
  if_pos h

theorem map_readWhole_ofNat {n : Nat} (h : n ≤ 0xffffffffffffffff) (expected : String)
    (c : Context) :
    (readWhole 0 0xffffffffffffffff expected c (ofNat n).toNode).map Int.toNat = .ok n := by
  have hwhole : readWhole 0 0xffffffffffffffff expected c (ofInt n).toNode = .ok (n : Int) :=
    readWhole_ofInt ⟨by omega, by omega⟩ expected c
  exact congrArg (Except.map Int.toNat) hwhole

theorem readAmount_ofNat {n : Nat} (h : n ≤ 0xffffffffffffffff) (c : Context) :
    readAmount c (ofNat n).toNode = .ok n :=
  map_readWhole_ofNat h "u64" c

theorem readCount_ofNat {n : Nat} (h : n ≤ 0xffffffffffffffff) (c : Context) :
    readCount c (ofNat n).toNode = .ok n :=
  map_readWhole_ofNat h "usize" c

/-- What is null reads as absent, and all else is read as it stands. -/
theorem readOption_toNode {j : Json} (h : j ≠ .null) (reader : Reader β) (c : Context) :
    readOption reader c j.toNode = (reader c j.toNode).map some := by
  cases j with
  | null => exact absurd rfl h
  | _ => rfl

theorem readOption_ofOption {f : β → Json} {reader : Reader β} {c : Context} {value : Option β}
    (h : ∀ v ∈ value, f v ≠ .null ∧ reader c (f v).toNode = .ok v) :
    readOption reader c (ofOption f value).toNode = .ok value := by
  cases value with
  | none => rfl
  | some v =>
    obtain ⟨hnull, hread⟩ := h v rfl
    unfold ofOption
    rw [readOption_toNode hnull, hread]
    rfl

theorem readItems_itemNodes {f : β → Json} {reader : Reader β} {c : Context} {items : List β}
    (h : ∀ a ∈ items, reader c (f a).toNode = .ok a) :
    readItems reader c (itemNodes (items.map f)) = .ok items := by
  induction items with
  | nil => rfl
  | cons a rest ih =>
    rw [List.forall_mem_cons] at h
    have hrest := ih h.2
    exact bind_eq_ok.mpr ⟨a, h.1, bind_eq_ok.mpr ⟨rest, hrest, rfl⟩⟩

theorem readList_ofList {f : β → Json} {reader : Reader β} {c inner : Context} {items : List β}
    (henter : c.enter = .ok inner) (h : ∀ a ∈ items, reader inner (f a).toNode = .ok a) :
    readList reader c (ofList f items).toNode = .ok items :=
  bind_eq_ok.mpr ⟨inner, henter, bind_eq_ok.mpr ⟨items, readItems_itemNodes h, rfl⟩⟩

/-! ### What is read, part by part -/

/-- The items of an array, or the values of the members of an object. -/
def Node.parts : Node → List Node
  | .leaf _ => []
  | .array items _ => items
  | .object members _ => members.map Prod.snd

theorem readWhole_eq_ok {least greatest i : Int} {expected : String} {c : Context} {node : Node}
    (h : readWhole least greatest expected c node = .ok i) : least ≤ i ∧ i ≤ greatest := by
  unfold readWhole at h
  split at h
  · split at h
    · next hrange =>
      cases h
      exact hrange
    · cases h
  · cases h

theorem readOption_eq_ok {reader : Reader β} {c : Context} {node : Node} {value : Option β}
    (h : readOption reader c node = .ok value) :
    value = none ∨ node ≠ .leaf .null ∧ ∃ v, value = some v ∧ reader c node = .ok v := by
  unfold readOption at h
  split at h
  · cases h
    exact .inl rfl
  · next hnull =>
    obtain ⟨v, hv, rfl⟩ := map_eq_ok.mp h
    exact .inr ⟨hnull, v, rfl, hv⟩

theorem readItems_eq_ok {reader : Reader β} {c : Context} {items : List Node} {values : List β}
    (h : readItems reader c items = .ok values) :
    ∀ v ∈ values, ∃ item ∈ items, reader c item = .ok v := by
  induction items generalizing values with
  | nil =>
    cases h
    exact nofun
  | cons item rest ih =>
    obtain ⟨v, hv, h⟩ := bind_eq_ok.mp h
    obtain ⟨later, hlater, h⟩ := bind_eq_ok.mp h
    cases h
    refine List.forall_mem_cons.mpr ⟨⟨item, List.mem_cons_self, hv⟩, fun w hw => ?_⟩
    obtain ⟨other, hother, hread⟩ := ih hlater w hw
    exact ⟨other, List.mem_cons_of_mem item hother, hread⟩

theorem readList_eq_ok {reader : Reader β} {c : Context} {node : Node} {values : List β}
    (h : readList reader c node = .ok values) :
    ∀ v ∈ values, ∃ inner, ∃ part ∈ node.parts, reader inner part = .ok v := by
  cases node with
  | leaf l => cases h
  | object members tail => cases h
  | array items tail =>
    obtain ⟨inner, -, h⟩ := bind_eq_ok.mp h
    obtain ⟨read, hread, h⟩ := bind_eq_ok.mp h
    obtain ⟨_, -, h⟩ := bind_eq_ok.mp h
    cases h
    exact fun v hv => ⟨inner, readItems_eq_ok hread v hv⟩

theorem readJson_eq_ok {c : Context} {node : Node} {value : Json} :
    readJson c node = .ok value ↔ node.keep c = .ok () ∧ value = node.toJson := by
  unfold readJson
  rw [bind_eq_ok]
  constructor
  · rintro ⟨_, hkeep, h⟩
    cases h
    exact ⟨hkeep, rfl⟩
  · rintro ⟨hkeep, rfl⟩
    exact ⟨(), hkeep, rfl⟩

theorem readString_eq_ok {reader : Reader α} {text : String} {a : α}
    (h : readString reader text = .ok a) :
    reader .document (Document.ofText text).root = .ok a := by
  obtain ⟨b, hb, h⟩ := bind_eq_ok.mp h
  obtain ⟨_, -, h⟩ := bind_eq_ok.mp h
  cases h
  exact hb

/-! ### Members -/

namespace Shape

/-- A member of a known name that has not been seen is read into the record. -/
theorem readMembers_known {shape : Shape α} {c : Context} {key name : String} {required : Bool}
    {reader : Reader β} {put : α → β → α} {value : Node} {rest : List Member} {seen : List String}
    {a : α} {v : β}
    (hfind : shape.fields.find? (·.name = key) = some (.make name required reader put))
    (hseen : seen.contains key = false) (hread : reader c value = .ok v) :
    shape.readMembers c ((.ok key, value) :: rest) seen a =
      shape.readMembers c rest (key :: seen) (put a v) := by
  have hset : (Field.make name required reader put).set c value a = .ok (put a v) :=
    congrArg (Except.map (put a)) hread
  rw [readMembers, hfind]
  dsimp only
  rw [hseen, hset]
  rfl

theorem readMembers_cons {shape : Shape α} {c : Context} {key name : String} {required : Bool}
    {reader : Reader β} {put : α → β → α} {value : Node} {rest : List Member} {seen : List String}
    {a : α} {v : β} {r : α × List String}
    (hfind : shape.fields.find? (·.name = key) = some (.make name required reader put))
    (hseen : seen.contains key = false) (hread : reader c value = .ok v)
    (hrest : shape.readMembers c rest (key :: seen) (put a v) = .ok r) :
    shape.readMembers c ((.ok key, value) :: rest) seen a = .ok r :=
  (readMembers_known hfind hseen hread).trans hrest

theorem read_object {shape : Shape α} {c inner : Context} {members : List Member} {a : α}
    {seen : List String} (henter : c.enter = .ok inner)
    (hmembers : shape.readMembers inner members [] shape.blank = .ok (a, seen))
    (hcomplete : shape.checkComplete seen = .ok ()) :
    shape.read c (.object members none) = .ok a := by
  unfold read
  refine bind_eq_ok.mpr ⟨inner, henter, bind_eq_ok.mpr ⟨(a, seen), hmembers, ?_⟩⟩
  exact bind_eq_ok.mpr ⟨(), rfl, bind_eq_ok.mpr ⟨(), hcomplete, rfl⟩⟩

end Shape

/-! ### What every record holds -/

namespace Shape

variable {shape : Shape α}

theorem readMembers_holds {parts : Node → Prop} {holds : α → Prop}
    (hset : ∀ field ∈ shape.fields, ∀ {c node a b}, parts node → holds a →
      field.set c node a = .ok b → holds b)
    {c : Context} {members : List Member} (hmembers : ∀ m ∈ members, parts m.2) {seen : List String}
    {a : α} (ha : holds a) {r : α × List String}
    (h : shape.readMembers c members seen a = .ok r) : holds r.1 := by
  induction members generalizing seen a with
  | nil =>
    cases h
    exact ha
  | cons m rest ih =>
    obtain ⟨key, value⟩ := m
    rw [List.forall_mem_cons] at hmembers
    cases key with
    | error f => cases h
    | ok key =>
      unfold readMembers at h
      split at h
      · obtain ⟨_, -, h⟩ := bind_eq_ok.mp h
        exact ih hmembers.2 ha h
      · next field hfind =>
        dsimp only at h
        split at h
        · cases h
        obtain ⟨b, hb, h⟩ := bind_eq_ok.mp h
        exact ih hmembers.2 (hset field (List.mem_of_find?_eq_some hfind) hmembers.1 ha hb) h

theorem readPositions_holds {parts : Node → Prop} {holds : α → Prop}
    (hset : ∀ field ∈ shape.fields, ∀ {c node a b}, parts node → holds a →
      field.set c node a = .ok b → holds b)
    {c : Context} {tail : Option Fault} {taken : Nat} {fields : List (Field α)}
    (hfields : ∀ field ∈ fields, field ∈ shape.fields) {items : List Node}
    (hitems : ∀ item ∈ items, parts item) {a b : α} (ha : holds a)
    (h : shape.readPositions c tail taken fields items a = .ok b) : holds b := by
  induction fields generalizing items a taken with
  | nil =>
    obtain ⟨_, -, h⟩ := bind_eq_ok.mp h
    obtain ⟨_, -, h⟩ := bind_eq_ok.mp h
    cases h
    exact ha
  | cons field fields ih =>
    rw [List.forall_mem_cons] at hfields
    cases items with
    | nil =>
      obtain ⟨_, -, h⟩ := bind_eq_ok.mp h
      dsimp only at h
      split at h
      · cases h
      · exact ih hfields.2 hitems ha h
    | cons item rest =>
      rw [List.forall_mem_cons] at hitems
      obtain ⟨next, hnext, h⟩ := bind_eq_ok.mp h
      exact ih hfields.2 hitems.2 (hset field hfields.1 hitems.1 ha hnext) h

/-- What holds of the blank record and is kept by every field holds of any record that is read. -/
theorem read_holds (parts : Node → Prop) (holds : α → Prop)
    (hset : ∀ field ∈ shape.fields, ∀ {c node a b}, parts node → holds a →
      field.set c node a = .ok b → holds b)
    (hblank : holds shape.blank) {c : Context} {node : Node}
    (hnode : ∀ part ∈ node.parts, parts part) {a : α} (h : shape.read c node = .ok a) :
    holds a := by
  cases node with
  | leaf l => cases h
  | array items tail =>
    obtain ⟨inner, -, h⟩ := bind_eq_ok.mp h
    exact readPositions_holds hset (fun _ hfield => hfield) hnode hblank h
  | object members tail =>
    obtain ⟨inner, -, h⟩ := bind_eq_ok.mp h
    obtain ⟨⟨b, seen⟩, hmembers, h⟩ := bind_eq_ok.mp h
    obtain ⟨_, -, h⟩ := bind_eq_ok.mp h
    obtain ⟨_, -, h⟩ := bind_eq_ok.mp h
    cases h
    exact readMembers_holds hset (List.forall_mem_map.mp hnode) hblank hmembers

theorem mem_seen_of_readMembers {c : Context} {members : List Member} {seen : List String} {a : α}
    {r : α × List String} (h : shape.readMembers c members seen a = .ok r) {name : String}
    (hname : name ∈ r.2) : name ∈ seen ∨ ∃ value, (.ok name, value) ∈ members := by
  induction members generalizing seen a with
  | nil =>
    cases h
    exact .inl hname
  | cons m rest ih =>
    obtain ⟨key, value⟩ := m
    cases key with
    | error f => cases h
    | ok key =>
      have hlater : (∃ value, (.ok name, value) ∈ rest) →
          ∃ other, (.ok name, other) ∈ ((.ok key, value) : Member) :: rest :=
        fun ⟨other, hother⟩ => ⟨other, List.mem_cons_of_mem _ hother⟩
      unfold readMembers at h
      split at h
      · obtain ⟨_, -, h⟩ := bind_eq_ok.mp h
        exact (ih h).imp_right hlater
      · dsimp only at h
        split at h
        · cases h
        obtain ⟨b, -, h⟩ := bind_eq_ok.mp h
        rcases ih h with hseen | hrest
        · rcases List.mem_cons.mp hseen with rfl | hseen
          · exact .inr ⟨value, List.mem_cons_self⟩
          · exact .inl hseen
        · exact .inr (hlater hrest)

/-- An object that is read as a record has all members that are required. -/
theorem exists_required {c : Context} {members : List Member} {tail : Option Fault} {a : α}
    (h : shape.read c (.object members tail) = .ok a) {field : Field α}
    (hfield : field ∈ shape.fields) (hrequired : field.required = true) :
    ∃ value, (.ok field.name, value) ∈ members := by
  obtain ⟨inner, -, h⟩ := bind_eq_ok.mp h
  obtain ⟨⟨b, seen⟩, hmembers, h⟩ := bind_eq_ok.mp h
  obtain ⟨_, -, h⟩ := bind_eq_ok.mp h
  obtain ⟨_, hcomplete, -⟩ := bind_eq_ok.mp h
  have hseen : field.name ∈ seen := by
    unfold checkComplete at hcomplete
    split at hcomplete
    · cases hcomplete
    · next hnone =>
      have hmissing := List.find?_eq_none.mp hnone field hfield
      simpa [hrequired] using hmissing
  exact (mem_seen_of_readMembers hmembers hseen).resolve_left List.not_mem_nil

end Shape

/-! ### Tagged records -/

theorem mem_of_find {names : Names α} {name : String} {a : α} (h : names.find name = .ok a) :
    (name, a) ∈ names := by
  unfold Names.find at h
  split at h
  · next b hlookup =>
    cases h
    obtain ⟨before, after, heq, -⟩ := List.lookup_eq_some_iff.mp hlookup
    rw [heq]
    exact List.mem_append_right _ List.mem_cons_self
  · cases h

/-- Members with other keys than the tag are kept in their order. -/
theorem splitTag_others {tag : String} {names : Names α} {c : Context} {found : Option α}
    {members : List (String × Json)} (hkeys : ∀ m ∈ members, m.1 ≠ tag)
    (hdepth : c.Leaves (membersDepth members)) :
    splitTag tag names c (memberNodes members) found = .ok (found, memberNodes members) := by
  induction members with
  | nil => rfl
  | cons m rest ih =>
    obtain ⟨key, value⟩ := m
    rw [List.forall_mem_cons] at hkeys
    have hvalue : value.toNode.keep c = .ok () :=
      keep_toNode fun n hn => (le_max_left _ _).trans (hdepth n hn)
    have hrest := ih hkeys.2 fun n hn => (le_max_right _ _).trans (hdepth n hn)
    unfold memberNodes splitTag
    rw [if_neg hkeys.1]
    exact bind_eq_ok.mpr ⟨(), hvalue, bind_eq_ok.mpr ⟨_, hrest, rfl⟩⟩

/-- A record that starts with its tag is told by it. -/
theorem readTagged_object {title tag name : String} {names : Names α} {c : Context} {a : α}
    {members : List (String × Json)} (hfind : names.find name = .ok a)
    (hkeys : ∀ m ∈ members, m.1 ≠ tag)
    (hdepth : c.Leaves (object ((tag, .text name) :: members)).depth) :
    readTagged title tag names c (object ((tag, .text name) :: members)).toNode =
      .ok (a, .object (memberNodes members) none) := by
  obtain ⟨inner, henter, -, hinner⟩ := Context.exists_enter hdepth
  have hothers : splitTag tag names inner (memberNodes members) (some a) =
      .ok (some a, memberNodes members) :=
    splitTag_others hkeys fun n hn => (le_max_right _ _).trans (hinner n hn)
  have hsplit : splitTag tag names inner (memberNodes ((tag, .text name) :: members)) none =
      .ok (some a, memberNodes members) := by
    show splitTag tag names inner ((.ok tag, .leaf (.text name)) :: memberNodes members) none = _
    rw [splitTag, if_pos rfl]
    exact bind_eq_ok.mpr ⟨a, hfind, hothers⟩
  exact bind_eq_ok.mpr ⟨inner, henter, bind_eq_ok.mpr ⟨_, hsplit, rfl⟩⟩

theorem keepItems_eq_ok_iff {c : Context} {items : List Node} :
    keepItems c items = .ok () ↔ ∀ item ∈ items, item.keep c = .ok () := by
  induction items with
  | nil => exact ⟨fun _ => nofun, fun _ => rfl⟩
  | cons item rest ih =>
    unfold keepItems
    rw [bind_eq_ok, List.forall_mem_cons, ← ih]
    exact ⟨fun ⟨_, h⟩ => h, fun h => ⟨(), h⟩⟩

theorem exists_find_of_readTag {names : Names α} {c : Context} {node : Node} {a : α}
    (h : readTag names c node = .ok a) : ∃ name, names.find name = .ok a := by
  unfold readTag at h
  split at h
  · exact ⟨_, h⟩
  · cases h

theorem splitTag_kept {tag : String} {names : Names α} {c : Context} {members others : List Member}
    {found result : Option α} (h : splitTag tag names c members found = .ok (result, others)) :
    (∀ m ∈ others, m.2.keep c = .ok ()) ∧
      ∀ a ∈ result, a ∈ found ∨ ∃ name, names.find name = .ok a := by
  induction members generalizing found result others with
  | nil =>
    cases h
    exact ⟨nofun, fun a ha => .inl ha⟩
  | cons m rest ih =>
    obtain ⟨key, value⟩ := m
    cases key with
    | error f => cases h
    | ok key =>
      unfold splitTag at h
      split at h
      · dsimp only at h
        split at h
        · cases h
        obtain ⟨b, hb, h⟩ := bind_eq_ok.mp h
        obtain ⟨hkept, hresult⟩ := ih h
        refine ⟨hkept, fun a ha => .inr ?_⟩
        rcases hresult a ha with hab | hname
        · cases hab
          exact exists_find_of_readTag hb
        · exact hname
      · obtain ⟨_, hvalue, h⟩ := bind_eq_ok.mp h
        obtain ⟨⟨later, kept⟩, hrest, h⟩ := bind_eq_ok.mp h
        cases h
        obtain ⟨hkept, hresult⟩ := ih hrest
        exact ⟨List.forall_mem_cons.mpr ⟨hvalue, hkept⟩, hresult⟩

/-- A tagged record has one of the known names, and all its parts are kept. -/
theorem readTagged_kept {title tag : String} {names : Names α} {c : Context} {node rest : Node}
    {a : α} (h : readTagged title tag names c node = .ok (a, rest)) :
    (∃ name, names.find name = .ok a) ∧
      ∃ inner, c.enter = .ok inner ∧ ∀ part ∈ rest.parts, part.keep inner = .ok () := by
  cases node with
  | leaf l => cases h
  | array items tail =>
    obtain ⟨inner, henter, h⟩ := bind_eq_ok.mp h
    cases items with
    | nil =>
      obtain ⟨_, -, h⟩ := bind_eq_ok.mp h
      cases h
    | cons first items =>
      obtain ⟨b, hb, h⟩ := bind_eq_ok.mp h
      obtain ⟨_, hitems, h⟩ := bind_eq_ok.mp h
      obtain ⟨_, -, h⟩ := bind_eq_ok.mp h
      cases h
      exact ⟨exists_find_of_readTag hb, inner, henter, keepItems_eq_ok_iff.mp hitems⟩
  | object members tail =>
    obtain ⟨inner, henter, h⟩ := bind_eq_ok.mp h
    obtain ⟨⟨found, others⟩, hsplit, h⟩ := bind_eq_ok.mp h
    obtain ⟨_, -, h⟩ := bind_eq_ok.mp h
    obtain ⟨hkept, hfound⟩ := splitTag_kept hsplit
    cases found with
    | none => cases h
    | some b =>
      cases h
      refine ⟨?_, inner, henter, List.forall_mem_map.mpr hkept⟩
      rcases hfound a rfl with hnone | hname
      · cases hnone
      · exact hname

end Blackout.Json
