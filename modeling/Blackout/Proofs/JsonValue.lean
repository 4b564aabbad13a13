import Mathlib
import Blackout.Json.Decode
import Blackout.Proofs.Fallible

/-!
# Values and their trees

A value is normal if its objects have their members in the order of their keys, one member for a
key. The value of any tree is normal, and has no double that is not finite. A normal value with such
numbers is the value of its own tree. A tree is kept where as many levels are left as its value has,
and no deeper one is.
-/

namespace Blackout

namespace Number

/-- A whole number that 64 bits hold, with a sign or without. -/
def FitsWord : Number → Prop
  | whole value => -0x8000000000000000 ≤ value ∧ value ≤ 0xffffffffffffffff
  | double _ => False

def IsFinite : Number → Prop
  | whole _ => True
  | double x => x.isFinite = true

theorem FitsWord.isFinite {n : Number} (h : n.FitsWord) : n.IsFinite := by
  cases n with
  | whole value => trivial
  | double x => exact h.elim

end Number

namespace Json

/-! ### Normal values -/

/-- The members stand in the order of their keys, and no key is repeated. -/
def Sorted (members : List (String × Json)) : Prop := (members.map Prod.fst).Pairwise (· < ·)

mutual

/-- Every number in a value is one of these, and the members of every object are. -/
def Every (numbers : Number → Prop) (objects : List (String × Json) → Prop) : Json → Prop
  | null => True
  | bool _ => True
  | number n => numbers n
  | text _ => True
  | array items => EveryItem numbers objects items
  | object members => objects members ∧ EveryMember numbers objects members

def EveryItem (numbers : Number → Prop) (objects : List (String × Json) → Prop) :
    List Json → Prop
  | [] => True
  | item :: rest => item.Every numbers objects ∧ EveryItem numbers objects rest

def EveryMember (numbers : Number → Prop) (objects : List (String × Json) → Prop) :
    List (String × Json) → Prop
  | [] => True
  | (_, value) :: rest => value.Every numbers objects ∧ EveryMember numbers objects rest

end

/-- Every object is sorted, and every number is one of these. -/
abbrev Normal (numbers : Number → Prop) : Json → Prop := Every numbers Sorted

mutual

/-- Levels of arrays and objects, one inside the other. -/
def depth : Json → Nat
  | array items => itemsDepth items + 1
  | object members => membersDepth members + 1
  | _ => 0

def itemsDepth : List Json → Nat
  | [] => 0
  | item :: rest => max item.depth (itemsDepth rest)

def membersDepth : List (String × Json) → Nat
  | [] => 0
  | (_, value) :: rest => max value.depth (membersDepth rest)

end

section

variable {numbers numbers' : Number → Prop} {objects objects' : List (String × Json) → Prop}

theorem everyItem_iff {items : List Json} :
    EveryItem numbers objects items ↔ ∀ item ∈ items, item.Every numbers objects := by
  induction items with
  | nil => simp [EveryItem]
  | cons item rest ih => simp [EveryItem, ih]

theorem everyMember_iff {members : List (String × Json)} :
    EveryMember numbers objects members ↔ ∀ m ∈ members, m.2.Every numbers objects := by
  induction members with
  | nil => simp [EveryMember]
  | cons m rest ih => simp [EveryMember, ih]

mutual

theorem Every.mono (hnumbers : ∀ n, numbers n → numbers' n)
    (hobjects : ∀ members, objects members → objects' members) :
    ∀ {j : Json}, j.Every numbers objects → j.Every numbers' objects'
  | null, _ => trivial
  | bool _, _ => trivial
  | number n, h => hnumbers n h
  | text _, _ => trivial
  | array _, h => EveryItem.mono hnumbers hobjects h
  | object members, h => ⟨hobjects members h.1, EveryMember.mono hnumbers hobjects h.2⟩

theorem EveryItem.mono (hnumbers : ∀ n, numbers n → numbers' n)
    (hobjects : ∀ members, objects members → objects' members) :
    ∀ {items : List Json}, EveryItem numbers objects items → EveryItem numbers' objects' items
  | [], _ => trivial
  | _ :: _, h => ⟨h.1.mono hnumbers hobjects, EveryItem.mono hnumbers hobjects h.2⟩

theorem EveryMember.mono (hnumbers : ∀ n, numbers n → numbers' n)
    (hobjects : ∀ members, objects members → objects' members) :
    ∀ {members : List (String × Json)}, EveryMember numbers objects members →
      EveryMember numbers' objects' members
  | [], _ => trivial
  | _ :: _, h => ⟨h.1.mono hnumbers hobjects, EveryMember.mono hnumbers hobjects h.2⟩

end

end

/-! ### Members in the order of their keys -/

theorem mem_insertMember {key : String} {value : Json} {members : List (String × Json)}
    {m : String × Json} (h : m ∈ insertMember key value members) :
    m = (key, value) ∨ m ∈ members := by
  induction members with
  | nil => exact .inl (List.mem_singleton.mp h)
  | cons first rest ih =>
    obtain ⟨k, v⟩ := first
    unfold insertMember at h
    split at h
    · rcases List.mem_cons.mp h with h | h
      · exact .inl h
      · exact .inr (List.mem_cons_of_mem _ h)
    · split at h
      · exact List.mem_cons.mp h
      · rcases List.mem_cons.mp h with h | h
        · exact .inr (h ▸ List.mem_cons_self)
        · exact (ih h).imp_right (List.mem_cons_of_mem _)

theorem sorted_cons {key : String} {value : Json} {rest : List (String × Json)} :
    Sorted ((key, value) :: rest) ↔ (∀ m ∈ rest, key < m.1) ∧ Sorted rest := by
  unfold Sorted
  rw [List.map_cons, List.pairwise_cons, List.forall_mem_map]

theorem sorted_insertMember {key : String} {value : Json} {members : List (String × Json)}
    (h : Sorted members) : Sorted (insertMember key value members) := by
  induction members with
  | nil => exact List.pairwise_singleton _ _
  | cons first rest ih =>
    obtain ⟨k, v⟩ := first
    obtain ⟨hfirst, hrest⟩ := sorted_cons.mp h
    unfold insertMember
    split
    · next heq =>
      subst heq
      exact sorted_cons.mpr ⟨hfirst, hrest⟩
    · next hne =>
      split
      · next hlt =>
        refine sorted_cons.mpr ⟨fun m hm => ?_, h⟩
        rcases List.mem_cons.mp hm with hm | hm
        · rw [hm]
          exact hlt
        · exact String.lt_trans hlt (hfirst m hm)
      · next hge =>
        refine sorted_cons.mpr ⟨fun m hm => ?_, ih hrest⟩
        rcases mem_insertMember hm with hm | hm
        · rw [hm]
          exact lt_of_le_of_ne (not_lt.mp hge) (Ne.symm hne)
        · exact hfirst m hm

theorem insertMember_perm {key : String} {value : Json} {members : List (String × Json)}
    (h : ∀ m ∈ members, m.1 ≠ key) :
    (insertMember key value members).Perm ((key, value) :: members) := by
  induction members with
  | nil => exact .refl _
  | cons first rest ih =>
    obtain ⟨k, v⟩ := first
    rw [List.forall_mem_cons] at h
    unfold insertMember
    rw [if_neg h.1.symm]
    split
    · exact .refl _
    · exact ((ih h.2).cons _).trans (.swap ..)

/-- Members with keys of their own are put in the order of their keys. -/
theorem ofMembers_of_perm {members sorted : List (String × Json)} (hperm : members.Perm sorted)
    (hsorted : Sorted sorted) : ofMembers members = object sorted := by
  suffices ∀ (rest before : List (String × Json)), Sorted before → (before ++ rest).Perm sorted →
      rest.foldl (fun acc m => insertMember m.1 m.2 acc) before = sorted from
    congrArg object (this members [] .nil hperm)
  intro rest
  induction rest with
  | nil =>
    intro before hbefore hperm
    rw [List.append_nil] at hperm
    unfold Sorted at hbefore hsorted
    rw [List.pairwise_map] at hbefore hsorted
    exact hperm.eq_of_pairwise (fun a b _ _ hab hba => absurd hab hba.not_gt) hbefore hsorted
  | cons m rest ih =>
    intro before hbefore hperm
    have hkeys : ((before ++ m :: rest).map Prod.fst).Nodup :=
      (hperm.map Prod.fst).nodup_iff.mpr (hsorted.imp ne_of_lt)
    have hfresh : ∀ b ∈ before, b.1 ≠ m.1 := by
      rw [List.map_append, List.nodup_append] at hkeys
      exact fun b hb => hkeys.2.2 _ (List.mem_map_of_mem hb) _ List.mem_cons_self
    refine ih _ (sorted_insertMember hbefore) (.trans ?_ hperm)
    exact ((insertMember_perm hfresh).append_right rest).trans List.perm_middle.symm

/-- An object has members of its own only. -/
theorem exists_ofMembers {P : String × Json → Prop} {members : List (String × Json)}
    (h : ∀ m ∈ members, P m) :
    ∃ sorted, ofMembers members = object sorted ∧ Sorted sorted ∧ ∀ m ∈ sorted, P m := by
  suffices ∀ before, Sorted before → (∀ m ∈ before, P m) →
      Sorted (members.foldl (fun acc m => insertMember m.1 m.2 acc) before) ∧
        ∀ m ∈ members.foldl (fun acc m => insertMember m.1 m.2 acc) before, P m from
    ⟨_, rfl, this [] .nil nofun⟩
  induction members with
  | nil => exact fun before hsorted hbefore => ⟨hsorted, hbefore⟩
  | cons m rest ih =>
    intro before hsorted hbefore
    refine ih (fun x hx => h x (List.mem_cons_of_mem m hx)) _ (sorted_insertMember hsorted) ?_
    intro x hx
    rcases mem_insertMember hx with hx | hx
    · rw [hx]
      exact h m List.mem_cons_self
    · exact hbefore x hx

theorem normal_ofMembers {numbers : Number → Prop} {members : List (String × Json)}
    (h : ∀ m ∈ members, m.2.Normal numbers) : (ofMembers members).Normal numbers := by
  obtain ⟨sorted, heq, hsorted, hnormal⟩ := exists_ofMembers h
  rw [heq]
  exact ⟨hsorted, everyMember_iff.mpr hnormal⟩

/-! ### Values of trees -/

mutual

theorem normal_toJson : ∀ node : Node, node.toJson.Normal Number.IsFinite
  | .leaf .null => trivial
  | .leaf (.bool _) => trivial
  | .leaf (.number (.whole _)) => trivial
  | .leaf (.number (.double x)) => by
    unfold Node.toJson
    split
    · next hfinite => exact hfinite
    · trivial
  | .leaf (.text _) => trivial
  | .leaf (.faulty ..) => trivial
  | .array items _ => everyItem_iff.mpr (normal_itemValues items)
  | .object members _ => normal_ofMembers (normal_memberValues members)

theorem normal_itemValues :
    ∀ items : List Node, ∀ item ∈ itemValues items, item.Normal Number.IsFinite
  | [] => nofun
  | item :: rest => by
    unfold itemValues
    rw [List.forall_mem_cons]
    exact ⟨normal_toJson item, normal_itemValues rest⟩

theorem normal_memberValues :
    ∀ members : List Member, ∀ m ∈ memberValues members, m.2.Normal Number.IsFinite
  | [] => nofun
  | (.ok _, value) :: rest => by
    unfold memberValues
    rw [List.forall_mem_cons]
    exact ⟨normal_toJson value, normal_memberValues rest⟩
  | (.error _, _) :: rest => normal_memberValues rest

end

mutual

/-- A value is that of its own tree, if it could be the value of any. -/
theorem toJson_toNode : ∀ {j : Json}, j.Normal Number.IsFinite → j.toNode.toJson = j
  | null, _ => rfl
  | bool _, _ => rfl
  | number (.whole _), _ => rfl
  | number (.double _), h => if_pos h
  | text _, _ => rfl
  | array _, h => congrArg array (itemValues_itemNodes h)
  | object members, h => by
    unfold toNode Node.toJson
    rw [memberValues_memberNodes h.2, ofMembers_of_perm (.refl _) h.1]

theorem itemValues_itemNodes :
    ∀ {items : List Json}, EveryItem Number.IsFinite Sorted items →
      itemValues (itemNodes items) = items
  | [], _ => rfl
  | item :: rest, h => by
    unfold itemNodes itemValues
    rw [toJson_toNode h.1, itemValues_itemNodes h.2]

theorem memberValues_memberNodes :
    ∀ {members : List (String × Json)}, EveryMember Number.IsFinite Sorted members →
      memberValues (memberNodes members) = members
  | [], _ => rfl
  | (_, value) :: rest, h => by
    unfold memberNodes memberValues
    rw [toJson_toNode h.1, memberValues_memberNodes h.2]

end

/-! ### Keeping a tree -/

/-- As many levels are left, or there is no limit to them. -/
def Context.Leaves (c : Context) (depth : Nat) : Prop := ∀ n ∈ c.levels, depth ≤ n

theorem Context.exists_enter {c : Context} {depth : Nat} (h : c.Leaves (depth + 1)) :
    ∃ inner, c.enter = .ok inner ∧ inner.origin = c.origin ∧ inner.Leaves depth := by
  obtain ⟨origin, levels⟩ := c
  cases levels with
  | none => exact ⟨⟨origin, none⟩, rfl, rfl, nofun⟩
  | some n =>
    have hle : depth + 1 ≤ n := h n rfl
    obtain ⟨m, rfl⟩ := Nat.exists_eq_add_of_le hle
    refine ⟨⟨origin, some (depth + m)⟩, ?_, rfl, fun k hk => ?_⟩
    · rw [Nat.add_right_comm]
      rfl
    · rw [← Option.some.inj hk]
      exact Nat.le_add_right depth m

mutual

theorem keep_toNode : ∀ {j : Json} {c : Context}, c.Leaves j.depth → j.toNode.keep c = .ok ()
  | null, _, _ => rfl
  | bool _, _, _ => rfl
  | number _, _, _ => rfl
  | text _, _, _ => rfl
  | array items, c, h => by
    obtain ⟨inner, henter, -, hinner⟩ := Context.exists_enter h
    unfold toNode Node.keep
    exact bind_eq_ok.mpr ⟨inner, henter, bind_eq_ok.mpr ⟨(), keepItems_itemNodes hinner, rfl⟩⟩
  | object members, c, h => by
    obtain ⟨inner, henter, -, hinner⟩ := Context.exists_enter h
    unfold toNode Node.keep
    exact bind_eq_ok.mpr ⟨inner, henter, bind_eq_ok.mpr ⟨(), keepMembers_memberNodes hinner, rfl⟩⟩

theorem keepItems_itemNodes :
    ∀ {items : List Json} {c : Context}, c.Leaves (itemsDepth items) →
      keepItems c (itemNodes items) = .ok ()
  | [], _, _ => rfl
  | item :: rest, c, h => by
    unfold itemNodes keepItems
    exact bind_eq_ok.mpr ⟨(), keep_toNode fun n hn => (le_max_left _ _).trans (h n hn),
      keepItems_itemNodes fun n hn => (le_max_right _ _).trans (h n hn)⟩

theorem keepMembers_memberNodes :
    ∀ {members : List (String × Json)} {c : Context}, c.Leaves (membersDepth members) →
      keepMembers c (memberNodes members) = .ok ()
  | [], _, _ => rfl
  | (_, value) :: rest, c, h => by
    unfold memberNodes keepMembers
    exact bind_eq_ok.mpr ⟨(), keep_toNode fun n hn => (le_max_left _ _).trans (h n hn),
      keepMembers_memberNodes fun n hn => (le_max_right _ _).trans (h n hn)⟩

end

theorem itemsDepth_le_iff {items : List Json} {d : Nat} :
    itemsDepth items ≤ d ↔ ∀ item ∈ items, item.depth ≤ d := by
  induction items with
  | nil => simp [itemsDepth]
  | cons item rest ih => simp [itemsDepth, ih]

theorem membersDepth_le_iff {members : List (String × Json)} {d : Nat} :
    membersDepth members ≤ d ↔ ∀ m ∈ members, m.2.depth ≤ d := by
  induction members with
  | nil => simp [membersDepth]
  | cons m rest ih => simp [membersDepth, ih]

theorem Context.leaves_of_enter {c inner : Context} {depth : Nat} (h : c.enter = .ok inner)
    (hinner : inner.Leaves depth) : c.Leaves (depth + 1) := by
  obtain ⟨origin, levels⟩ := c
  intro n hn
  cases hn
  cases n with
  | zero => cases h
  | succ n =>
    cases h
    exact Nat.succ_le_succ (hinner n rfl)

theorem depth_leaf : ∀ l : Leaf, (Node.leaf l).toJson.depth = 0
  | .null | .bool _ | .text _ | .faulty .. | .number (.whole _) => rfl
  | .number (.double x) => by
    unfold Node.toJson
    split <;> rfl

mutual

/-- A tree that is kept has no more levels than are left. -/
theorem leaves_of_keep :
    ∀ {node : Node} {c : Context}, node.keep c = .ok () → c.Leaves node.toJson.depth
  | .leaf l, c, _ => by
    rw [depth_leaf]
    exact fun n _ => Nat.zero_le n
  | .array items tail, c, h => by
    obtain ⟨inner, henter, h⟩ := bind_eq_ok.mp h
    obtain ⟨_, hitems, -⟩ := bind_eq_ok.mp h
    exact Context.leaves_of_enter henter fun n hn =>
      itemsDepth_le_iff.mpr fun item hitem => leaves_of_keepItems hitems item hitem n hn
  | .object members tail, c, h => by
    obtain ⟨inner, henter, h⟩ := bind_eq_ok.mp h
    obtain ⟨_, hmembers, -⟩ := bind_eq_ok.mp h
    obtain ⟨sorted, heq, -, hsorted⟩ := exists_ofMembers (leaves_of_keepMembers hmembers)
    unfold Node.toJson
    rw [heq]
    exact Context.leaves_of_enter henter fun n hn =>
      membersDepth_le_iff.mpr fun m hm => hsorted m hm n hn

theorem leaves_of_keepItems : ∀ {items : List Node} {c : Context}, keepItems c items = .ok () →
    ∀ item ∈ itemValues items, c.Leaves item.depth
  | [], _, _ => nofun
  | item :: rest, c, h => by
    obtain ⟨_, hitem, hrest⟩ := bind_eq_ok.mp h
    unfold itemValues
    rw [List.forall_mem_cons]
    exact ⟨leaves_of_keep hitem, leaves_of_keepItems hrest⟩

theorem leaves_of_keepMembers :
    ∀ {members : List Member} {c : Context}, keepMembers c members = .ok () →
      ∀ m ∈ memberValues members, c.Leaves m.2.depth
  | [], _, _ => nofun
  | (.ok _, value) :: rest, c, h => by
    obtain ⟨_, hvalue, hrest⟩ := bind_eq_ok.mp h
    unfold memberValues
    rw [List.forall_mem_cons]
    exact ⟨leaves_of_keep hvalue, leaves_of_keepMembers hrest⟩
  | (.error _, _) :: _, _, h => by cases h

end

theorem readJson_toNode {j : Json} {c : Context} (hj : j.Normal Number.IsFinite)
    (hdepth : c.Leaves j.depth) : readJson c j.toNode = .ok j := by
  unfold readJson
  rw [keep_toNode hdepth, toJson_toNode hj]
  rfl

end Json

end Blackout
