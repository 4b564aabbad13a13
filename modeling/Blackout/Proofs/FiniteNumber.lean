import Blackout.Proofs.JsonValue

/-!
# Numbers of a text are finite

Rounding adds at most one place to a quotient, and scaling by a power of ten divides by more than it
rounds up. So the doubles that are read from text are finite, and the machine puts no other leaves
into the tree of a document than those of its text and broken ones.
-/

namespace Blackout

/-! ### Rounding and scaling -/

namespace Binary64

theorem roundHalfEven_le (num den : Nat) : roundHalfEven num den ≤ num / den + 1 := by
  unfold roundHalfEven
  dsimp only
  split
  · omega
  split
  · exact Nat.le_refl _
  · omega

theorem log2_le_of_lt {num den m : Nat} (h : num < 2 ^ m * den) :
    Nat.log2 num ≤ Nat.log2 den + m := by
  rcases Nat.eq_zero_or_pos num with hzero | hpos
  · rw [hzero]
    exact Nat.zero_le _
  · refine Nat.le_of_lt_succ ((Nat.log2_lt hpos.ne').mpr ?_)
    calc num < 2 ^ m * den := h
      _ ≤ 2 ^ m * 2 ^ (den.log2 + 1) := Nat.mul_le_mul_left _ Nat.lt_log2_self.le
      _ = 2 ^ (den.log2 + m).succ := by rw [← Nat.pow_add]; congr 1; omega

/-- In units of its last place, a quotient has at most 54 bits. -/
theorem inUnits_lt {num den : Nat} (hden : 0 < den) {e : Int}
    (he : (Nat.log2 num : Int) - Nat.log2 den - 53 ≤ e) :
    (inUnits num den e).1 < 2 ^ 54 * (inUnits num den e).2 := by
  have hnum : num < 2 ^ (Nat.log2 num + 1) := Nat.lt_log2_self
  have hle : 2 ^ Nat.log2 den ≤ den := Nat.log2_self_le hden.ne'
  unfold inUnits
  split
  · next hpos =>
    calc num < 2 ^ (Nat.log2 num + 1) := hnum
      _ ≤ 2 ^ (54 + (Nat.log2 den + e.toNat)) := Nat.pow_le_pow_right (by decide) (by omega)
      _ = 2 ^ 54 * (2 ^ Nat.log2 den * 2 ^ e.toNat) := by rw [Nat.pow_add, Nat.pow_add]
      _ ≤ 2 ^ 54 * (den * 2 ^ e.toNat) :=
        Nat.mul_le_mul_left _ (Nat.mul_le_mul_right _ hle)
  · next hneg =>
    calc num * 2 ^ (-e).toNat < 2 ^ (Nat.log2 num + 1) * 2 ^ (-e).toNat :=
          Nat.mul_lt_mul_of_pos_right hnum (Nat.two_pow_pos _)
      _ = 2 ^ (Nat.log2 num + 1 + (-e).toNat) := (Nat.pow_add ..).symm
      _ ≤ 2 ^ (54 + Nat.log2 den) := Nat.pow_le_pow_right (by decide) (by omega)
      _ = 2 ^ 54 * 2 ^ Nat.log2 den := Nat.pow_add ..
      _ ≤ 2 ^ 54 * den := Nat.mul_le_mul_left _ hle

theorem unitExponent_bounds {num den m : Nat} (h : num < 2 ^ m * den) :
    (Nat.log2 num : Int) - Nat.log2 den - 53 ≤ unitExponent num den ∧
      unitExponent num den + 1074 ≤ m + 1022 := by
  have hlog := log2_le_of_lt h
  unfold unitExponent
  dsimp only
  split
  · omega
  · omega

theorem nearest_le {num den m : Nat} (hden : 0 < den) (h : num < 2 ^ m * den) :
    nearest num den ≤ (m + 1026) * exponentStep := by
  obtain ⟨hlo, hhi⟩ := unitExponent_bounds h
  unfold nearest
  split
  · exact Nat.zero_le _
  · dsimp only
    have hunits := inUnits_lt hden hlo
    rw [Nat.mul_comm] at hunits
    have hround : roundHalfEven (inUnits num den (unitExponent num den)).1
        (inUnits num den (unitExponent num den)).2 ≤ 4 * exponentStep :=
      (roundHalfEven_le _ _).trans (Nat.div_lt_of_lt_mul hunits)
    have hscale : (unitExponent num den + 1074).toNat * exponentStep ≤ (m + 1022) * exponentStep :=
      Nat.mul_le_mul_right _ (by omega)
    have hsum : 4 * exponentStep + (m + 1022) * exponentStep = (m + 1026) * exponentStep := by
      rw [← Nat.add_mul, Nat.add_comm 4]
    refine (Nat.min_le_left _ _).trans ?_
    exact (Nat.add_le_add hround hscale).trans hsum.le

theorem mantissa_lt (code : Nat) : mantissa code < 2 ^ 53 := by
  have hstep : exponentStep = 2 ^ 52 := rfl
  unfold mantissa
  split
  · omega
  · have := Nat.mod_lt code (show 0 < exponentStep by decide)
    omega

/-- A magnitude of a small code is small. -/
theorem ratio_lt {code m : Nat} (hm : 53 ≤ m) (h : code < (m + 1023) * exponentStep) :
    0 < (ratio code).2 ∧ (ratio code).1 < 2 ^ m * (ratio code).2 := by
  have hmantissa := mantissa_lt code
  have hexponent : exponent code + 53 ≤ m := by
    have hdiv := Nat.div_lt_of_lt_mul (Nat.mul_comm _ _ ▸ h)
    unfold exponent
    split <;> omega
  unfold ratio
  dsimp only
  split
  · refine ⟨Nat.one_pos, ?_⟩
    calc mantissa code * 2 ^ (exponent code).toNat
        < 2 ^ 53 * 2 ^ (exponent code).toNat :=
          Nat.mul_lt_mul_of_pos_right hmantissa (Nat.two_pow_pos _)
      _ = 2 ^ (53 + (exponent code).toNat) := (Nat.pow_add ..).symm
      _ ≤ 2 ^ m := Nat.pow_le_pow_right (by decide) (by omega)
      _ = 2 ^ m * 1 := (Nat.mul_one _).symm
  · have hpos := Nat.two_pow_pos (-exponent code).toNat
    refine ⟨hpos, ?_⟩
    calc mantissa code < 2 ^ 53 := hmantissa
      _ ≤ 2 ^ m := Nat.pow_le_pow_right (by decide) hm
      _ ≤ 2 ^ m * 2 ^ (-exponent code).toNat := Nat.le_mul_of_pos_right _ hpos

theorem divCode_le {x y m k : Nat} (hm : 53 ≤ m + k) (hx : x < (m + k + 1023) * exponentStep)
    (hpos : 0 < (ratio y).2) (hy : 2 ^ k * (ratio y).2 ≤ (ratio y).1) :
    divCode x y ≤ (m + 1026) * exponentStep := by
  obtain ⟨hden, hlt⟩ := ratio_lt hm hx
  have hnum : 0 < (ratio y).1 := (Nat.mul_pos (Nat.two_pow_pos k) hpos).trans_le hy
  refine nearest_le (Nat.mul_pos hden hnum) ?_
  calc (ratio x).1 * (ratio y).2 < 2 ^ (m + k) * (ratio x).2 * (ratio y).2 :=
        Nat.mul_lt_mul_of_pos_right hlt hpos
    _ = 2 ^ m * (ratio x).2 * (2 ^ k * (ratio y).2) := by rw [Nat.pow_add]; ring
    _ ≤ 2 ^ m * (ratio x).2 * (ratio y).1 := Nat.mul_le_mul_left _ hy
    _ = 2 ^ m * ((ratio x).2 * (ratio y).1) := Nat.mul_assoc ..

theorem ratio_powerOfTen (k : Fin 309) :
    0 < (ratio (powerOfTen k)).2 ∧ 2 ^ 0 * (ratio (powerOfTen k)).2 ≤ (ratio (powerOfTen k)).1 := by
  revert k
  decide +kernel

theorem ratio_powerOfTen_greatest :
    0 < (ratio (powerOfTen 308)).2 ∧
      2 ^ 64 * (ratio (powerOfTen 308)).2 ≤ (ratio (powerOfTen 308)).1 := by
  decide +kernel

/-- A double far below infinity stays below it while it is scaled down: all steps but the last
divide by more than rounding can add. -/
theorem scaleDown_lt {code : Nat} (h : code ≤ 2000 * exponentStep) (k : Nat) :
    scaleDown code k < infinityCode := by
  induction k using Nat.strongRecOn generalizing code with
  | ind k ih =>
    rw [scaleDown]
    split
    · next hk =>
      obtain ⟨hpos, hy⟩ := ratio_powerOfTen ⟨k, by omega⟩
      have hle : divCode code (powerOfTen k) ≤ (1000 + 1026) * exponentStep :=
        divCode_le (by decide) (by unfold exponentStep at *; omega) hpos hy
      exact hle.trans_lt (by decide)
    split
    · decide
    · obtain ⟨hpos, hy⟩ := ratio_powerOfTen_greatest
      have hle : divCode code (powerOfTen 308) ≤ (936 + 1026) * exponentStep :=
        divCode_le (by decide) (by unfold exponentStep at *; omega) hpos hy
      exact ih (k - 308) (by omega) (hle.trans (by decide))

/-- Scaling gives a finite double or none. -/
theorem scaled?_lt {significand code : Nat} {exponent : Int} (hs : significand < 2 ^ 64)
    (h : scaled? significand exponent = some code) : code < infinityCode := by
  have hle : nearest significand 1 ≤ (64 + 1026) * exponentStep :=
    nearest_le Nat.one_pos (by omega)
  unfold scaled? at h
  dsimp only at h
  split at h
  · cases h
    exact scaleDown_lt (hle.trans (by decide)) _
  split at h
  · cases h
    decide
  split at h
  · cases h
  split at h
  · next hlt =>
    cases h
    exact hlt
  · cases h

end Binary64

/-! ### Leaves of a text -/

namespace Json

def Leaf.IsFinite : Leaf → Prop
  | .number n => n.IsFinite
  | _ => True

def Token.IsFinite : Token → Prop
  | .leaf l | .string l => l.IsFinite
  | _ => True

namespace Scan

theorem finite_word {leaf : Leaf} (h : leaf.IsFinite) (es cs : List Char) :
    (word leaf es cs).1.IsFinite := by
  induction es generalizing cs with
  | nil => exact h
  | cons e es ih =>
    cases cs with
    | nil => trivial
    | cons c cs =>
      unfold word
      split
      · exact ih cs
      · trivial

theorem Held.finite_close (held : Held) : held.close.IsFinite := by
  unfold Held.close
  split <;> trivial

theorem finite_string (held : Held) (cs : List Char) : (string held cs).1.IsFinite := by
  fun_induction string held cs with
  | case2 => exact Held.finite_close _
  | _ => first | assumption | trivial

theorem absorb_le {significand : Nat} (h : significand ≤ significandLimit) (cs : List Char) :
    (absorb significand cs).1 ≤ significandLimit := by
  induction cs generalizing significand with
  | nil => exact h
  | cons c cs ih =>
    unfold absorb
    dsimp only
    split
    · next hnext => exact ih hnext
    · exact h

theorem finite_doubleLeaf (negative : Bool) {significand : Nat} (h : significand ≤ significandLimit)
    (exponent : Int) : (doubleLeaf negative significand exponent).IsFinite := by
  unfold doubleLeaf
  split
  · next code hcode =>
    exact decide_eq_true (Binary64.scaled?_lt (Nat.lt_succ_of_le h) hcode)
  · trivial

theorem finite_wholeLeaf (negative : Bool) (run : List Char) :
    (wholeLeaf negative run).IsFinite := by
  have habsorb := absorb_le (Nat.zero_le significandLimit) run
  unfold wholeLeaf
  dsimp only
  split
  · split
    · trivial
    · exact finite_doubleLeaf _ habsorb _
  · split
    · trivial
    · exact finite_doubleLeaf _ habsorb _

theorem finite_exponentPart (negative : Bool) {significand : Nat}
    (h : significand ≤ significandLimit) (scale : Int) (cs : List Char) :
    (exponentPart negative significand scale cs).1.IsFinite := by
  unfold exponentPart
  dsimp only
  split
  all_goals
    split
    · trivial
    · exact finite_doubleLeaf _ h _

theorem finite_fractionPart (negative : Bool) {significand : Nat}
    (h : significand ≤ significandLimit) (scale : Int) (cs : List Char) :
    (fractionPart negative significand scale cs).1.IsFinite := by
  have habsorb := absorb_le h (cs.takeWhile Char.isDigit)
  unfold fractionPart
  dsimp only
  split
  · trivial
  split
  · exact finite_exponentPart _ habsorb _ _
  · exact finite_exponentPart _ habsorb _ _
  · exact finite_doubleLeaf _ habsorb _

theorem finite_number (negative : Bool) (cs : List Char) :
    (Scan.number negative cs).1.IsFinite := by
  have habsorb := absorb_le (Nat.zero_le significandLimit) (cs.takeWhile Char.isDigit)
  unfold Scan.number
  dsimp only
  split
  · trivial
  split
  · trivial
  split
  · exact finite_fractionPart _ habsorb _ _
  · exact finite_exponentPart _ habsorb _ _
  · exact finite_exponentPart _ habsorb _ _
  · exact finite_wholeLeaf _ _

theorem finite_nextToken (c : Char) (cs : List Char) : (nextToken c cs).1.IsFinite := by
  unfold nextToken
  dsimp only
  split
  iterate 6
    · trivial
  iterate 3
    · exact finite_word (by trivial) _ _
  · exact finite_string _ _
  · exact finite_number _ _
  · split
    · exact finite_number _ _
    · trivial

theorem finite_tokens (cs : List Char) : ∀ t ∈ tokens cs, t.IsFinite := by
  fun_induction tokens cs with
  | case1 => exact nofun
  | case2 c cs hspace ih => exact ih
  | case3 c cs hspace step hgoes ih =>
    exact List.forall_mem_cons.mpr ⟨finite_nextToken c cs, ih⟩
  | case4 c cs hspace step hstops =>
    exact List.forall_mem_singleton.mpr (finite_nextToken c cs)

end Scan

/-! ### Trees of a text -/

mutual

def Node.IsFinite : Node → Prop
  | .leaf l => l.IsFinite
  | .array items _ => FiniteItems items
  | .object members _ => FiniteMembers members

def FiniteItems : List Node → Prop
  | [] => True
  | item :: rest => item.IsFinite ∧ FiniteItems rest

def FiniteMembers : List Member → Prop
  | [] => True
  | (_, value) :: rest => value.IsFinite ∧ FiniteMembers rest

end

theorem finiteItems_iff {items : List Node} :
    FiniteItems items ↔ ∀ item ∈ items, item.IsFinite := by
  induction items with
  | nil => simp [FiniteItems]
  | cons item rest ih => simp [FiniteItems, ih]

theorem finiteMembers_iff {members : List Member} :
    FiniteMembers members ↔ ∀ m ∈ members, m.2.IsFinite := by
  induction members with
  | nil => simp [FiniteMembers]
  | cons m rest ih => simp [FiniteMembers, ih]

theorem Node.IsFinite.array {items : List Node} {tail : Option Fault}
    (h : ∀ item ∈ items, item.IsFinite) : (Node.array items tail).IsFinite :=
  finiteItems_iff.mpr h

theorem Node.IsFinite.object {members : List Member} {tail : Option Fault}
    (h : ∀ m ∈ members, m.2.IsFinite) : (Node.object members tail).IsFinite :=
  finiteMembers_iff.mpr h

/-! ### The machine -/

/-- All that an open container holds already is finite. -/
def Frame.IsFinite : Frame → Prop
  | .item done => ∀ item ∈ done, item.IsFinite
  | .member done _ => ∀ m ∈ done, m.2.IsFinite

/-- All that has been read is finite. -/
def State.IsFinite : State → Prop
  | value stack | firstItem stack | firstKey stack => ∀ frame ∈ stack, frame.IsFinite
  | afterItem done stack => (∀ item ∈ done, item.IsFinite) ∧ ∀ frame ∈ stack, frame.IsFinite
  | key done stack | colon done _ stack | afterMember done stack =>
    (∀ m ∈ done, m.2.IsFinite) ∧ ∀ frame ∈ stack, frame.IsFinite
  | finished root => root.IsFinite

/-- A step leads to a state or ends with a document, where all is finite. -/
def FiniteStep : State ⊕ Document → Prop
  | .inl state => state.IsFinite
  | .inr document => document.root.IsFinite

theorem finite_deliver {node : Node} (hnode : node.IsFinite) {stack : List Frame}
    (hstack : ∀ frame ∈ stack, frame.IsFinite) : (deliver node stack).IsFinite := by
  cases stack with
  | nil => exact hnode
  | cons frame stack =>
    rw [List.forall_mem_cons] at hstack
    cases frame with
    | item done => exact ⟨List.forall_mem_cons.mpr ⟨hnode, hstack.1⟩, hstack.2⟩
    | member done key => exact ⟨List.forall_mem_cons.mpr ⟨hnode, hstack.1⟩, hstack.2⟩

theorem forall_mem_reverse {α : Type} {P : α → Prop} {done : List α} (h : ∀ x ∈ done, P x) :
    ∀ x ∈ done.reverse, P x := fun x hx => h x (List.mem_reverse.mp hx)

theorem finite_unwind {node : Node} (hnode : node.IsFinite) {stack : List Frame}
    (hstack : ∀ frame ∈ stack, frame.IsFinite) : (unwind node stack).IsFinite := by
  induction stack generalizing node with
  | nil => exact hnode
  | cons frame stack ih =>
    rw [List.forall_mem_cons] at hstack
    cases frame with
    | item done =>
      exact ih (.array (forall_mem_reverse (List.forall_mem_cons.mpr ⟨hnode, hstack.1⟩))) hstack.2
    | member done key =>
      exact ih (.object (forall_mem_reverse (List.forall_mem_cons.mpr ⟨hnode, hstack.1⟩))) hstack.2

theorem finite_stop {state : State} (h : state.IsFinite) (f : Fault) :
    (state.stop f).root.IsFinite := by
  have hbroken : (Node.leaf (.broken f)).IsFinite := trivial
  have harray : (Node.array [] (some f)).IsFinite := trivial
  have hobject : (Node.object [] (some f)).IsFinite := trivial
  cases state with
  | value stack => exact finite_unwind hbroken h
  | firstItem stack => exact finite_unwind harray h
  | afterItem done stack => exact finite_unwind (.array (forall_mem_reverse h.1)) h.2
  | firstKey stack => exact finite_unwind hobject h
  | key done stack => exact finite_unwind (.object (forall_mem_reverse h.1)) h.2
  | colon done k stack =>
    have hdone : ∀ m ∈ (k, Node.leaf (.broken f)) :: done, m.2.IsFinite :=
      List.forall_mem_cons.mpr ⟨hbroken, h.1⟩
    exact finite_unwind (.object (forall_mem_reverse hdone)) h.2
  | afterMember done stack => exact finite_unwind (.object (forall_mem_reverse h.1)) h.2
  | finished root => exact h

theorem finite_takeValue {stack : List Frame} (hstack : ∀ frame ∈ stack, frame.IsFinite) {t : Token}
    (ht : t.IsFinite) : FiniteStep (takeValue stack t) := by
  have hvalue : (State.value stack).IsFinite := hstack
  have hleaf : ∀ l : Leaf, l.IsFinite → FiniteStep (if l.skippable then
      .inl (deliver (.leaf l) stack) else .inr ⟨unwind (.leaf l) stack, none⟩) := by
    intro l hl
    have hnode : (Node.leaf l).IsFinite := hl
    split
    · exact finite_deliver hnode hstack
    · exact finite_unwind hnode hstack
  cases t with
  | openArray | openObject => exact hstack
  | leaf l | string l => exact hleaf l ht
  | closeArray | closeObject | comma | colon | stray => exact finite_stop hvalue .malformed

theorem finite_takeKey {done : List Member} {stack : List Frame}
    (h : (State.key done stack).IsFinite) (t : Token) : FiniteStep (takeKey done stack t) := by
  unfold takeKey
  split
  · exact h
  · exact h
  · next kept f =>
    have hcolon : (State.colon done (.error kept) stack).IsFinite := h
    exact finite_stop hcolon f
  · exact finite_stop h .malformed

/-- A step keeps all that has been read finite. -/
theorem finite_step {state : State} (h : state.IsFinite) {t : Token} (ht : t.IsFinite) :
    FiniteStep (state.step t) := by
  have hnoItem : (Frame.item []).IsFinite := fun _ hitem => absurd hitem List.not_mem_nil
  have hnoMember : ∀ m ∈ ([] : List Member), m.2.IsFinite := fun _ hm => absurd hm List.not_mem_nil
  have harray : (Node.array [] none).IsFinite := trivial
  have hobject : (Node.object [] none).IsFinite := trivial
  unfold State.step
  split
  · exact finite_takeValue h ht
  · exact finite_deliver harray h
  · exact finite_takeValue (List.forall_mem_cons.mpr ⟨hnoItem, h⟩) ht
  · exact List.forall_mem_cons.mpr ⟨h.1, h.2⟩
  · exact finite_deliver (.array (forall_mem_reverse h.1)) h.2
  · exact finite_deliver hobject h
  · exact finite_takeKey ⟨hnoMember, h⟩ _
  · exact finite_takeKey h _
  · exact List.forall_mem_cons.mpr ⟨h.1, h.2⟩
  · exact h
  · exact finite_deliver (.object (forall_mem_reverse h.1)) h.2
  · exact finite_stop h .malformed

theorem finite_run {state : State} (h : state.IsFinite) {ts : List Token}
    (hts : ∀ t ∈ ts, t.IsFinite) : (state.run ts).root.IsFinite := by
  induction ts generalizing state with
  | nil =>
    cases state with
    | finished root => exact h
    | _ => exact finite_stop h .truncated
  | cons t ts ih =>
    rw [List.forall_mem_cons] at hts
    have hstep := finite_step h hts.1
    unfold State.run
    split
    · next next hnext =>
      rw [hnext] at hstep
      exact ih hstep hts.2
    · next document hdocument =>
      rw [hdocument] at hstep
      exact hstep

/-- The numbers of a document that is read from text are finite. -/
theorem finite_ofText (text : String) : (Document.ofText text).root.IsFinite := by
  have hstart : (State.value []).IsFinite := fun _ hframe => absurd hframe List.not_mem_nil
  exact finite_run hstart (Scan.finite_tokens text.toList)

end Json

end Blackout
