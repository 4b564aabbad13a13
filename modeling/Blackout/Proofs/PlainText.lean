import Blackout.Json.Printer
import Blackout.Proofs.Digits

/-!
# Written values are plain text

A written value has no control character below U+0020, so no line break either: not in its numbers,
and not in its strings, which escape them.
-/

namespace Blackout

open Text Text.Decimal

/-! ### Text without control characters -/

/-- No control character below U+0020 is among these. -/
def NoControl (cs : List Char) : Prop := ∀ c ∈ cs, 32 ≤ c.toNat

instance (cs : List Char) : Decidable (NoControl cs) := List.decidableBAll _ cs

namespace NoControl

theorem append {cs ds : List Char} (hcs : NoControl cs) (hds : NoControl ds) :
    NoControl (cs ++ ds) := fun c hc => (List.mem_append.mp hc).elim (hcs c) (hds c)

theorem cons {c : Char} {cs : List Char} (hc : 32 ≤ c.toNat) (hcs : NoControl cs) :
    NoControl (c :: cs) := List.forall_mem_cons.mpr ⟨hc, hcs⟩

theorem subset {cs ds : List Char} (h : NoControl ds) (hsub : cs ⊆ ds) : NoControl cs :=
  fun c hc => h c (hsub hc)

theorem of_isDigit {cs : List Char} (h : ∀ c ∈ cs, c.isDigit = true) : NoControl cs := by
  intro c hc
  have hdigit := h c hc
  simp only [Char.isDigit, Bool.and_eq_true, decide_eq_true_eq] at hdigit
  have := UInt32.le_iff_toNat_le.mp hdigit.1
  exact le_trans (by decide) this

theorem digits (n : Nat) : NoControl (digits n) := of_isDigit fun _ => isDigit_of_mem_digits

theorem signed (i : Int) : NoControl (signed i) := by
  unfold Decimal.signed
  split
  · exact cons (by decide) (digits _)
  · exact digits _

theorem replicate (n : Nat) : NoControl (List.replicate n '0') := by
  intro c hc
  rw [List.eq_of_mem_replicate hc]
  decide

end NoControl

/-! ### Numbers -/

namespace Binary64

theorem noControl_positional {ds : List Char} (h : NoControl ds) (lead : Int) :
    NoControl (positional ds lead) := by
  have htail : NoControl (if (ds.drop (lead.toNat + 1)).isEmpty then ['0']
      else ds.drop (lead.toNat + 1)) := by
    split
    · decide
    · exact h.subset (List.drop_subset ..)
  unfold positional
  split
  · exact .append (.cons (by decide) (.cons (by decide) (.replicate _))) h
  · exact .append (.append (h.subset (List.take_subset ..)) (.replicate _))
      (.cons (by decide) htail)

theorem noControl_scientific {ds : List Char} (h : NoControl ds) (lead : Int) :
    NoControl (scientific ds lead) := by
  unfold scientific
  refine .append (.append (h.subset (List.take_subset ..)) ?_) (.cons (by decide) (.cons ?_ ?_))
  · split
    · decide
    · exact .cons (by decide) (h.subset (List.drop_subset ..))
  · split <;> decide
  · exact .of_isDigit fun _ => isDigit_of_mem_padded

theorem noControl_chars (x : Binary64) : NoControl x.chars := by
  unfold chars
  extract_lets d all ds lead body
  have hbody : NoControl body := by
    unfold body
    split
    · decide
    · have hds : NoControl ds := by
        intro c hc
        have hall := List.dropWhile_subset _ (List.mem_reverse.mp hc)
        exact NoControl.digits _ c (List.mem_reverse.mp hall)
      split
      · exact noControl_positional hds lead
      · exact noControl_scientific hds lead
  split
  · exact .cons (by decide) hbody
  · exact hbody

end Binary64

/-! ### Values -/

namespace Json

theorem noControl_escape (c : Char) : NoControl (escape c) := by
  have hdigit : ∀ n, 32 ≤ (Hexadecimal.digit n).toNat := by
    intro n
    unfold Hexadecimal.digit
    rw [List.getD_eq_getElem?_getD]
    rcases h : "0123456789abcdef".toList[n]? with _ | d
    · decide
    · have hall : NoControl "0123456789abcdef".toList := by decide
      exact hall d (List.mem_of_getElem? h)
  unfold escape
  iterate 7
    split
    · decide
  split
  · have hfront : NoControl ['\\', 'u', '0', '0'] := by decide
    exact hfront.append (.cons (hdigit _) (.cons (hdigit _) nofun))
  · next hc => exact .cons (by omega) nofun

theorem noControl_quoted (s : String) : NoControl (quoted s) := by
  refine .append (.cons (by decide) fun c hc => ?_) (by decide)
  obtain ⟨d, -, hd⟩ := List.mem_flatMap.mp hc
  exact noControl_escape d c hd

theorem noControl_numberChars (n : Number) : NoControl (numberChars n) := by
  cases n with
  | whole value => exact .signed value
  | double value =>
    show NoControl (if value.isFinite then value.chars else "null".toList)
    split
    · exact value.noControl_chars
    · decide

mutual

theorem noControl_chars : ∀ j : Json, NoControl j.chars
  | null => by decide
  | bool true => by decide
  | bool false => by decide
  | number n => noControl_numberChars n
  | text s => noControl_quoted s
  | array [] => by decide
  | array (item :: rest) => by
    unfold chars
    have hitem := noControl_chars item
    exact .append (.append (.cons (by decide) hitem) (noControl_itemsChars rest)) (by decide)
  | object [] => by decide
  | object ((key, value) :: rest) => by
    unfold chars
    have hkey : NoControl ('\x7b' :: quoted key) := .cons (by decide) (noControl_quoted key)
    have hvalue : NoControl (':' :: value.chars) := .cons (by decide) (noControl_chars value)
    exact .append (.append (hkey.append hvalue) (noControl_membersChars rest)) (by decide)

theorem noControl_itemsChars : ∀ items : List Json, NoControl (itemsChars items)
  | [] => nofun
  | item :: rest => by
    unfold itemsChars
    exact .append (.cons (by decide) (noControl_chars item)) (noControl_itemsChars rest)

theorem noControl_membersChars : ∀ members : List (String × Json), NoControl (membersChars members)
  | [] => nofun
  | (key, value) :: rest => by
    unfold membersChars
    have hkey : NoControl (',' :: quoted key) := .cons (by decide) (noControl_quoted key)
    have hvalue : NoControl (':' :: value.chars) := .cons (by decide) (noControl_chars value)
    exact .append (hkey.append hvalue) (noControl_membersChars rest)

end

end Json

end Blackout
