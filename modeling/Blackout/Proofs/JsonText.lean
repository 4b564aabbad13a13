import Blackout.Json.Printer
import Blackout.Proofs.Digits
import Blackout.Proofs.JsonValue

/-!
# Written values are read back

A written value splits into its own tokens wherever it stands, since its strings end at their
closing quotes and its numbers where a separator or a bracket follows. From the tokens the machine
builds the tree of the value. So the text of a value without doubles is read as a document that
consists of the value's tree.
-/

namespace Blackout.Json

open Text Text.Decimal Scan

/-! ### Strings -/

namespace Scan

/-- A string of which these characters have been read, in reverse, and nothing is wrong. -/
def Held.clean (reversed : List Char) : Held := ⟨reversed, none, none⟩

theorem hexUnit?_control (n : Fin 32) :
    hexUnit? '0' '0' (Hexadecimal.digit (n / 16)) (Hexadecimal.digit (n % 16)) = some n.val := by
  revert n
  decide

theorem Held.pushUnit_clean (reversed : List Char) {n : Nat} (h : n < 32) :
    (clean reversed).pushUnit n = clean (Char.ofNat n :: reversed) := by
  unfold pushUnit
  rw [if_neg (by omega)]
  dsimp only
  rw [if_neg (by omega)]
  rfl

theorem string_plain {c : Char} (hquote : c ≠ '"') (hslash : c ≠ '\\') (hcontrol : ¬ c.toNat < 32)
    (held : Held) (cs : List Char) : string held (c :: cs) = string (held.push c) cs := by
  rw [string]
  · exact if_neg hcontrol
  · exact hquote
  · exact fun h => absurd h hslash
  · exact fun _ _ _ _ _ h => absurd h hslash
  · exact fun _ h => absurd h hslash
  · exact fun _ _ h => absurd h hslash

theorem string_escaped {e c : Char} (he : e ≠ 'u') (hc : escaped? e = some c) (held : Held)
    (cs : List Char) : string held ('\\' :: e :: cs) = string (held.push c) cs := by
  rw [string]
  · rw [hc]
  · exact fun _ _ _ _ _ h => absurd h he
  · exact fun h => absurd h he

theorem string_control {n : Nat} (hn : n < 32) (reversed cs : List Char) :
    string (.clean reversed) ('\\' :: 'u' :: '0' :: '0' :: Hexadecimal.digit (n / 16) ::
      Hexadecimal.digit (n % 16) :: cs) = string (.clean (Char.ofNat n :: reversed)) cs := by
  have hunit := hexUnit?_control ⟨n, hn⟩
  dsimp only at hunit
  rw [string, hunit]
  dsimp only
  rw [Held.pushUnit_clean reversed hn]

/-- A character is read back, escaped or not. -/
theorem string_escape (reversed : List Char) (c : Char) (cs : List Char) :
    string (.clean reversed) (escape c ++ cs) = string (.clean (c :: reversed)) cs := by
  unfold escape
  iterate 7
    split
    · next h =>
      subst h
      exact string_escaped (by decide) rfl _ _
  split
  · next h =>
    have hread := string_control h reversed cs
    rwa [Char.ofNat_toNat] at hread
  · next hquote hslash _ _ _ _ _ hcontrol => exact string_plain hquote hslash hcontrol _ _

theorem string_flatMap_escape (cs rest reversed : List Char) :
    string (.clean reversed) (cs.flatMap escape ++ '"' :: rest) =
      (.text (String.ofList (reversed.reverse ++ cs)), rest) := by
  induction cs generalizing reversed with
  | nil =>
    rw [List.append_nil]
    exact string.eq_2 (.clean reversed) rest
  | cons c cs ih =>
    rw [List.flatMap_cons, List.append_assoc, string_escape, ih, List.reverse_cons,
      List.append_assoc, List.singleton_append]

/-! ### Numbers -/

/-- What can follow a value: nothing, or a separator or closing bracket. -/
def Ends (cs : List Char) : Prop := ∀ c ∈ cs.head?, c = ',' ∨ c = ']' ∨ c = '\x7d'

theorem Ends.noDigit {cs : List Char} (h : Ends cs) : NoDigit cs := by
  intro c hc
  rcases h c hc with rfl | rfl | rfl <;> rfl

theorem head?_digits {n : Nat} (h : (digits n).head? = some '0') : n = 0 := by
  induction n using Nat.strongRecOn with
  | ind n ih =>
    unfold digits at h
    rw [Nat.toDigits_eq_if (by decide)] at h
    split at h
    · exact Nat.digitChar_eq_zero.mp (Option.some.inj h)
    · have hne : Nat.toDigits 10 (n / 10) ≠ [] := Nat.toDigits_ne_nil
      rw [List.head?_append_of_ne_nil _ hne] at h
      have hzero := ih (n / 10) (by omega) h
      omega

theorem number_digits (negative : Bool) (n : Nat) {rest : List Char} (hrest : Ends rest) :
    Scan.number negative (digits n ++ rest) = (wholeLeaf negative (digits n), rest) := by
  have htake := takeWhile_isDigit (fun _ => isDigit_of_mem_digits (n := n)) hrest.noDigit
  have hdrop := dropWhile_isDigit (fun _ => isDigit_of_mem_digits (n := n)) hrest.noDigit
  have hnil : (digits n).isEmpty = false := List.isEmpty_eq_false_iff.mpr (digits_ne_nil n)
  have hzero : ¬ ((digits n).head? = some '0' ∧ 1 < (digits n).length) := by
    rintro ⟨hhead, hlong⟩
    rw [head?_digits hhead] at hlong
    exact absurd hlong (by decide)
  unfold Scan.number
  dsimp only
  rw [htake, hdrop, hnil, if_neg Bool.false_ne_true, if_neg hzero]
  cases rest with
  | nil => rfl
  | cons c cs => rcases hrest c rfl with rfl | rfl | rfl <;> rfl

theorem wholeLeaf_digits {n : Nat} (hn : n ≤ significandLimit) :
    wholeLeaf false (digits n) = .number (.whole n) := by
  unfold wholeLeaf
  rw [value_digits, if_neg Bool.false_ne_true, if_pos hn]

theorem wholeLeaf_digits_negative {n : Nat} (hpos : 0 < n) (hn : n ≤ 0x8000000000000000) :
    wholeLeaf true (digits n) = .number (.whole (-(n : Int))) := by
  unfold wholeLeaf
  rw [value_digits, if_pos rfl, if_pos ⟨hpos, hn⟩]

/-! ### The next token -/

theorem tokens_cons {c : Char} {cs rest : List Char} {t : Token} (hspace : isSpace c = false)
    (hnext : nextToken c cs = (t, rest)) (hgoes : t.goesOn = true) :
    tokens (c :: cs) = t :: tokens rest := by
  rw [tokens, hspace, if_neg Bool.false_ne_true, hnext]
  exact if_pos hgoes

theorem tokens_comma (cs : List Char) : tokens (',' :: cs) = .comma :: tokens cs :=
  tokens_cons rfl rfl rfl

theorem tokens_colon (cs : List Char) : tokens (':' :: cs) = .colon :: tokens cs :=
  tokens_cons rfl rfl rfl

theorem tokens_openArray (cs : List Char) : tokens ('[' :: cs) = .openArray :: tokens cs :=
  tokens_cons rfl rfl rfl

theorem tokens_closeArray (cs : List Char) : tokens (']' :: cs) = .closeArray :: tokens cs :=
  tokens_cons rfl rfl rfl

theorem tokens_openObject (cs : List Char) : tokens ('\x7b' :: cs) = .openObject :: tokens cs :=
  tokens_cons rfl rfl rfl

theorem tokens_closeObject (cs : List Char) : tokens ('\x7d' :: cs) = .closeObject :: tokens cs :=
  tokens_cons rfl rfl rfl

theorem tokens_quoted (s : String) (rest : List Char) :
    tokens (quoted s ++ rest) = .string (.text s) :: tokens rest := by
  have hstring : Scan.string .empty (s.toList.flatMap escape ++ '"' :: rest) = (.text s, rest) := by
    refine (string_flatMap_escape s.toList rest []).trans ?_
    rw [List.reverse_nil, List.nil_append, String.ofList_toList]
  unfold quoted
  rw [List.append_assoc, List.cons_append]
  refine tokens_cons rfl ?_ rfl
  show (Token.string (Scan.string .empty (s.toList.flatMap escape ++ '"' :: rest)).1,
    (Scan.string .empty (s.toList.flatMap escape ++ '"' :: rest)).2) = _
  rw [hstring]

theorem nextToken_digit {c : Char} (hc : c.isDigit = true) (cs : List Char) :
    isSpace c = false ∧ nextToken c cs =
      (.leaf (Scan.number false (c :: cs)).1, (Scan.number false (c :: cs)).2) := by
  have hother : ∀ d : Char, d.isDigit = false → c ≠ d := by
    rintro d hd rfl
    rw [hc] at hd
    cases hd
  constructor
  · unfold isSpace
    simp [hother]
  · unfold nextToken
    split
    all_goals first
      | exact absurd rfl (hother _ rfl)
      | exact if_pos hc

theorem tokens_signed {i : Int} (hi : (Number.whole i).FitsWord) {rest : List Char}
    (hrest : Ends rest) :
    tokens (signed i ++ rest) = .leaf (.number (.whole i)) :: tokens rest := by
  obtain ⟨hlo, hhi⟩ := hi
  unfold signed
  split
  · next hneg =>
    have hleaf := wholeLeaf_digits_negative (n := i.natAbs) (by omega) (by omega)
    have hvalue : -(i.natAbs : Int) = i := by omega
    refine tokens_cons rfl ?_ rfl
    show (Token.leaf (Scan.number true (digits i.natAbs ++ rest)).1,
      (Scan.number true (digits i.natAbs ++ rest)).2) = _
    rw [number_digits true _ hrest, hleaf, hvalue]
  · next hpos =>
    have hnumber := number_digits false i.natAbs hrest
    rw [wholeLeaf_digits (show i.natAbs ≤ 0xffffffffffffffff by omega)] at hnumber
    have hvalue : (i.natAbs : Int) = i := by omega
    rw [hvalue] at hnumber
    obtain ⟨c, cs, hcs⟩ := List.exists_cons_of_ne_nil (digits_ne_nil i.natAbs)
    have hc : c.isDigit = true := isDigit_of_mem_digits (hcs ▸ List.mem_cons_self)
    rw [hcs, List.cons_append] at hnumber ⊢
    obtain ⟨hspace, hnext⟩ := nextToken_digit hc (cs ++ rest)
    rw [hnumber] at hnext
    exact tokens_cons hspace hnext rfl

end Scan

/-! ### Splitting a written value -/

variable {objects : List (String × Json) → Prop}

mutual

/-- The tokens that a value is written with. -/
def toTokens : Json → List Token
  | null => [.leaf .null]
  | bool b => [.leaf (.bool b)]
  | number n => [.leaf (.number n)]
  | text s => [.string (.text s)]
  | array [] => [.openArray, .closeArray]
  | array (item :: rest) => .openArray :: item.toTokens ++ itemsTokens rest ++ [.closeArray]
  | object [] => [.openObject, .closeObject]
  | object ((key, value) :: rest) =>
    .openObject :: .string (.text key) :: .colon :: value.toTokens ++ membersTokens rest ++
      [.closeObject]

def itemsTokens : List Json → List Token
  | [] => []
  | item :: rest => .comma :: item.toTokens ++ itemsTokens rest

def membersTokens : List (String × Json) → List Token
  | [] => []
  | (key, value) :: rest =>
    .comma :: .string (.text key) :: .colon :: value.toTokens ++ membersTokens rest

end

theorem ends_cons {c : Char} {cs : List Char} (h : c = ',' ∨ c = ']' ∨ c = '\x7d') :
    Ends (c :: cs) := by
  intro d hd
  rwa [← Option.some.inj hd]

theorem ends_itemsChars (items : List Json) (rest : List Char) :
    Ends (itemsChars items ++ ']' :: rest) := by
  cases items with
  | nil => exact ends_cons (.inr (.inl rfl))
  | cons item items => exact ends_cons (.inl rfl)

theorem ends_membersChars (members : List (String × Json)) (rest : List Char) :
    Ends (membersChars members ++ '\x7d' :: rest) := by
  cases members with
  | nil => exact ends_cons (.inr (.inr rfl))
  | cons m members => exact ends_cons (.inl rfl)

mutual

theorem tokens_chars :
    ∀ {j : Json}, j.Every Number.FitsWord objects → ∀ {rest : List Char}, Ends rest →
      tokens (j.chars ++ rest) = j.toTokens ++ tokens rest
  | null, _, rest, _ => tokens_cons rfl rfl rfl
  | bool true, _, rest, _ => tokens_cons rfl rfl rfl
  | bool false, _, rest, _ => tokens_cons rfl rfl rfl
  | number (.whole _), h, rest, hrest => tokens_signed h hrest
  | number (.double _), h, _, _ => h.elim
  | text s, _, rest, _ => tokens_quoted s rest
  | array [], _, rest, _ => by
    unfold chars toTokens
    rw [List.cons_append, tokens_openArray, List.cons_append, List.nil_append, tokens_closeArray]
    rfl
  | array (item :: items), h, rest, _ => by
    have hend := ends_itemsChars items rest
    unfold chars toTokens
    simp only [List.cons_append, List.append_assoc, List.nil_append]
    rw [tokens_openArray, tokens_chars h.1 hend, tokens_itemsChars h.2, tokens_closeArray]
  | object [], _, rest, _ => by
    unfold chars toTokens
    rw [List.cons_append, tokens_openObject, List.cons_append, List.nil_append, tokens_closeObject]
    rfl
  | object ((key, value) :: members), h, rest, _ => by
    have hend := ends_membersChars members rest
    unfold chars toTokens
    simp only [List.cons_append, List.append_assoc, List.nil_append]
    rw [tokens_openObject, tokens_quoted, tokens_colon, tokens_chars h.2.1 hend,
      tokens_membersChars h.2.2, tokens_closeObject]

theorem tokens_itemsChars :
    ∀ {items : List Json}, EveryItem Number.FitsWord objects items → ∀ {rest : List Char},
      tokens (itemsChars items ++ ']' :: rest) = itemsTokens items ++ tokens (']' :: rest)
  | [], _, _ => rfl
  | item :: items, h, rest => by
    have hend := ends_itemsChars items rest
    unfold itemsChars itemsTokens
    simp only [List.cons_append, List.append_assoc]
    rw [tokens_comma, tokens_chars h.1 hend, tokens_itemsChars h.2]

theorem tokens_membersChars :
    ∀ {members : List (String × Json)}, EveryMember Number.FitsWord objects members →
      ∀ {rest : List Char}, tokens (membersChars members ++ '\x7d' :: rest) =
        membersTokens members ++ tokens ('\x7d' :: rest)
  | [], _, _ => rfl
  | (key, value) :: members, h, rest => by
    have hend := ends_membersChars members rest
    unfold membersChars membersTokens
    simp only [List.cons_append, List.append_assoc]
    rw [tokens_comma, tokens_quoted, tokens_colon, tokens_chars h.1 hend,
      tokens_membersChars h.2]

end

/-! ### Building a written value -/

/-- The first token of a value does not close an array. -/
theorem exists_toTokens (j : Json) : ∃ t ts, j.toTokens = t :: ts ∧ t ≠ .closeArray := by
  match j with
  | null | bool _ | number _ | text _ => exact ⟨_, _, rfl, nofun⟩
  | array [] | array (_ :: _) => exact ⟨_, _, rfl, nofun⟩
  | object [] | object (_ :: _) => exact ⟨_, _, rfl, nofun⟩

theorem run_firstItem (j : Json) (stack : List Frame) (ts : List Token) :
    (State.firstItem stack).run (j.toTokens ++ ts) =
      (State.value (.item [] :: stack)).run (j.toTokens ++ ts) := by
  obtain ⟨t, rest, htokens, hne⟩ := exists_toTokens j
  rw [htokens]
  cases t with
  | closeArray => exact absurd rfl hne
  | _ => rfl

mutual

/-- Where a value comes next, its tokens build its tree. -/
theorem run_toTokens : ∀ (j : Json) (stack : List Frame) (ts : List Token),
    (State.value stack).run (j.toTokens ++ ts) = (deliver j.toNode stack).run ts
  | null, _, _ => rfl
  | bool _, _, _ => rfl
  | number _, _, _ => rfl
  | text _, _, _ => rfl
  | array [], _, _ => rfl
  | array (item :: items), stack, ts => by
    have hfirst := run_firstItem item stack (itemsTokens items ++ .closeArray :: ts)
    have hitem := run_toTokens item (.item [] :: stack) (itemsTokens items ++ .closeArray :: ts)
    have hrest := run_itemsTokens items [item.toNode] stack ts
    unfold toTokens
    simp only [List.cons_append, List.append_assoc, List.nil_append]
    exact hfirst.trans (hitem.trans hrest)
  | object [], _, _ => rfl
  | object ((key, value) :: members), stack, ts => by
    have hvalue := run_toTokens value (.member [] (.ok key) :: stack)
      (membersTokens members ++ .closeObject :: ts)
    have hrest := run_membersTokens members [(.ok key, value.toNode)] stack ts
    unfold toTokens
    simp only [List.cons_append, List.append_assoc, List.nil_append]
    exact hvalue.trans hrest

theorem run_itemsTokens :
    ∀ (items : List Json) (done : List Node) (stack : List Frame) (ts : List Token),
      (State.afterItem done stack).run (itemsTokens items ++ .closeArray :: ts) =
        (deliver (.array (done.reverse ++ itemNodes items) none) stack).run ts
  | [], done, stack, ts => by
    unfold itemNodes
    rw [List.append_nil]
    rfl
  | item :: items, done, stack, ts => by
    have hitem := run_toTokens item (.item done :: stack) (itemsTokens items ++ .closeArray :: ts)
    have hrest := run_itemsTokens items (item.toNode :: done) stack ts
    rw [List.reverse_cons, List.append_assoc] at hrest
    unfold itemsTokens
    simp only [List.cons_append, List.append_assoc]
    exact hitem.trans hrest

theorem run_membersTokens :
    ∀ (members : List (String × Json)) (done : List Member) (stack : List Frame) (ts : List Token),
      (State.afterMember done stack).run (membersTokens members ++ .closeObject :: ts) =
        (deliver (.object (done.reverse ++ memberNodes members) none) stack).run ts
  | [], done, stack, ts => by
    unfold memberNodes
    rw [List.append_nil]
    rfl
  | (key, value) :: members, done, stack, ts => by
    have hvalue := run_toTokens value (.member done (.ok key) :: stack)
      (membersTokens members ++ .closeObject :: ts)
    have hrest := run_membersTokens members ((.ok key, value.toNode) :: done) stack ts
    rw [List.reverse_cons, List.append_assoc] at hrest
    unfold membersTokens
    simp only [List.cons_append, List.append_assoc]
    exact hvalue.trans hrest

end

/-- **A written value is read back.** The text of a value without doubles is a document that
consists of the value's tree. -/
theorem ofText_render {j : Json} (hj : j.Every Number.FitsWord objects) :
    Document.ofText j.render = ⟨j.toNode, none⟩ := by
  have htokens : tokens j.chars = j.toTokens ++ [] := by
    have hsplit : tokens (j.chars ++ []) = j.toTokens ++ tokens [] := tokens_chars hj nofun
    rwa [List.append_nil, tokens] at hsplit
  unfold Document.ofText render
  rw [String.toList_ofList, htokens, run_toTokens]
  rfl

/-- What is read from the tree of a value is read from its text. -/
theorem readString_of_toNode {α : Type} {reader : Reader α} {j : Json} {a : α}
    (hj : j.Every Number.FitsWord objects) (h : reader .document j.toNode = .ok a) :
    readString reader j.render = .ok a := by
  unfold readString
  rw [ofText_render hj]
  exact bind_eq_ok.mpr ⟨a, h, rfl⟩

end Blackout.Json
