import Blackout.Proofs.JsonRecord
import Blackout.Proofs.JsonText
import Blackout.Proofs.PlainText
import Blackout.Proofs.Transcript

/-!
# Commands and replies on the wire

Replies are written one a line, and the lines are told by their line feeds, since a written value
has none. Each line is read as the reply it was written for. A command is read from its line as it
was written, so that its line does what the command does.
-/

namespace Blackout

open Json Text

/-! ### Identifiers -/

namespace MatchId

theorem value?_digitChar (n : Fin 16) : Hexadecimal.value? (Nat.digitChar n) = some n.val := by
  revert n
  decide

theorem value?_append (cs ds : List Char) :
    value? (cs ++ ds) = (value? cs).bind fun v =>
      ds.foldlM (fun v c => (Hexadecimal.value? c).map (16 * v + ·)) v :=
  List.foldlM_append

theorem value?_concat {cs : List Char} {v : Nat} (hcs : value? cs = some v) (d : Fin 16) :
    value? (cs ++ [Nat.digitChar d]) = some (16 * v + d) := by
  rw [value?_append, hcs, Option.bind_some, List.foldlM_cons, value?_digitChar]
  rfl

theorem value?_toDigits (n : Nat) : value? (Nat.toDigits 16 n) = some n := by
  induction n using Nat.strongRecOn with
  | ind n ih =>
    rw [Nat.toDigits_eq_if (by decide)]
    split
    · next hlt =>
      have hlast : value? ([] ++ [Nat.digitChar n]) = some (16 * 0 + n) :=
        value?_concat rfl ⟨n, hlt⟩
      rwa [List.nil_append, Nat.mul_zero, Nat.zero_add] at hlast
    · next hge =>
      have hlast := value?_concat (ih (n / 16) (by omega)) ⟨n % 16, by omega⟩
      rwa [Nat.div_add_mod] at hlast

theorem value?_replicate (k : Nat) : value? (List.replicate k '0') = some 0 := by
  induction k with
  | zero => rfl
  | succ k ih =>
    rw [List.replicate_succ]
    exact ih

theorem value?_digits (id : MatchId) : value? id.digits = some id.bits.toNat := by
  unfold digits
  rw [value?_append, value?_replicate]
  exact value?_toDigits _

theorem length_digits (id : MatchId) : id.digits.length = 32 := by
  have hlength : (Nat.toDigits 16 id.bits.toNat).length ≤ 32 :=
    (Nat.length_toDigits_le_iff (by decide) (by decide)).mpr id.bits.isLt
  unfold digits
  rw [List.length_append, List.length_replicate]
  omega

theorem ofPlain?_digits (id : MatchId) : ofPlain? id.digits = some id := by
  unfold ofPlain?
  rw [if_pos id.length_digits, value?_digits, Option.map_some, BitVec.ofNat_toNat,
    BitVec.setWidth_eq]

/-- Digits in five groups are read as the digits. -/
theorem ofGrouped?_groups {a b c d e : List Char} (ha : a.length = 8) (hb : b.length = 4)
    (hc : c.length = 4) (hd : d.length = 4) (he : e.length = 12) :
    ofGrouped? (a ++ '-' :: b ++ '-' :: c ++ '-' :: d ++ '-' :: e) =
      ofPlain? (a ++ b ++ c ++ d ++ e) := by
  have hdrop : ∀ (cs : List Char) (n : Nat), cs.length ≤ n → cs.drop n = [] := fun _ _ =>
    List.drop_eq_nil_of_le
  unfold ofGrouped?
  simp [List.getElem?_append, List.getElem?_cons, List.drop_append, hdrop, ha, hb, hc, hd, he]

theorem append_groups (ds : List Char) :
    ds.take 8 ++ (ds.drop 8).take 4 ++ (ds.drop 12).take 4 ++ (ds.drop 16).take 4 ++ ds.drop 20 =
      ds := by
  have hgroup : ∀ n, (ds.drop n).take 4 ++ ds.drop (n + 4) = ds.drop n := by
    intro n
    rw [← List.drop_drop, List.take_append_drop]
  simp only [List.append_assoc]
  rw [hgroup 16, hgroup 12, hgroup 8, List.take_append_drop]

/-- An identifier is read back from its text. -/
theorem ofText_text (id : MatchId) : ofText id.text = .ok id := by
  have hlength := id.length_digits
  have hplain : ofPlain? id.text.toList = none := by
    refine if_neg ?_
    simp [text]
    omega
  have hgrouped : ofGrouped? id.text.toList = some id := by
    unfold text
    rw [String.toList_ofList, ofGrouped?_groups (by simp; omega) (by simp; omega) (by simp; omega)
      (by simp; omega) (by simp; omega), append_groups, ofPlain?_digits]
  unfold ofText
  dsimp only
  rw [hplain, hgrouped]
  rfl

end MatchId

theorem Json.readMatchId_text (id : MatchId) (c : Context) :
    readMatchId c (Json.text id.text).toNode = .ok id := by
  unfold readMatchId toNode
  dsimp only
  rw [id.ofText_text]

/-! ### What can be written -/

/-- A payload that a line can hold: its numbers are whole, and it is at most 126 levels deep.
Numbers beyond 64 bits are held as doubles, whose text need not be read as the same double. -/
structure Json.IsPayload (payload : Json) : Prop where
  normal : payload.Normal Number.FitsWord
  shallow : payload.depth ≤ 126

/-- Its payload fits in a line, and its counts in 64 bits. -/
def Reply.Writable : Reply → Prop
  | delivered _ _ _ payload => payload.IsPayload
  | deferred _ _ pending => pending < 2 ^ 64
  | released _ count => count < 2 ^ 64
  | now _ => True
  | status _ pending => ∀ p ∈ pending, p.count < 2 ^ 64
  | error _ => True

/-- Its payload fits in a line, and its amount in 64 bits. -/
def Command.Writable : Command → Prop
  | submit _ payload => payload.IsPayload
  | advance amount _ => amount < 2 ^ 64
  | advanceTo _ => True
  | now => True
  | status => True

theorem Json.IsPayload.fits {payload : Json} (h : payload.IsPayload) :
    payload.Every Number.FitsWord fun _ => True :=
  h.normal.mono (fun _ hn => hn) fun _ _ => trivial

theorem Json.fitsWord_ofNat {n : Nat} (h : n < 2 ^ 64) : (Number.whole n).FitsWord :=
  ⟨by omega, by omega⟩

theorem Json.IsPayload.readJson {payload : Json} (h : payload.IsPayload) :
    readJson .whole payload.toNode = .ok payload :=
  readJson_toNode (h.normal.mono (fun _ => Number.FitsWord.isFinite) fun _ hsorted => hsorted) nofun

/-! ### Reading a reply -/

namespace Reply

theorem depth_pendingJson (pending : List PendingStatus) :
    (Json.ofList pendingJson pending).depth ≤ 2 := by
  have hitems : itemsDepth (pending.map pendingJson) ≤ 1 := by
    induction pending with
    | nil => exact Nat.zero_le 1
    | cons p rest ih => exact max_le (Nat.le_refl 1) ih
  exact Nat.succ_le_succ hitems

theorem depth_toJson {reply : Reply} (h : reply.Writable) : reply.toJson.depth ≤ 127 := by
  cases reply with
  | delivered rule id late payload =>
    have hpayload := h.shallow
    simp [toJson, depth, membersDepth]
    omega
  | status time pending =>
    have hpending := depth_pendingJson pending
    simp [toJson, depth, membersDepth]
    omega
  | deferred | released | now | error => exact Nat.one_le_ofNat

theorem read_pendingJson {p : PendingStatus} (h : p.count < 2 ^ 64) :
    pendingShape.read .whole (pendingJson p).toNode = .ok p :=
  Shape.read_object rfl (Shape.readMembers_cons rfl rfl rfl <|
    Shape.readMembers_cons rfl rfl (readCount_ofNat (by omega) .whole) <|
    Shape.readMembers_cons rfl rfl rfl rfl) rfl

theorem read_object {name : String} {form : Reader Reply} {members : List (String × Json)}
    {reply : Reply} (hfind : forms.find name = .ok form) (hkeys : ∀ m ∈ members, m.1 ≠ "type")
    (hdepth : (Json.object (("type", .text name) :: members)).depth ≤ 127)
    (hform : form .whole (.object (memberNodes members) none) = .ok reply) :
    read .document (Json.object (("type", .text name) :: members)).toNode = .ok reply := by
  refine bind_eq_ok.mpr ⟨_, readTagged_object hfind hkeys ?_, hform⟩
  intro n hn
  cases hn
  exact hdepth

theorem read_toJson {reply : Reply} (h : reply.Writable) :
    read .document reply.toJson.toNode = .ok reply := by
  have hdepth := depth_toJson h
  cases reply with
  | delivered rule id late payload =>
    have hmembers : deliveredShape.read .whole (.object (memberNodes [("rule", .text rule),
        ("match_id", .text id.text), ("released", .bool late), ("payload", payload)]) none) =
        .ok (rule, id, late, payload) :=
      Shape.read_object rfl (Shape.readMembers_cons rfl rfl rfl <|
        Shape.readMembers_cons rfl rfl (readMatchId_text id .whole) <|
        Shape.readMembers_cons rfl rfl rfl <|
        Shape.readMembers_cons rfl rfl h.readJson rfl) rfl
    exact read_object rfl (by simp) hdepth (congrArg (Except.map _) hmembers)
  | deferred rule stop pending =>
    have hmembers : deferredShape.read .whole (.object (memberNodes [("rule", .text rule),
        ("until", .text stop), ("pending", .ofNat pending)]) none) = .ok (rule, stop, pending) :=
      Shape.read_object rfl (Shape.readMembers_cons rfl rfl rfl <|
        Shape.readMembers_cons rfl rfl rfl <|
        Shape.readMembers_cons rfl rfl (readCount_ofNat (Nat.le_of_lt_succ h) .whole) rfl) rfl
    exact read_object rfl (by simp) hdepth (congrArg (Except.map _) hmembers)
  | released rule count =>
    have hmembers : releasedShape.read .whole (.object (memberNodes [("rule", .text rule),
        ("count", .ofNat count)]) none) = .ok (rule, count) :=
      Shape.read_object rfl (Shape.readMembers_cons rfl rfl rfl <|
        Shape.readMembers_cons rfl rfl (readCount_ofNat (Nat.le_of_lt_succ h) .whole) rfl) rfl
    exact read_object rfl (by simp) hdepth (congrArg (Except.map _) hmembers)
  | now time =>
    have hmembers : nowShape.read .whole (.object (memberNodes [("now", .text time)]) none) =
        .ok time := Shape.read_object rfl (Shape.readMembers_cons rfl rfl rfl rfl) rfl
    exact read_object rfl (by simp) hdepth (congrArg (Except.map _) hmembers)
  | status time pending =>
    have hpending : readList pendingShape.read .whole (ofList pendingJson pending).toNode =
        .ok pending := readList_ofList rfl fun p hp => read_pendingJson (h p hp)
    have hmembers : statusShape.read .whole (.object (memberNodes [("now", .text time),
        ("pending", .ofList pendingJson pending)]) none) = .ok (time, pending) :=
      Shape.read_object rfl (Shape.readMembers_cons rfl rfl rfl <|
        Shape.readMembers_cons rfl rfl hpending rfl) rfl
    exact read_object rfl (by simp) hdepth (congrArg (Except.map _) hmembers)
  | error message =>
    have hmembers : errorShape.read .whole
        (.object (memberNodes [("message", .text message)]) none) = .ok message :=
      Shape.read_object rfl (Shape.readMembers_cons rfl rfl rfl rfl) rfl
    exact read_object rfl (by simp) hdepth (congrArg (Except.map _) hmembers)

theorem fits_pendingJson {pending : List PendingStatus} (h : ∀ p ∈ pending, p.count < 2 ^ 64) :
    (ofList pendingJson pending).Every Number.FitsWord fun _ => True := by
  refine everyItem_iff.mpr (List.forall_mem_map.mpr fun p hp => ?_)
  exact ⟨trivial, trivial, fitsWord_ofNat (h p hp), trivial, trivial⟩

theorem fits_toJson {reply : Reply} (h : reply.Writable) :
    reply.toJson.Every Number.FitsWord fun _ => True := by
  cases reply with
  | delivered rule id late payload =>
    exact ⟨trivial, trivial, trivial, trivial, trivial, h.fits, trivial⟩
  | deferred rule stop pending =>
    exact ⟨trivial, trivial, trivial, trivial, fitsWord_ofNat h, trivial⟩
  | released rule count => exact ⟨trivial, trivial, trivial, fitsWord_ofNat h, trivial⟩
  | status time pending => exact ⟨trivial, trivial, trivial, fits_pendingJson h, trivial⟩
  | now | error => exact ⟨trivial, trivial, trivial, trivial⟩

/-- A reply is read back from its line. -/
theorem readString_render {reply : Reply} (h : reply.Writable) :
    readString read reply.toJson.render = .ok reply :=
  readString_of_toNode (fits_toJson h) (read_toJson h)

end Reply

/-! ### Reading a command -/

namespace Command

theorem read_object {name : String} {form : Reader Command} {members : List (String × Json)}
    {command : Command} (hfind : forms.find name = .ok form)
    (hkeys : ∀ m ∈ members, m.1 ≠ "command")
    (hdepth : (Json.object (("command", .text name) :: members)).depth ≤ 127)
    (hform : form .whole (.object (memberNodes members) none) = .ok command) :
    read .document (Json.object (("command", .text name) :: members)).toNode = .ok command := by
  refine bind_eq_ok.mpr ⟨_, readTagged_object hfind hkeys ?_, hform⟩
  intro n hn
  cases hn
  exact hdepth

theorem read_toJson {command : Command} (h : command.Writable) :
    read .document command.toJson.toNode = .ok command := by
  cases command with
  | submit rule payload =>
    have hdepth : (submit rule payload).toJson.depth ≤ 127 := by
      have hpayload := h.shallow
      simp [toJson, depth, membersDepth]
      omega
    have hmembers : submitShape.read .whole (.object (memberNodes [("rule", .text rule),
        ("payload", payload)]) none) = .ok (rule, payload) :=
      Shape.read_object rfl (Shape.readMembers_cons rfl rfl rfl <|
        Shape.readMembers_cons rfl rfl h.readJson rfl) rfl
    exact read_object rfl (by simp) hdepth (congrArg (Except.map _) hmembers)
  | advance amount unit =>
    have hunit : readName TimeUnit.names .whole (Json.text unit.name).toNode = .ok unit := by
      cases unit <;> rfl
    have hmembers : advanceShape.read .whole (.object (memberNodes [("amount", .ofNat amount),
        ("unit", .text unit.name)]) none) = .ok (amount, unit) :=
      Shape.read_object rfl (Shape.readMembers_cons rfl rfl
        (readAmount_ofNat (Nat.le_of_lt_succ h) .whole) <|
        Shape.readMembers_cons rfl rfl hunit rfl) rfl
    exact read_object rfl (by simp) Nat.one_le_ofNat (congrArg (Except.map _) hmembers)
  | advanceTo time =>
    have hmembers : advanceToShape.read .whole (.object (memberNodes [("time", .text time)]) none) =
        .ok time := Shape.read_object rfl (Shape.readMembers_cons rfl rfl rfl rfl) rfl
    exact read_object rfl (by simp) Nat.one_le_ofNat (congrArg (Except.map _) hmembers)
  | now | status => exact read_object rfl (List.forall_mem_nil _) Nat.one_le_ofNat rfl

theorem fits_toJson {command : Command} (h : command.Writable) :
    command.toJson.Every Number.FitsWord fun _ => True := by
  cases command with
  | submit rule payload => exact ⟨trivial, trivial, trivial, h.fits, trivial⟩
  | advance amount unit => exact ⟨trivial, trivial, fitsWord_ofNat h, trivial, trivial⟩
  | advanceTo time => exact ⟨trivial, trivial, trivial, trivial⟩
  | now | status => exact ⟨trivial, trivial, trivial⟩

/-- A command is read back from its line. -/
theorem readString_render {command : Command} (h : command.Writable) :
    readString read command.toJson.render = .ok command :=
  readString_of_toNode (fits_toJson h) (read_toJson h)

theorem depth_of_submitShape_read {d : Nat} {node : Node} {a : String × Json}
    (hnode : ∀ part ∈ node.parts, part.toJson.depth ≤ d)
    (h : submitShape.read .whole node = .ok a) : a.2.depth ≤ d := by
  refine Shape.read_holds (fun part => part.toJson.depth ≤ d) (fun a => a.2.depth ≤ d) ?_
    (Nat.zero_le d) hnode h
  intro field hfield c part a b hpart ha hset
  simp only [submitShape, List.mem_cons, List.not_mem_nil, or_false] at hfield
  rcases hfield with rfl | rfl
  · obtain ⟨rule, -, rfl⟩ := map_eq_ok.mp hset
    exact ha
  · obtain ⟨payload, hpayload, rfl⟩ := map_eq_ok.mp hset
    obtain ⟨_, -, hpayload⟩ := bind_eq_ok.mp hpayload
    cases hpayload
    exact hpart

/-- A payload that comes in stands at most 126 levels deep. -/
theorem depth_le_of_readString {line rule : String} {payload : Json}
    (h : readString read line = .ok (submit rule payload)) : payload.depth ≤ 126 := by
  obtain ⟨⟨form, rest⟩, htagged, hform⟩ := bind_eq_ok.mp (readString_eq_ok h)
  obtain ⟨⟨name, hname⟩, inner, henter, hkept⟩ := readTagged_kept htagged
  cases henter
  have hparts : ∀ part ∈ rest.parts, part.toJson.depth ≤ 126 := fun part hpart =>
    leaves_of_keep (hkept part hpart) 126 rfl
  have hmem := mem_of_find hname
  simp only [forms, List.mem_cons, List.not_mem_nil, or_false, Prod.mk.injEq] at hmem
  rcases hmem with ⟨-, rfl⟩ | ⟨-, rfl⟩ | ⟨-, rfl⟩ | ⟨-, rfl⟩ | ⟨-, rfl⟩
  · obtain ⟨a, ha, hsubmit⟩ := map_eq_ok.mp hform
    cases hsubmit
    exact depth_of_submitShape_read hparts ha
  all_goals
    obtain ⟨_, -, hother⟩ := map_eq_ok.mp hform
    cases hother

end Command

/-! ### Bytes of a line -/

theorem bytes_eq_flatMap (s : String) :
    s.toUTF8.data.toList = s.toList.flatMap String.utf8EncodeChar := by
  conv_lhs => rw [← String.ofList_toList (s := s)]
  rw [String.toUTF8_eq_toByteArray, String.toByteArray_ofList, List.utf8Encode,
    List.toList_data_toByteArray]

/-- No byte of a character that is no control character is a line feed. -/
theorem not_mem_utf8EncodeChar {c : Char} (h : 32 ≤ c.toNat) : 10 ∉ String.utf8EncodeChar c := by
  have hne : ∀ n, 10 < n → n < 256 → 10 ≠ UInt8.ofNat n := by
    intro n hlo hhi heq
    have hvalue := congrArg UInt8.toNat heq
    rw [UInt8.toNat_ofNat', Nat.mod_eq_of_lt hhi] at hvalue
    exact absurd hvalue hlo.ne
  change 32 ≤ c.val.toNat at h
  rw [String.utf8EncodeChar.eq_1]
  generalize c.val.toNat = n at h
  have hlast : 10 ≠ UInt8.ofNat (n % 64 + 128) := hne _ (by omega) (by omega)
  have hmiddle : 10 ≠ UInt8.ofNat (n / 64 % 64 + 128) := hne _ (by omega) (by omega)
  repeat' split
  all_goals simp only [List.mem_cons, List.not_mem_nil, or_false, not_or]
  · exact hne n (by omega) (by omega)
  · exact ⟨hne _ (by omega) (by omega), hlast⟩
  · exact ⟨hne _ (by omega) (by omega), hmiddle, hlast⟩
  · exact ⟨hne _ (by omega) (by omega), hne _ (by omega) (by omega), hmiddle, hlast⟩

theorem not_mem_bytes_render (j : Json) : 10 ∉ j.render.toUTF8.data.toList := by
  rw [bytes_eq_flatMap, Json.render, String.toList_ofList]
  intro hmem
  obtain ⟨c, hc, hbyte⟩ := List.mem_flatMap.mp hmem
  exact not_mem_utf8EncodeChar (noControl_chars j c hc) hbyte

namespace Reply

/-- The bytes that replies are written as, each on its line. -/
def bytes (replies : List Reply) : List UInt8 :=
  replies.flatMap fun reply => reply.line.toUTF8.data.toList

/-- Reply that is read from the bytes of a line. -/
def ofBytes? (line : List UInt8) : Option Reply := do
  (readString read (← String.fromUTF8? line.toByteArray)).toOption

theorem bytes_cons (reply : Reply) (rest : List Reply) :
    bytes (reply :: rest) = reply.toJson.render.toUTF8.data.toList ++ 10 :: bytes rest := by
  have hline : reply.line.toUTF8.data.toList = reply.toJson.render.toUTF8.data.toList ++ [10] := by
    rw [bytes_eq_flatMap, bytes_eq_flatMap, line, String.toList_append, List.flatMap_append]
    rfl
  unfold bytes
  rw [List.flatMap_cons, hline, List.append_assoc, List.singleton_append]

/-- Line feeds split what is written into the texts of the replies. -/
theorem splitOn_bytes (replies : List Reply) :
    (bytes replies).splitOn 10 =
      replies.map (fun reply => reply.toJson.render.toUTF8.data.toList) ++ [[]] := by
  induction replies with
  | nil => rfl
  | cons reply rest ih =>
    rw [bytes_cons, List.splitOn_append_cons_self_of_not_mem (not_mem_bytes_render _), ih]
    rfl

theorem ofBytes?_render {reply : Reply} (h : reply.Writable) :
    ofBytes? reply.toJson.render.toUTF8.data.toList = some reply := by
  have hbytes : (reply.toJson.render.toUTF8.data.toList).toByteArray =
      reply.toJson.render.toUTF8 := by
    ext1
    rw [List.data_toByteArray]
  have htext : String.fromUTF8? reply.toJson.render.toUTF8 = some reply.toJson.render := by
    rw [String.toUTF8_eq_toByteArray]
    exact dif_pos reply.toJson.render.isValidUTF8
  unfold ofBytes?
  rw [hbytes, htext]
  show (readString read reply.toJson.render).toOption = some reply
  rw [readString_render h]
  rfl

end Reply

/-! ### Main results -/

/-- **Lines lose nothing.** Replies are written as one line each, whatever their texts hold, and
each line is read as its reply. A command leads from its line to what it leads to by itself,
breakdowns included. No payload that comes in with a line is deeper than one that can go out. -/
theorem wire_round_trip :
    (∀ replies : List Reply, (∀ reply ∈ replies, reply.Writable) →
      ∃ lines : List (List UInt8), (Reply.bytes replies).splitOn 10 = lines ++ [[]] ∧
        List.Forall₂ (fun line reply => Reply.ofBytes? line = some reply) lines replies) ∧
    (∀ command : Command, command.Writable →
      ∀ (here : Zone) (fresh : MatchId) (service : Service),
        service.handleLine here fresh command.toJson.render = service.handle here fresh command ∧
        service.respond? here fresh command.toJson.render =
          (repliesOf? (service.handle here fresh command).1).map (fun replies =>
            (replies, (service.handle here fresh command).2)) ∧
        (service.respond? here fresh command.toJson.render = none ↔
          command.BreaksDown here service.registry service.now)) ∧
    ∀ (line rule : String) (payload : Json),
      readString Command.read line = .ok (.submit rule payload) → payload.depth ≤ 126 := by
  refine ⟨fun replies hreplies => ⟨_, Reply.splitOn_bytes replies, ?_⟩,
    fun command hcommand here fresh service => ?_,
    fun line rule payload => Command.depth_le_of_readString⟩
  · rw [List.forall₂_map_left_iff, List.forall₂_same]
    exact fun reply hreply => Reply.ofBytes?_render (hreplies reply hreply)
  · have hread := Command.readString_render hcommand
    refine ⟨?_, Service.respond?_of_read hread, ?_⟩
    · unfold Service.handleLine
      rw [hread]
    · rw [Service.respond?_eq_none_iff]
      constructor
      · rintro ⟨other, hother, hdown⟩
        cases hread.symm.trans hother
        exact hdown
      · exact fun hdown => ⟨command, hread, hdown⟩

/-- Replies with line feeds and quotes in their texts. -/
def Reply.twoReplies : List Reply := [
  .delivered "a\n\"b\"" ⟨7⟩ true (.object [("k\r\n", .array [.number (.whole (-3)), .null])]),
  .error "first\nsecond"]

/-- A match of a rule with a line feed in its name. -/
def Command.brokenName : Command := .submit "a\nb" (.array [.text "\n", .number (.whole 7)])

/-- Line feeds in texts end no line. -/
theorem wire_round_trip_line_feeds :
    ∃ service : Service, service = .ofPolicy ⟨none, none, []⟩ ⟨0, 0⟩ ∧
    (∀ reply ∈ Reply.twoReplies, reply.Writable) ∧
    (∃ lines : List (List UInt8), (Reply.bytes Reply.twoReplies).splitOn 10 = lines ++ [[]] ∧
      List.Forall₂ (fun line reply => Reply.ofBytes? line = some reply) lines Reply.twoReplies) ∧
    Command.brokenName.Writable ∧
    service.handleLine .universal ⟨1⟩ Command.brokenName.toJson.render =
      service.handle .universal ⟨1⟩ Command.brokenName ∧
    readString Command.read Command.brokenName.toJson.render =
      .ok (.submit "a\nb" (.array [.text "\n", .number (.whole 7)])) ∧
    (Json.array [.text "\n", .number (.whole 7)]).depth ≤ 126 := by
  have hreplies : ∀ reply ∈ Reply.twoReplies, reply.Writable := by
    have hpayload : (Json.object [("k\r\n", .array [.number (.whole (-3)), .null])]).IsPayload :=
      ⟨⟨.cons nofun .nil, ⟨⟨by decide, by decide⟩, trivial, trivial⟩, trivial⟩, by decide⟩
    simp only [Reply.twoReplies, List.forall_mem_cons]
    exact ⟨hpayload, trivial, nofun⟩
  have hcommand : Command.brokenName.Writable :=
    ⟨⟨trivial, ⟨by decide, by decide⟩, trivial⟩, by decide⟩
  have hread := Command.readString_render hcommand
  obtain ⟨hlines, hresponds, hdepth⟩ := wire_round_trip
  exact ⟨_, rfl, hreplies, hlines _ hreplies, hcommand, (hresponds _ hcommand _ _ _).1, hread,
    hdepth _ _ _ hread⟩

end Blackout
