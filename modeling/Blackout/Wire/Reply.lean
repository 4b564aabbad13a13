import Blackout.Json.Decode
import Blackout.Json.Printer

/-!
# Replies

A reply is an object that its member `type` names; the other members tell what happened. Times
are kept as text, and a reply is written on one line.
-/

namespace Blackout

open Json

/-- Withheld matches of a rule, as a reply tells them. -/
structure PendingStatus where
  rule : String
  count : Nat
  stop : String
deriving DecidableEq

inductive Reply where
  /-- A match is handed on; `late` tells whether it had been withheld. -/
  | delivered (rule : String) (id : MatchId) (late : Bool) (payload : Json)
  /-- A match is withheld until `stop`, with which `pending` matches of its rule wait. -/
  | deferred (rule stop : String) (pending : Nat)
  /-- A blackout has ended; `count` deliveries follow. -/
  | released (rule : String) (count : Nat)
  | now (time : String)
  | status (time : String) (pending : List PendingStatus)
  | error (message : String)

namespace Reply

/-! ### Reading -/

def pendingShape : Shape PendingStatus where
  title := "struct PendingStatus"
  blank := ⟨"", 0, ""⟩
  fields := [
    .needed "rule" readText fun p rule => { p with rule := rule },
    .needed "count" readCount fun p count => { p with count := count },
    .needed "until" readText fun p stop => { p with stop := stop }]

def deliveredShape : Shape (String × MatchId × Bool × Json) where
  title := "struct variant Reply::Delivered"
  blank := ("", ⟨0⟩, false, .null)
  fields := [
    .needed "rule" readText fun (_, rest) rule => (rule, rest),
    .needed "match_id" readMatchId fun (rule, _, rest) id => (rule, id, rest),
    .needed "released" readBool fun (rule, id, _, payload) late => (rule, id, late, payload),
    .needed "payload" readJson fun (rule, id, late, _) payload => (rule, id, late, payload)]

def deferredShape : Shape (String × String × Nat) where
  title := "struct variant Reply::Deferred"
  blank := ("", "", 0)
  fields := [
    .needed "rule" readText fun (_, rest) rule => (rule, rest),
    .needed "until" readText fun (rule, _, pending) stop => (rule, stop, pending),
    .needed "pending" readCount fun (rule, stop, _) pending => (rule, stop, pending)]

def releasedShape : Shape (String × Nat) where
  title := "struct variant Reply::Released"
  blank := ("", 0)
  fields := [
    .needed "rule" readText fun (_, count) rule => (rule, count),
    .needed "count" readCount fun (rule, _) count => (rule, count)]

def nowShape : Shape String where
  title := "struct variant Reply::Now"
  blank := ""
  fields := [.needed "now" readText fun _ time => time]

def statusShape : Shape (String × List PendingStatus) where
  title := "struct variant Reply::Status"
  blank := ("", [])
  fields := [
    .needed "now" readText fun (_, pending) time => (time, pending),
    .needed "pending" (readList pendingShape.read) fun (time, _) pending => (time, pending)]

def errorShape : Shape String where
  title := "struct variant Reply::Error"
  blank := ""
  fields := [.needed "message" readText fun _ message => message]

/-- Names of the replies, with the readers of their members. -/
def forms : Names (Reader Reply) := [
  ("delivered", fun c node => (deliveredShape.read c node).map
    fun (rule, id, late, payload) => delivered rule id late payload),
  ("deferred", fun c node => (deferredShape.read c node).map
    fun (rule, stop, pending) => deferred rule stop pending),
  ("released", fun c node => (releasedShape.read c node).map
    fun (rule, count) => released rule count),
  ("now", fun c node => (nowShape.read c node).map now),
  ("status", fun c node => (statusShape.read c node).map
    fun (time, pending) => status time pending),
  ("error", fun c node => (errorShape.read c node).map error)]

def read : Reader Reply := fun c node => do
  let (form, members) ← readTagged "internally tagged enum Reply" "type" forms c node
  form .whole members

/-! ### Writing -/

def pendingJson (p : PendingStatus) : Json :=
  .object [("rule", .text p.rule), ("count", .ofNat p.count), ("until", .text p.stop)]

def toJson : Reply → Json
  | delivered rule id late payload =>
    .object [("type", .text "delivered"), ("rule", .text rule), ("match_id", .text id.text),
      ("released", .bool late), ("payload", payload)]
  | deferred rule stop pending =>
    .object [("type", .text "deferred"), ("rule", .text rule), ("until", .text stop),
      ("pending", .ofNat pending)]
  | released rule count =>
    .object [("type", .text "released"), ("rule", .text rule), ("count", .ofNat count)]
  | now time => .object [("type", .text "now"), ("now", .text time)]
  | status time pending =>
    .object [("type", .text "status"), ("now", .text time),
      ("pending", .ofList pendingJson pending)]
  | error message => .object [("type", .text "error"), ("message", .text message)]

def line (reply : Reply) : String := reply.toJson.render ++ "\n"

def description : Reply → String
  | delivered rule _ late _ => rule ++ " delivered" ++ if late then " (released)" else ""
  | deferred rule stop _ => rule ++ " deferred until " ++ stop
  | released rule count => rule ++ " released " ++ Text.Decimal.natText count
  | now time => "now " ++ time
  | status _ pending => Text.Decimal.natText pending.length ++ " rules pending"
  | error message => "error: " ++ message

end Reply

end Blackout
