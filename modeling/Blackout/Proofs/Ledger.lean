import Mathlib.Logic.Function.Basic
import Blackout.Calendar.Zone.Posix
import Blackout.Proofs.Registry
import Blackout.Proofs.Transcript

/-!
# Replies as a log

Whoever reads the replies can keep a ledger: the time, and for each rule the matches that are
withheld with the end that was announced last. `Ledger.Answers` tells the replies that a line gets
when the ledger stands as it does, and how the ledger stands after it, without the state of the
service. Every transcript of a service for an accepted rule set is explained so, from an empty
ledger on. The ledger also tells where it ends: at a line that breaks the service down.

The proof keeps the ledger a mirror of the queue: accounts are its entries.
-/

namespace Blackout

/-! ### Ledgers -/

structure Account where
  withheld : List Submission
  /-- The end that was announced last. -/
  stop : OffsetTime

structure Ledger where
  clock : Instant
  account : String → Option Account

/-- A release is announced with the number of matches, which follow one by one. -/
def releaseReplies (rule : String) (chosen : List Submission) : List Reply :=
  .released rule chosen.length :: chosen.map fun s => .delivered rule s.id true s.payload

namespace Ledger

def start (now : Instant) : Ledger := ⟨now, fun _ => none⟩

def withheld (ledger : Ledger) (rule : String) : List Submission :=
  match ledger.account rule with
  | some account => account.withheld
  | none => []

def defer (ledger : Ledger) (rule : String) (submission : Submission) (stop : OffsetTime) :
    Ledger :=
  { ledger with
    account := Function.update ledger.account rule
      (some ⟨ledger.withheld rule ++ [submission], stop⟩) }

def close (ledger : Ledger) (rule : String) : Ledger :=
  { ledger with account := Function.update ledger.account rule none }

def Ended (ledger : Ledger) (rule : String) : Prop :=
  ∃ account, ledger.account rule = some account ∧ account.stop.instant < ledger.clock

/-- Release groups in the order of the listed rules, one for each account whose end has passed. A
group hands on what the trigger selects of the account, at least one match, and closes it. -/
inductive Releases : Ledger → List (String × Window) → List Reply → Ledger → Prop where
  | done (ledger : Ledger) : Releases ledger [] [] ledger
  | keeps {ledger later : Ledger} {rule : String} {window : Window}
    {rest : List (String × Window)} {replies : List Reply} (hnot : ¬ ledger.Ended rule)
    (hrest : Releases ledger rest replies later) :
    Releases ledger ((rule, window) :: rest) replies later
  | releases {ledger later : Ledger} {rule : String} {window : Window}
    {rest : List (String × Window)} {replies : List Reply} {account : Account}
    {chosen : List Submission} (haccount : ledger.account rule = some account)
    (hended : account.stop.instant < ledger.clock)
    (hchosen : window.trigger.Selects account.withheld chosen) (hsome : 1 ≤ chosen.length)
    (hrest : Releases (ledger.close rule) rest replies later) :
    Releases ledger ((rule, window) :: rest) (releaseReplies rule chosen ++ replies) later

/-- A list of exactly the rules with withheld matches, in the order of the registry, with what their
accounts say. -/
structure Lists (registry : Registry) (ledger : Ledger) (pending : List PendingStatus) :
    Prop where
  exactly : ∀ rule, rule ∈ pending.map PendingStatus.rule ↔ ledger.withheld rule ≠ []
  ordered : (pending.map PendingStatus.rule).Sublist (registry.entries.map Prod.fst)
  once : (pending.map PendingStatus.rule).Nodup
  accounts : ∀ p ∈ pending, ∃ account, ledger.account p.rule = some account ∧
    p.count = account.withheld.length ∧ p.stop = account.stop.rfc3339

/-- Replies that a line gets when the ledger is `ledger`, and the ledger after it. -/
inductive Answers (here : Zone) (registry : Registry) (ledger : Ledger) (fresh : MatchId)
    (line : String) : List Reply → Ledger → Prop where
  | refused {error : ServiceError}
    (hrefused : Service.Refused here registry ledger.clock line error) :
    Answers here registry ledger fresh line [.error error.message] ledger
  | delivered {rule : String} {payload : Json} {replies : List Reply} {later : Ledger}
    (hline : Json.readString Command.read line = .ok (.submit rule payload))
    (hactive : registry.isInBlackout here rule ledger.clock = .ok false)
    (hreleases : ledger.Releases registry.entries replies later) :
    Answers here registry ledger fresh line (.delivered rule fresh false payload :: replies) later
  | deferred {rule : String} {payload : Json} {window : Window} {stop : OffsetTime}
    {replies : List Reply} {later : Ledger}
    (hline : Json.readString Command.read line = .ok (.submit rule payload))
    (hactive : registry.isInBlackout here rule ledger.clock = .ok true)
    (hwindow : registry.get? rule = some window)
    (hend : window.nextEnd here ledger.clock = .ok stop)
    (hreleases : (ledger.defer rule ⟨fresh, payload⟩ stop).Releases registry.entries replies
      later) :
    Answers here registry ledger fresh line
      (.deferred rule stop.rfc3339
        ((ledger.defer rule ⟨fresh, payload⟩ stop).withheld rule).length :: replies) later
  | moved {now : Instant} {replies : List Reply} {later : Ledger}
    (hmoves : Service.Moves here ledger.clock line now)
    (hreleases : { ledger with clock := now }.Releases registry.entries replies later) :
    Answers here registry ledger fresh line replies later
  | now (hline : Json.readString Command.read line = .ok .now) :
    Answers here registry ledger fresh line [.now (OffsetTime.universal ledger.clock).rfc3339]
      ledger
  | status {pending : List PendingStatus}
    (hline : Json.readString Command.read line = .ok .status)
    (hlists : ledger.Lists registry pending) :
    Answers here registry ledger fresh line
      [.status (OffsetTime.universal ledger.clock).rfc3339 pending] ledger

/-- The replies to every line in turn are answers for the ledger as the lines before left it. A line
that breaks the service down at the ledger's time is not answered, nor is any line after it. -/
inductive Explains (here : Zone) (registry : Registry) :
    Ledger → List (MatchId × String) → List (List Reply) → Prop where
  | nil (ledger : Ledger) : Explains here registry ledger [] []
  | cons {ledger later : Ledger} {fresh : MatchId} {line : String} {replies : List Reply}
    {lines : List (MatchId × String)} {rest : List (List Reply)}
    (hup : ¬ Service.BreaksDown here registry ledger.clock line)
    (hanswers : ledger.Answers here registry fresh line replies later)
    (hrest : Explains here registry later lines rest) :
    Explains here registry ledger ((fresh, line) :: lines) (replies :: rest)
  | brokenDown {ledger : Ledger} {fresh : MatchId} {line : String}
    {lines : List (MatchId × String)}
    (hdown : Service.BreaksDown here registry ledger.clock line) :
    Explains here registry ledger ((fresh, line) :: lines) []

/-! ### A ledger mirrors a queue -/

/-- Accounts are the entries of the queue. Every entry has matches and is of a listed rule. -/
structure Mirrors (registry : Registry) (ledger : Ledger) (queue : Queue Submission) : Prop where
  account : ∀ rule, ledger.account rule =
    (queue.get? rule).map fun entry => ⟨entry.matches_, entry.stop⟩
  held : ∀ {rule entry}, queue.get? rule = some entry → entry.matches_ ≠ []
  listed : ∀ {rule entry}, queue.get? rule = some entry →
    rule ∈ registry.entries.map Prod.fst

variable {registry : Registry} {ledger : Ledger} {queue : Queue Submission} {rule : String}
  {entry : Withheld Submission}

theorem mirrors_start (registry : Registry) (now : Instant) :
    (start now).Mirrors registry .empty where
  account _ := rfl
  held h := nomatch h
  listed h := nomatch h

namespace Mirrors

theorem account_of_get? (hm : ledger.Mirrors registry queue)
    (hentry : queue.get? rule = some entry) :
    ledger.account rule = some ⟨entry.matches_, entry.stop⟩ := by
  rw [hm.account, hentry]
  rfl

theorem withheld_eq (hm : ledger.Mirrors registry queue) (rule : String) :
    ledger.withheld rule = queue.withheld rule := by
  unfold Ledger.withheld Queue.withheld
  rw [hm.account]
  cases queue.get? rule with
  | none => rfl
  | some entry => rfl

theorem ended_iff (hm : ledger.Mirrors registry queue) :
    ledger.Ended rule ↔ queue.Due ledger.clock rule := by
  unfold Ended Queue.Due
  rw [hm.account]
  cases queue.get? rule with
  | none => simp
  | some entry => simp

theorem push (hm : ledger.Mirrors registry queue) (hlisted : rule ∈ registry.entries.map Prod.fst)
    (submission : Submission) (stop : OffsetTime) :
    (ledger.defer rule submission stop).Mirrors registry (queue.push rule submission stop) := by
  refine ⟨fun r => ?_, fun hentry => ?_, fun hentry => ?_⟩
  · rw [Queue.get?_push]
    by_cases hr : r = rule
    · subst hr
      rw [if_pos rfl, ← hm.withheld_eq]
      exact Function.update_self ..
    · rw [if_neg hr, ← hm.account]
      exact Function.update_of_ne hr ..
  · rcases Queue.get?_push_eq_some hentry with ⟨-, rfl⟩ | ⟨-, hentry⟩
    · exact List.append_ne_nil_of_right_ne_nil _ (List.cons_ne_nil _ _)
    · exact hm.held hentry
  · rcases Queue.get?_push_eq_some hentry with ⟨rfl, -⟩ | ⟨-, hentry⟩
    · exact hlisted
    · exact hm.listed hentry

theorem erase (hm : ledger.Mirrors registry queue) (rule : String) :
    (ledger.close rule).Mirrors registry (queue.erase rule) := by
  refine ⟨fun r => ?_, fun hentry => hm.held (Queue.get?_erase_eq_some hentry).2,
    fun hentry => hm.listed (Queue.get?_erase_eq_some hentry).2⟩
  rw [Queue.get?_erase]
  by_cases hr : r = rule
  · subst hr
    rw [if_pos rfl]
    exact Function.update_self ..
  · rw [if_neg hr, ← hm.account]
    exact Function.update_of_ne hr ..

end Mirrors

end Ledger

/-! ### Releases -/

theorem Release.map_reply_events (release : Release Submission) :
    release.events.map Event.reply = releaseReplies release.rule release.released := by
  unfold events releaseReplies
  rw [List.map_cons, List.map_map]
  rfl

namespace Ledger

variable {registry : Registry} {ledger : Ledger} {queue : Queue Submission}

theorem Mirrors.flushRules (hm : ledger.Mirrors registry queue) (rules : List (String × Window)) :
    ∃ later, ledger.Releases rules
        (((Queue.flushRules ledger.clock rules queue).1.flatMap Release.events).map Event.reply)
        later ∧
      later.Mirrors registry (Queue.flushRules ledger.clock rules queue).2 ∧
      later.clock = ledger.clock := by
  induction rules generalizing ledger queue with
  | nil => exact ⟨ledger, .done ledger, hm, rfl⟩
  | cons listed rest ih =>
    obtain ⟨rule, window⟩ := listed
    by_cases hdue : queue.Due ledger.clock rule
    · obtain ⟨entry, hentry, hpassed⟩ := hdue
      obtain ⟨later, hreleases, hlater, hclock⟩ := ih (hm.erase rule)
      rw [Queue.flushRules_of_due hentry hpassed]
      refine ⟨later, ?_, hlater, hclock⟩
      dsimp only
      rw [List.flatMap_cons, List.map_append, Release.map_reply_events]
      obtain ⟨hchosen, hsome⟩ := window.trigger.selects_select (hm.held hentry)
      exact .releases (hm.account_of_get? hentry) hpassed hchosen hsome hreleases
    · obtain ⟨later, hreleases, hlater, hclock⟩ := ih hm
      rw [Queue.flushRules_of_not_due hdue]
      exact ⟨later, .keeps (mt hm.ended_iff.mp hdue) hreleases, hlater, hclock⟩

/-! ### Status -/

theorem Mirrors.lists (hm : ledger.Mirrors registry queue)
    (hnodup : (registry.entries.map Prod.fst).Nodup) :
    ledger.Lists registry ((queue.pendingRules registry).map PendingRule.status) := by
  have hrules : ((queue.pendingRules registry).map PendingRule.status).map PendingStatus.rule =
      (queue.pendingRules registry).map PendingRule.rule := List.map_map
  have hordered := Queue.map_rule_pendingRules_sublist registry queue
  refine ⟨fun rule => ?_, hrules ▸ hordered, hrules ▸ hnodup.sublist hordered, ?_⟩
  · rw [hrules, List.mem_map]
    constructor
    · rintro ⟨p, hp, rfl⟩
      obtain ⟨-, entry, hentry, -⟩ := Queue.mem_pendingRules_iff.mp hp
      rw [hm.withheld_eq, Queue.withheld_of_get? hentry]
      exact hm.held hentry
    · intro hsome
      rw [hm.withheld_eq] at hsome
      obtain ⟨entry, hentry⟩ := Queue.exists_of_withheld_ne_nil hsome
      exact ⟨⟨rule, entry.matches_.length, entry.stop⟩,
        Queue.mem_pendingRules_iff.mpr ⟨hm.listed hentry, entry, hentry, rfl, rfl⟩, rfl⟩
  · intro status hstatus
    obtain ⟨p, hp, rfl⟩ := List.mem_map.mp hstatus
    obtain ⟨-, entry, hentry, hcount, hstop⟩ := Queue.mem_pendingRules_iff.mp hp
    refine ⟨_, hm.account_of_get? hentry, hcount, ?_⟩
    unfold PendingRule.status
    dsimp only
    rw [hstop]

/-! ### Lines -/

theorem Mirrors.answers {here : Zone} {fresh : MatchId} {line : String} {service next : Service}
    {replies : List Reply} (hm : ledger.Mirrors service.registry service.queue)
    (hclock : ledger.clock = service.now)
    (hnodup : (service.registry.entries.map Prod.fst).Nodup)
    (h : service.Responds here fresh line replies next) :
    ∃ later, ledger.Answers here service.registry fresh line replies later ∧
      later.Mirrors service.registry next.queue ∧ later.clock = next.now ∧
      next.registry = service.registry := by
  cases h with
  | refused hrefused =>
    rw [← hclock] at hrefused
    exact ⟨ledger, .refused hrefused, hm, hclock, rfl⟩
  | now hline =>
    rw [← hclock]
    exact ⟨ledger, .now hline, hm, rfl, rfl⟩
  | status hline =>
    rw [← hclock]
    exact ⟨ledger, .status hline (hm.lists hnodup), hm, rfl, rfl⟩
  | @moved now hmoves =>
    rw [← hclock] at hmoves
    have hm : { ledger with clock := now }.Mirrors service.registry service.queue :=
      ⟨hm.account, hm.held, hm.listed⟩
    obtain ⟨later, hreleases, hlater, hnow⟩ := hm.flushRules service.registry.entries
    exact ⟨later, .moved hmoves hreleases, hlater, hnow, rfl⟩
  | @submitted rule payload _ _ hline hrouted =>
    cases hrouted with
    | delivered hactive =>
      obtain ⟨later, hreleases, hlater, hnow⟩ := hm.flushRules service.registry.entries
      rw [hclock] at hreleases hlater
      rw [← hclock] at hactive
      exact ⟨later, .delivered hline hactive hreleases, hlater, hnow.trans hclock, rfl⟩
    | @deferred window stop hactive hwindow hend =>
      have hlisted : rule ∈ service.registry.entries.map Prod.fst :=
        List.mem_map_of_mem (Registry.mem_of_get? hwindow)
      have hpushed := hm.push hlisted ⟨fresh, payload⟩ stop
      -- the count that is announced includes the match itself
      have hcount := congrArg List.length (hpushed.withheld_eq rule)
      rw [Queue.withheld_push, if_pos rfl, List.length_append, List.length_singleton] at hcount
      obtain ⟨later, hreleases, hlater, hnow⟩ := hpushed.flushRules service.registry.entries
      have hclock' : (ledger.defer rule ⟨fresh, payload⟩ stop).clock = service.now := hclock
      rw [hclock'] at hreleases hlater
      rw [← hclock] at hactive hend
      refine ⟨later, ?_, hlater, hnow.trans hclock, rfl⟩
      rw [← hcount]
      exact .deferred hline hactive hwindow hend hreleases

/-! ### Transcripts -/

theorem Mirrors.explains (here : Zone) (service : Service) (lines : List (MatchId × String))
    (hm : ledger.Mirrors service.registry service.queue) (hclock : ledger.clock = service.now)
    (hnodup : (service.registry.entries.map Prod.fst).Nodup) :
    ledger.Explains here service.registry lines (service.transcript here lines) := by
  induction lines generalizing ledger service with
  | nil => exact .nil ledger
  | cons head rest ih =>
    obtain ⟨fresh, line⟩ := head
    unfold Service.transcript
    by_cases hdown : Service.BreaksDown here service.registry service.now line
    · rw [Service.respond?_of_breaksDown hdown]
      rw [← hclock] at hdown
      exact .brokenDown hdown
    · obtain ⟨replies, next, hanswer, hresponds⟩ := Service.exists_responds fresh hdown
      obtain ⟨later, hanswers, hlater, hnow, hregistry⟩ := hm.answers hclock hnodup hresponds
      rw [hanswer]
      rw [← hclock] at hdown
      rw [← hregistry] at hlater hnodup
      have hrest := ih _ hlater hnow hnodup
      rw [hregistry] at hrest
      exact .cons hdown hanswers hrest

end Ledger

/-- **The replies are a faithful log, as far as they go.** Whatever lines the service for an
accepted rule set is given, in any zone and from any start on, its replies are explained from an
empty ledger on: every line is answered as the ledger says, up to one that submits a match of a rule
whose window is read on clocks that cannot show the time. -/
theorem Service.explains_transcript {format : RuleSetFormat} {text : String}
    {policy : RuleSetPolicy} (hpolicy : RuleSetPolicy.ofText format text = .ok policy)
    (here : Zone) (now : Instant) (lines : List (MatchId × String)) :
    (Ledger.start now).Explains here (Registry.ofPolicy policy) lines
      ((ofPolicy policy now).transcript here lines) :=
  (Ledger.mirrors_start (Registry.ofPolicy policy) now).explains here (ofPolicy policy now) lines
    rfl (Registry.nodup_ofPolicy (RuleSetPolicy.nodup_of_ofText hpolicy))

/-- Two matches of a rule, with a status and two hours between them. -/
def Service.twoMatches : List (MatchId × String) :=
  [(⟨1⟩, "[\"match\",\"r\",7]"), (⟨2⟩, "[\"status\"]"), (⟨3⟩, "[\"advance\",2,\"h\"]"),
    (⟨4⟩, "[\"match\",\"r\",8]"), (⟨5⟩, "[\"status\"]")]

/-- A blackout from 14:30 until 16:15 on clocks fourteen hours ahead. A match that comes at 15:00
on July 1, 2025 is withheld, and two hours later it is released. On the last day of the calendar a
match that comes at 23:00 is delivered; two hours later the clocks cannot show the time, and neither
the match that comes then nor the status after it is answered. -/
theorem Service.explains_transcript_last_day :
    ∃ here policy afternoon evening, Zone.ofPosix? "<+14>-14" = some here ∧
      RuleSetPolicy.ofText .json "[null,[null,\"local\",[30,14],[15,16]],[[\"r\"]]]" =
        .ok policy ∧
      Instant.ofText? here "2025-07-01 15:00:00" = some afternoon ∧
      Instant.ofText? here "+262142-12-31 23:00:00" = some evening ∧
      ((ofPolicy policy afternoon).transcript here twoMatches).map (List.map Reply.description) =
        [["r deferred until 2025-07-01T16:15:00+14:00"], ["1 rules pending"],
          ["r released 1", "r delivered (released)"], ["r delivered"], ["0 rules pending"]] ∧
      (Ledger.start afternoon).Explains here (Registry.ofPolicy policy) twoMatches
        ((ofPolicy policy afternoon).transcript here twoMatches) ∧
      ((ofPolicy policy evening).transcript here twoMatches).map (List.map Reply.description) =
        [["r delivered"], ["0 rules pending"], []] ∧
      (Ledger.start evening).Explains here (Registry.ofPolicy policy) twoMatches
        ((ofPolicy policy evening).transcript here twoMatches) := by
  have hzone : Zone.ofPosix? "<+14>-14" = some ⟨50400, none⟩ := by decide +kernel
  have hafternoon : Instant.ofText? ⟨50400, none⟩ "2025-07-01 15:00:00" =
      some (.onDay (Date.mk 2025 7 1).dayNumber ⟨3600⟩) := by decide +kernel
  have hevening : Instant.ofText? ⟨50400, none⟩ "+262142-12-31 23:00:00" =
      some (.onDay (Date.mk 262142 12 31).dayNumber ⟨32400⟩) := by decide +kernel
  have hruns : (RuleSetPolicy.ofText .json
      "[null,[null,\"local\",[30,14],[15,16]],[[\"r\"]]]").toOption.map (fun policy =>
        (((ofPolicy policy (.onDay (Date.mk 2025 7 1).dayNumber ⟨3600⟩)).transcript ⟨50400, none⟩
            twoMatches).map (List.map Reply.description),
          ((ofPolicy policy (.onDay (Date.mk 262142 12 31).dayNumber ⟨32400⟩)).transcript
            ⟨50400, none⟩ twoMatches).map (List.map Reply.description))) =
      some ([["r deferred until 2025-07-01T16:15:00+14:00"], ["1 rules pending"],
          ["r released 1", "r delivered (released)"], ["r delivered"], ["0 rules pending"]],
        [["r delivered"], ["0 rules pending"], []]) := by decide +kernel
  cases hpolicy : RuleSetPolicy.ofText .json
      "[null,[null,\"local\",[30,14],[15,16]],[[\"r\"]]]" with
  | error e =>
    rw [hpolicy] at hruns
    cases hruns
  | ok policy =>
    rw [hpolicy] at hruns
    obtain ⟨hwithheld, hbroken⟩ := Prod.mk.inj (Option.some.inj hruns)
    exact ⟨_, policy, _, _, hzone, rfl, hafternoon, hevening, hwithheld,
      explains_transcript hpolicy _ _ _, hbroken, explains_transcript hpolicy _ _ _⟩

end Blackout
