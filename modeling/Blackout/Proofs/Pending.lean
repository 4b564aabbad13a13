import Blackout.Proofs.Refusal
import Blackout.Proofs.Registry
import Blackout.Proofs.SavingTime

/-!
# What is pending

A flush goes through the rules that the registry lists, and so does a status line. An entry of any
other rule would stay for ever and never be told. There is none: the queue of a service has one
entry at most for a rule, and only entries with matches of rules whose window the registry has.

After a line that is answered, no entry waits for an end that is past. Where clocks are turned back
the next end can be past when a match comes; the line that withholds the match then releases it.
-/

namespace Blackout

variable {α : Type}

/-! ### Entries of a queue -/

namespace Queue

variable {registry : Registry} {queue : Queue α} {rule : String} {entry : Withheld α}
  {window : Window} {now : Instant}

/-- One entry at most for a rule; every entry has matches, and a window that it waits for. -/
structure Tidy (registry : Registry) (queue : Queue α) : Prop where
  once : (queue.entries.map Prod.fst).Nodup
  held : ∀ listed ∈ queue.entries, listed.2.matches_ ≠ []
  listed : ∀ listed ∈ queue.entries, ∃ window, registry.get? listed.1 = some window

theorem tidy_empty (registry : Registry) : (empty : Queue α).Tidy registry where
  once := List.nodup_nil
  held _ h := nomatch h
  listed _ h := nomatch h

namespace Tidy

theorem of_sublist (ht : queue.Tidy registry) {later : Queue α}
    (hsub : later.entries.Sublist queue.entries) : later.Tidy registry where
  once := ht.once.sublist (hsub.map Prod.fst)
  held listed h := ht.held listed (hsub.subset h)
  listed listed h := ht.listed listed (hsub.subset h)

theorem get?_eq_some_iff (ht : queue.Tidy registry) :
    queue.get? rule = some entry ↔ (rule, entry) ∈ queue.entries :=
  lookup_eq_some_iff_mem ht.once

theorem push (ht : queue.Tidy registry) (hwindow : registry.get? rule = some window) (token : α)
    (stop : OffsetTime) : (queue.push rule token stop).Tidy registry := by
  have hrest : (queue.erase rule).Tidy registry := ht.of_sublist List.filter_sublist
  refine ⟨?_, ?_, ?_⟩
  · refine List.nodup_cons.mpr ⟨fun hmem => ?_, hrest.once⟩
    -- an entry that was there for the rule has been taken out
    obtain ⟨listed, hlisted, hname⟩ := List.mem_map.mp hmem
    exact bne_iff_ne.mp (List.mem_filter.mp hlisted).2 hname
  · refine List.forall_mem_cons.mpr ⟨?_, hrest.held⟩
    exact List.append_ne_nil_of_right_ne_nil _ (List.cons_ne_nil _ _)
  · exact List.forall_mem_cons.mpr ⟨⟨window, hwindow⟩, hrest.listed⟩

theorem flush (ht : queue.Tidy registry) (now : Instant) :
    (queue.flush registry now).2.Tidy registry := by
  apply ht.of_sublist
  unfold Queue.flush
  rw [entries_flushRules]
  exact List.filter_sublist

theorem ahead_flush (ht : queue.Tidy registry) :
    ∀ listed ∈ (queue.flush registry now).2.entries, now ≤ listed.2.stop.instant := by
  intro listed hlisted
  unfold Queue.flush at hlisted
  rw [entries_flushRules, List.mem_filter, decide_eq_true_iff] at hlisted
  obtain ⟨hmem, hkept⟩ := hlisted
  obtain ⟨window, hwindow⟩ := ht.listed listed hmem
  refine Reading.not_lt.mp fun hpassed => hkept ⟨?_, listed.2, ?_, hpassed⟩
  · exact List.mem_map_of_mem (Registry.mem_of_get? hwindow)
  · exact ht.get?_eq_some_iff.mpr hmem

theorem mem_pendingRules_iff (ht : queue.Tidy registry) {p : PendingRule} :
    p ∈ queue.pendingRules registry ↔
      ∃ rule entry, (rule, entry) ∈ queue.entries ∧
        p = ⟨rule, entry.matches_.length, entry.stop⟩ := by
  rw [Queue.mem_pendingRules_iff]
  constructor
  · rintro ⟨-, entry, hentry, hcount, hstop⟩
    refine ⟨p.rule, entry, ht.get?_eq_some_iff.mp hentry, ?_⟩
    rw [← hcount, ← hstop]
  · rintro ⟨rule, entry, hmem, rfl⟩
    obtain ⟨window, hwindow⟩ := ht.listed _ hmem
    exact ⟨List.mem_map_of_mem (Registry.mem_of_get? hwindow), entry,
      ht.get?_eq_some_iff.mpr hmem, rfl, rfl⟩

end Tidy

end Queue

/-! ### Sessions -/

namespace Session

variable {here : Zone} {session next : Session α} {rule : String} {token : α} {event : Event α}

/-- The queue is tidy, and none of its entries waits for an end that is past. -/
structure Settled (session : Session α) : Prop where
  tidy : session.queue.Tidy session.registry
  ahead : ∀ listed ∈ session.queue.entries, session.now ≤ listed.2.stop.instant

theorem settled_start (registry : Registry) (now : Instant) :
    (start registry now : Session α).Settled where
  tidy := Queue.tidy_empty registry
  ahead _ h := nomatch h

theorem settled_flush (ht : session.queue.Tidy session.registry) : session.flush.2.Settled where
  tidy := ht.flush session.now
  ahead := ht.ahead_flush

theorem Routed.tidy (h : session.Routed here rule token event next)
    (ht : session.queue.Tidy session.registry) : next.queue.Tidy next.registry := by
  cases h with
  | delivered => exact ht
  | deferred hactive hwindow hend => exact ht.push hwindow token _

end Session

/-! ### Lines -/

namespace Service

variable {here : Zone} {fresh : MatchId} {service next : Service} {line : String}
  {replies : List Reply}

theorem Responds.settled (h : service.Responds here fresh line replies next)
    (hs : service.Settled) : next.Settled := by
  cases h with
  | refused hrefused => exact hs
  | submitted hline hrouted => exact Session.settled_flush (hrouted.tidy hs.tidy)
  | moved hmoves => exact Session.settled_flush hs.tidy
  | now hline => exact hs
  | status hline => exact hs

theorem Responds.registry_eq (h : service.Responds here fresh line replies next) :
    next.registry = service.registry := by
  cases h with
  | submitted hline hrouted => cases hrouted <;> rfl
  | _ => rfl

/-- Service after lines in turn, each with the identifier for what it submits, unless one of them
brings it down. -/
def after? (here : Zone) (service : Service) (lines : List (MatchId × String)) : Option Service :=
  lines.foldlM (fun service line => (service.respond? here line.1 line.2).map Prod.snd) service

theorem after?_keeps {P : Service → Prop}
    (hstep : ∀ {service fresh line replies next}, P service →
      Responds here fresh service line replies next → P next)
    (hstart : P service) {lines : List (MatchId × String)}
    (h : service.after? here lines = some next) : P next := by
  induction lines generalizing service with
  | nil =>
    cases h
    exact hstart
  | cons line rest ih =>
    unfold after? at h
    rw [List.foldlM_cons] at h
    obtain ⟨middle, hfirst, hrest⟩ := Option.bind_eq_some_iff.mp h
    obtain ⟨⟨replies, _⟩, hanswer, rfl⟩ := Option.map_eq_some_iff.mp hfirst
    exact ih (hstep hstart (responds_of_respond? hanswer)) hrest

theorem respond?_status (here : Zone) (fresh : MatchId) (service : Service)
    (hline : Json.readString Command.read line = .ok .status) :
    service.respond? here fresh line =
      some ([.status (OffsetTime.universal service.now).rfc3339
        (service.pendingRules.map PendingRule.status)], service) := by
  rw [respond?_of_read hline]
  rfl

end Service

theorem Registry.exists_rule_of_get? {policy : RuleSetPolicy} {rule : String} {window : Window}
    (h : (ofPolicy policy).get? rule = some window) :
    ∃ r ∈ policy.enabledRules, r.name = rule ∧ r.window = some window := by
  have hmem := mem_of_get? h
  rw [entries_ofPolicy] at hmem
  obtain ⟨r, hr, hlisted⟩ := List.mem_filterMap.mp hmem
  obtain ⟨own, hown, heq⟩ := Option.map_eq_some_iff.mp hlisted
  cases heq
  exact ⟨r, hr, rfl, hown⟩

/-- **Nothing pending is lost from sight.** When the service for an accepted rule set has answered
any lines, in any zone and from any start on, every entry of its queue is of an enabled rule whose
window the registry has, holds matches, and waits for an end that is not past. A status line is then
answered with exactly these entries: none is left out, none has no matches, and none has an end in
the past. -/
theorem Service.status_tells_all {format : RuleSetFormat} {text : String} {policy : RuleSetPolicy}
    (hpolicy : RuleSetPolicy.ofText format text = .ok policy) (here : Zone) (now : Instant)
    {lines : List (MatchId × String)} {service : Service}
    (hrun : (ofPolicy policy now).after? here lines = some service) :
    (∀ rule entry, (rule, entry) ∈ service.queue.entries →
      (∃ r ∈ policy.enabledRules, ∃ window, r.name = rule ∧ r.window = some window ∧
        service.registry.get? rule = some window) ∧
      entry.matches_ ≠ [] ∧ service.now ≤ entry.stop.instant) ∧
    ∀ fresh line, Json.readString Command.read line = .ok .status →
      ∃ pending, service.respond? here fresh line =
          some ([.status (OffsetTime.universal service.now).rfc3339 pending], service) ∧
        (pending.map PendingStatus.rule).Nodup ∧
        (∀ p, p ∈ pending ↔ ∃ rule entry, (rule, entry) ∈ service.queue.entries ∧
          p = ⟨rule, entry.matches_.length, entry.stop.rfc3339⟩) ∧
        ∀ p ∈ pending, 1 ≤ p.count ∧
          ∃ stop : OffsetTime, p.stop = stop.rfc3339 ∧ service.now ≤ stop.instant := by
  obtain ⟨hs, hregistry⟩ :
      service.Settled ∧ service.registry = Registry.ofPolicy policy :=
    after?_keeps (P := fun s => s.Settled ∧ s.registry = Registry.ofPolicy policy)
      (fun h hresponds => ⟨hresponds.settled h.1, hresponds.registry_eq.trans h.2⟩)
      ⟨Session.settled_start _ _, rfl⟩ hrun
  have htold : ∀ p, p ∈ service.pendingRules.map PendingRule.status ↔
      ∃ rule entry, (rule, entry) ∈ service.queue.entries ∧
        p = ⟨rule, entry.matches_.length, entry.stop.rfc3339⟩ := by
    intro p
    rw [List.mem_map]
    constructor
    · rintro ⟨pending, hpending, rfl⟩
      obtain ⟨rule, entry, hmem, rfl⟩ := hs.tidy.mem_pendingRules_iff.mp hpending
      exact ⟨rule, entry, hmem, rfl⟩
    · rintro ⟨rule, entry, hmem, rfl⟩
      exact ⟨_, hs.tidy.mem_pendingRules_iff.mpr ⟨rule, entry, hmem, rfl⟩, rfl⟩
  constructor
  · intro rule entry hmem
    obtain ⟨window, hwindow⟩ := hs.tidy.listed _ hmem
    obtain ⟨r, hr, hname, hown⟩ := Registry.exists_rule_of_get? (hregistry ▸ hwindow)
    exact ⟨⟨r, hr, window, hname, hown, hwindow⟩, hs.tidy.held _ hmem, hs.ahead _ hmem⟩
  · intro fresh line hline
    refine ⟨_, respond?_status here fresh service hline, ?_, htold, ?_⟩
    · have hnodup := Registry.nodup_ofPolicy (RuleSetPolicy.nodup_of_ofText hpolicy)
      rw [← hregistry] at hnodup
      rw [List.map_map]
      exact hnodup.sublist (Queue.map_rule_pendingRules_sublist _ _)
    · intro p hp
      obtain ⟨rule, entry, hmem, rfl⟩ := (htold p).mp hp
      exact ⟨List.length_pos_iff.mpr (hs.tidy.held _ hmem), entry.stop, rfl, hs.ahead _ hmem⟩

instance (outcome : Except Json.ReadError Command) : Decidable (outcome = .ok .status) :=
  match outcome with
  | .ok .status => .isTrue rfl
  | .ok (.submit ..) | .ok (.advance ..) | .ok (.advanceTo ..) | .ok .now => .isFalse nofun
  | .error _ => .isFalse nofun

/-- Clocks are turned back while a rule's local window from 01:00 until 02:30 lasts. A match that
comes in the second pass is withheld until an end that is past, so the same line releases it. The
match of another rule waits for 06:00, and the status tells of that one alone. -/
theorem Service.status_tells_all_after_fold :
    ∃ policy service pending, RuleSetPolicy.ofText .json
        "[null,null,[[\"r\",[null,\"local\",[0,1],[30,2]]],[\"s\",[null,null,[0,0],[0,6]]]]]" =
          .ok policy ∧
      (ofPolicy policy (.onDay (Date.mk 2025 10 26).dayNumber ⟨4500⟩)).after? .centralEurope
        [(⟨1⟩, "[\"match\",\"r\",7]"), (⟨2⟩, "[\"match\",\"s\",8]")] = some service ∧
      Json.readString Command.read "[\"status\"]" = .ok .status ∧
      service.queue.entries.map (fun listed => (listed.1, listed.2.matches_.length)) = [("s", 1)] ∧
      service.respond? .centralEurope ⟨3⟩ "[\"status\"]" =
        some ([.status (OffsetTime.universal service.now).rfc3339 pending], service) ∧
      pending = [⟨"s", 1, "2025-10-26T06:00:00+00:00"⟩] ∧
      (pending.map PendingStatus.rule).Nodup ∧
      ∀ p ∈ pending, 1 ≤ p.count ∧
        ∃ stop : OffsetTime, p.stop = stop.rfc3339 ∧ service.now ≤ stop.instant := by
  have hline : Json.readString Command.read "[\"status\"]" = .ok .status := by decide +kernel
  have hrun : ((RuleSetPolicy.ofText .json
      "[null,null,[[\"r\",[null,\"local\",[0,1],[30,2]]],[\"s\",[null,null,[0,0],[0,6]]]]]"
        ).toOption.bind fun policy =>
          ((ofPolicy policy (.onDay (Date.mk 2025 10 26).dayNumber ⟨4500⟩)).after? .centralEurope
            [(⟨1⟩, "[\"match\",\"r\",7]"), (⟨2⟩, "[\"match\",\"s\",8]")]).map fun service =>
              (service.queue.entries.map fun listed => (listed.1, listed.2.matches_.length),
                service.pendingRules.map PendingRule.status)) =
      some ([("s", 1)], [⟨"s", 1, "2025-10-26T06:00:00+00:00"⟩]) := by decide +kernel
  obtain ⟨policy, hpolicy, hrun⟩ := Option.bind_eq_some_iff.mp hrun
  obtain ⟨service, hservice, hrun⟩ := Option.map_eq_some_iff.mp hrun
  obtain ⟨hentries, hpending⟩ := Prod.mk.inj hrun
  cases hread : RuleSetPolicy.ofText .json
      "[null,null,[[\"r\",[null,\"local\",[0,1],[30,2]]],[\"s\",[null,null,[0,0],[0,6]]]]]" with
  | error e =>
    rw [hread] at hpolicy
    cases hpolicy
  | ok read =>
    rw [hread] at hpolicy
    cases hpolicy
    obtain ⟨pending, hanswer, hnodup, -, hshown⟩ :=
      (status_tells_all hread _ _ hservice).2 ⟨3⟩ _ hline
    cases (respond?_status _ _ _ hline).symm.trans hanswer
    exact ⟨_, _, _, rfl, hservice, hline, hentries, hanswer, hpending, hnodup, hshown⟩

end Blackout
