import Blackout.Calendar.Zone.Posix
import Blackout.Proofs.Transcript

/-!
# Refused lines

A line that is refused is answered with one error and leaves the service as it was. No reply of a
line that is carried out is an error. Whatever a line is, the clock does not go back.

The one case without an answer is a match of a rule whose window is read on clocks that cannot show
the time.
-/

namespace Blackout

theorem Event.reply_ne_error (event : Event Submission) (message : String) :
    event.reply ≠ .error message := by
  cases event <;> exact Reply.noConfusion

theorem error_notMem_map_reply (events : List (Event Submission)) (message : String) :
    .error message ∉ events.map Event.reply := by
  intro hmem
  obtain ⟨event, -, heq⟩ := List.mem_map.mp hmem
  exact event.reply_ne_error message heq

namespace Service

variable {here : Zone} {fresh : MatchId} {service next : Service} {line : String}
  {replies : List Reply}

theorem Responds.refused_of_error (h : service.Responds here fresh line replies next)
    {message : String} (hmem : .error message ∈ replies) :
    replies = [.error message] ∧ next = service := by
  cases h with
  | @refused error hrefused =>
    cases List.mem_singleton.mp hmem
    exact ⟨rfl, rfl⟩
  | submitted hline hrouted =>
    rcases List.mem_cons.mp hmem with heq | hmem
    · exact absurd heq.symm (Event.reply_ne_error _ message)
    · exact absurd hmem (error_notMem_map_reply _ message)
  | moved hmoves => exact absurd hmem (error_notMem_map_reply _ message)
  | now hline => cases List.mem_singleton.mp hmem
  | status hline => cases List.mem_singleton.mp hmem

theorem Responds.le_now (h : service.Responds here fresh line replies next) :
    service.now ≤ next.now := by
  cases h with
  | refused hrefused => exact Reading.le_refl _
  | submitted hline hrouted => cases hrouted <;> exact Reading.le_refl _
  | moved hmoves =>
    cases hmoves with
    | advance hline hnext => exact Instant.le_of_advance hnext
    | advanceTo hline htime hle => exact hle
  | now hline => exact Reading.le_refl _
  | status hline => exact Reading.le_refl _

theorem breaksDown_iff {registry : Registry} {now : Instant} :
    BreaksDown here registry now line ↔
      ∃ rule payload window, Json.readString Command.read line = .ok (.submit rule payload) ∧
        registry.get? rule = some window ∧ (window.mode.zone here).shows now = false := by
  constructor
  · rintro ⟨command, hline, hdown⟩
    cases command with
    | submit rule payload =>
      obtain ⟨window, hwindow, hdark⟩ := hdown
      exact ⟨rule, payload, window, hline, hwindow, hdark⟩
    | _ => cases hdown
  · rintro ⟨rule, payload, window, hline, hwindow, hdark⟩
    exact ⟨.submit rule payload, hline, window, hwindow, hdark⟩

/-- **A refused line changes nothing.** A service in any state answers every line, except one that
submits a match of a rule whose window is read on clocks that cannot show the time. If an error is
among the replies it is the only one, and the service is as before. The clock does not go back. -/
theorem respond?_refused (here : Zone) (fresh : MatchId) (service : Service) (line : String) :
    (service.respond? here fresh line = none ↔
      ∃ rule payload window, Json.readString Command.read line = .ok (.submit rule payload) ∧
        service.registry.get? rule = some window ∧
        ¬ (Calendar.firstDay ≤ ((window.mode.zone here).wallClock service.now).day ∧
          ((window.mode.zone here).wallClock service.now).day ≤ Calendar.lastDay)) ∧
    ∀ replies next, service.respond? here fresh line = some (replies, next) →
      (∀ message, .error message ∈ replies → replies = [.error message] ∧ next = service) ∧
      service.now ≤ next.now := by
  constructor
  · rw [respond?_eq_none_iff, breaksDown_iff]
    simp only [← Bool.not_eq_true, Zone.shows_iff]
    rfl
  · intro replies next h
    have hresponds := responds_of_respond? h
    exact ⟨fun message hmem => hresponds.refused_of_error hmem, hresponds.le_now⟩

/-- A window from 14:30 until 16:15 on clocks fourteen hours ahead, and a service that starts at
23:00 of the last day of the calendar. An hour later its clocks cannot show the time, and the match
that comes then brings it down. -/
theorem respond?_after_last_day :
    ∃ here policy start service, Zone.ofPosix? "<+14>-14" = some here ∧
      RuleSetPolicy.ofText .json "[null,[null,\"local\",[30,14],[15,16]],[[\"r\"]]]" =
        .ok policy ∧
      Instant.ofText? here "+262142-12-31 23:00:00" = some start ∧
      (ofPolicy policy start).respond? here ⟨1⟩ "[\"advance\",1,\"h\"]" = some ([], service) ∧
      service.respond? here ⟨2⟩ "[\"match\",\"r\",7]" = none ∧
      ∃ rule payload window,
        Json.readString Command.read "[\"match\",\"r\",7]" = .ok (.submit rule payload) ∧
        service.registry.get? rule = some window ∧
        ¬ (Calendar.firstDay ≤ ((window.mode.zone here).wallClock service.now).day ∧
          ((window.mode.zone here).wallClock service.now).day ≤ Calendar.lastDay) := by
  have hzone : Zone.ofPosix? "<+14>-14" = some ⟨50400, none⟩ := by decide +kernel
  have hstart : Instant.ofText? ⟨50400, none⟩ "+262142-12-31 23:00:00" =
      some ⟨8210266822800, 0⟩ := by decide +kernel
  have hrun : ((RuleSetPolicy.ofText .json
      "[null,[null,\"local\",[30,14],[15,16]],[[\"r\"]]]").toOption.bind fun policy =>
        ((ofPolicy policy ⟨8210266822800, 0⟩).respond? ⟨50400, none⟩ ⟨1⟩
          "[\"advance\",1,\"h\"]").map fun (replies, service) =>
            (replies.isEmpty,
              (service.respond? ⟨50400, none⟩ ⟨2⟩ "[\"match\",\"r\",7]").isNone)) =
      some (true, true) := by decide +kernel
  obtain ⟨policy, hpolicy, hrun⟩ := Option.bind_eq_some_iff.mp hrun
  obtain ⟨⟨replies, service⟩, hanswer, hrun⟩ := Option.map_eq_some_iff.mp hrun
  obtain ⟨hnothing, hdown⟩ := Prod.mk.inj hrun
  rw [List.isEmpty_iff.mp hnothing] at hanswer
  have hnone : service.respond? ⟨50400, none⟩ ⟨2⟩ "[\"match\",\"r\",7]" = none :=
    Option.isNone_iff_eq_none.mp hdown
  refine ⟨_, policy, _, service, hzone, ?_, hstart, hanswer, hnone,
    (respond?_refused _ _ _ _).1.mp hnone⟩
  cases hread : RuleSetPolicy.ofText .json "[null,[null,\"local\",[30,14],[15,16]],[[\"r\"]]]" with
  | error e =>
    rw [hread] at hpolicy
    cases hpolicy
  | ok read =>
    rw [hread] at hpolicy
    exact congrArg Except.ok (Option.some.inj hpolicy)

end Service

end Blackout
