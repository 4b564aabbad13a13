import Blackout.Proofs.History

/-!
# Rules do not interfere

All rules share one queue, and a flush goes through all of them. Still, what a rule has in the queue
and what it is told depends on the flushes and on its own deferrals only: the deferrals of other
rules can be left out of the calls, put in or changed, and the rule does not notice.
-/

namespace Blackout.Queue

variable {α : Type} {here : Zone} {registry : Registry} {queue other : Queue α} {rule : String}
  {now : Instant} {call : Call α}

/-! ### What a rule is told -/

/-- The call is a flush, or defers a match of the rule. -/
def Call.concerns (rule : String) : Call α → Bool
  | .defer name _ _ => decide (name = rule)
  | .flush _ => true

/-- What an answer says of a rule. The answer to a flush says what is released of the rule. -/
def Answer.of (rule : String) : Answer α → Answer α
  | .deferred stop => .deferred stop
  | .refused failure => .refused failure
  | .released releases => .released (releases.filter fun release => release.rule = rule)

/-- The calls of a history that concern a rule, and what the rule is told of their answers. -/
def told (rule : String) (steps : List (Step α)) : List (Call α × Answer α) :=
  (steps.filter fun step => step.call.concerns rule).map fun step =>
    (step.call, step.answer.of rule)

/-! ### Queues with the same entry for a rule -/

theorem withheld_congr (h : queue.get? rule = other.get? rule) :
    queue.withheld rule = other.withheld rule := by
  unfold withheld
  rw [h]

theorem pendingCount_congr (h : queue.get? rule = other.get? rule) :
    queue.pendingCount rule = other.pendingCount rule := by
  unfold pendingCount
  rw [h]

theorem due_congr (h : queue.get? rule = other.get? rule) :
    queue.Due now rule ↔ other.Due now rule := by
  unfold Due
  rw [h]

theorem releaseOf?_congr (h : queue.get? rule = other.get? rule) :
    queue.releaseOf? now rule = other.releaseOf? now rule := by
  funext window
  unfold releaseOf?
  rw [h]

theorem filter_pendingRules_congr (registry : Registry) (h : queue.get? rule = other.get? rule) :
    (queue.pendingRules registry).filter (fun pending => pending.rule = rule) =
      (other.pendingRules registry).filter fun pending => pending.rule = rule := by
  unfold pendingRules
  rw [List.filter_filterMap, List.filter_filterMap]
  refine List.filterMap_congr fun listed _ => ?_
  obtain ⟨name, window⟩ := listed
  dsimp only
  by_cases hname : name = rule
  · rw [hname, h]
  · -- neither queue lists another rule under this name
    have hnone : ∀ q : Queue α, ((q.get? name).map fun entry =>
        (⟨name, entry.matches_.length, entry.stop⟩ : PendingRule)).filter
          (fun pending => pending.rule = rule) = none := by
      intro q
      cases q.get? name <;> simp [hname]
    rw [hnone, hnone]

/-! ### One call -/

theorem call_step (here : Zone) (registry : Registry) (queue : Queue α) (call : Call α) :
    (queue.step here registry call).call = call := by
  cases call with
  | defer name token now =>
    unfold step
    dsimp only
    split <;> rfl
  | flush now => rfl

/-- A deferral of another rule leaves the rule's entry alone. -/
theorem get?_step_of_not_concerns (here : Zone) (registry : Registry) (queue : Queue α)
    (h : call.concerns rule = false) :
    (queue.step here registry call).after.get? rule = queue.get? rule := by
  cases call with
  | defer name token now =>
    have hne : rule ≠ name := Ne.symm (of_decide_eq_false h)
    unfold step
    dsimp only
    split
    · next stop later hdefer =>
      obtain ⟨-, -, -, rfl⟩ := defer_eq_ok hdefer
      exact (get?_push ..).trans (if_neg hne)
    · rfl
  | flush now => cases h

/-- A deferral is answered from the registry alone. -/
theorem step_defer (here : Zone) (registry : Registry) (queue : Queue α) (name : String)
    (token : α) (now : Instant) :
    queue.step here registry (.defer name token now) =
      match empty.defer here registry name token now with
      | .ok (stop, _) => .withholds queue name token now stop
      | .error e => ⟨queue, .defer name token now, .refused e, queue⟩ := by
  unfold step defer
  dsimp only
  cases registry.get? name with
  | none => rfl
  | some window =>
    dsimp only
    cases window.nextEnd here now <;> rfl

/-- A call that concerns the rule tells it the same of two queues with the same entry for it, and
leaves the same entry in them. -/
theorem step_congr (here : Zone) (registry : Registry) (h : queue.get? rule = other.get? rule)
    (hcall : call.concerns rule = true) :
    (queue.step here registry call).answer.of rule =
        (other.step here registry call).answer.of rule ∧
      (queue.step here registry call).after.get? rule =
        (other.step here registry call).after.get? rule := by
  cases call with
  | defer name token now =>
    have hname : name = rule := of_decide_eq_true hcall
    subst hname
    rw [step_defer, step_defer here registry other]
    split
    · next stop _ _ =>
      refine ⟨rfl, ?_⟩
      show (queue.push name token stop).get? name = (other.push name token stop).get? name
      rw [get?_push, get?_push, withheld_congr h, if_pos rfl, if_pos rfl]
    · exact ⟨rfl, h⟩
  | flush now =>
    constructor
    · show Answer.released ((queue.flush registry now).1.filter _) =
        Answer.released ((other.flush registry now).1.filter _)
      unfold flush
      rw [filter_flushRules, filter_flushRules, releaseOf?_congr h]
    · show (queue.flush registry now).2.get? rule = (other.flush registry now).2.get? rule
      unfold flush
      rw [get?_flushRules, get?_flushRules, h]
      exact if_congr (and_congr_right fun _ => due_congr h) rfl rfl

/-! ### Calls one after another -/

theorem history_cons (queue : Queue α) (call : Call α) (rest : List (Call α)) :
    queue.history here registry (call :: rest) =
      queue.step here registry call ::
        (queue.step here registry call).after.history here registry rest := rfl

theorem told_cons_of_concerns {step : Step α} {steps : List (Step α)}
    (h : step.call.concerns rule = true) :
    told rule (step :: steps) = (step.call, step.answer.of rule) :: told rule steps := by
  unfold told
  rw [List.filter_cons_of_pos (by exact h), List.map_cons]

theorem told_cons_of_not_concerns {step : Step α} {steps : List (Step α)}
    (h : ¬ step.call.concerns rule = true) : told rule (step :: steps) = told rule steps := by
  unfold told
  rw [List.filter_cons_of_neg (by exact h)]

theorem map_call_history (here : Zone) (registry : Registry) (queue : Queue α)
    (calls : List (Call α)) : (queue.history here registry calls).map Step.call = calls := by
  induction calls generalizing queue with
  | nil => rfl
  | cons call rest ih => rw [history_cons, List.map_cons, call_step, ih]

/-- Every call that concerns the rule is answered, in the order of the calls. -/
theorem map_fst_told (here : Zone) (registry : Registry) (queue : Queue α) (rule : String)
    (calls : List (Call α)) :
    (told rule (queue.history here registry calls)).map Prod.fst =
      calls.filter (Call.concerns rule) := by
  have hcalls := congrArg (List.filter (Call.concerns rule))
    (map_call_history here registry queue calls)
  rw [List.filter_map] at hcalls
  unfold told
  rw [List.map_map]
  exact hcalls

/-- Leaving out the deferrals of other rules changes nothing for the rule. -/
theorem history_filter (here : Zone) (registry : Registry) (calls : List (Call α))
    (h : queue.get? rule = other.get? rule) :
    told rule (queue.history here registry calls) =
        told rule (other.history here registry (calls.filter (Call.concerns rule))) ∧
      (queue.after here registry calls).get? rule =
        (other.after here registry (calls.filter (Call.concerns rule))).get? rule := by
  induction calls generalizing queue other with
  | nil => exact ⟨rfl, h⟩
  | cons call rest ih =>
    have hconcerns := fun q => congrArg (Call.concerns rule) (call_step here registry q call)
    by_cases hcall : call.concerns rule = true
    · obtain ⟨hanswer, hentry⟩ := step_congr here registry h hcall
      obtain ⟨htold, hafter⟩ := ih hentry
      rw [List.filter_cons_of_pos hcall, history_cons, history_cons,
        told_cons_of_concerns ((hconcerns queue).trans hcall),
        told_cons_of_concerns ((hconcerns other).trans hcall), call_step, call_step, hanswer, htold]
      exact ⟨rfl, hafter⟩
    · have hkept := get?_step_of_not_concerns here registry queue (Bool.not_eq_true _ ▸ hcall)
      obtain ⟨htold, hafter⟩ := ih (hkept.trans h)
      rw [List.filter_cons_of_neg hcall, history_cons,
        told_cons_of_not_concerns ((hconcerns queue).symm ▸ hcall), htold]
      exact ⟨rfl, hafter⟩

/-- **Rules do not interfere.** Take two sequences of calls on an empty queue that differ in the
deferrals of other rules only. A rule has the same entry after both, with the same count, and is
listed alike. Each of its deferrals and each flush are answered, and both times the rule is told the
same: the end or the error of a deferral, and what a flush releases of the rule. -/
theorem told_eq_of_filter_eq (here : Zone) (registry : Registry) (rule : String)
    {calls calls' : List (Call α)}
    (hcalls : calls.filter (Call.concerns rule) = calls'.filter (Call.concerns rule)) :
    (empty.after here registry calls).get? rule = (empty.after here registry calls').get? rule ∧
    (empty.after here registry calls).pendingCount rule =
      (empty.after here registry calls').pendingCount rule ∧
    ((empty.after here registry calls).pendingRules registry).filter
        (fun pending => pending.rule = rule) =
      ((empty.after here registry calls').pendingRules registry).filter
        (fun pending => pending.rule = rule) ∧
    told rule (empty.history here registry calls) =
      told rule (empty.history here registry calls') ∧
    (told rule (empty.history here registry calls)).map Prod.fst =
      calls.filter (Call.concerns rule) := by
  have hsame : (empty : Queue α).get? rule = (empty : Queue α).get? rule := rfl
  obtain ⟨htold, hentry⟩ := history_filter here registry calls hsame
  obtain ⟨htold', hentry'⟩ := history_filter here registry calls' hsame
  rw [hcalls, ← hentry'] at hentry
  rw [hcalls, ← htold'] at htold
  exact ⟨hentry, pendingCount_congr hentry, filter_pendingRules_congr registry hentry, htold,
    map_fst_told here registry empty rule calls⟩

/-- Two matches of `r` come in an afternoon, and one the next morning. They are told the same ends,
and the last of the two is released, whether or not matches of `s` and of an unknown rule come in
between. -/
theorem told_eq_of_filter_eq_afternoon :
    ∃ (registry : Registry) (alone among : List (Call Nat)) (stop next : OffsetTime),
      registry = .pushAll .empty
        [("s", .afternoon), ("r", { Window.afternoon with trigger := .last })] ∧
      alone = [.defer "r" 7 (.onDay 0 ⟨54000⟩), .defer "r" 8 (.onDay 0 ⟨55800⟩),
        .flush (.onDay 0 ⟨58500⟩), .flush (.onDay 0 ⟨58501⟩), .defer "r" 9 (.onDay 1 ⟨36000⟩)] ∧
      among = [.defer "s" 1 (.onDay 0 ⟨54000⟩), .defer "r" 7 (.onDay 0 ⟨54000⟩),
        .defer "r" 8 (.onDay 0 ⟨55800⟩), .defer "u" 2 (.onDay 0 ⟨55800⟩),
        .flush (.onDay 0 ⟨58500⟩), .flush (.onDay 0 ⟨58501⟩), .defer "s" 3 (.onDay 1 ⟨36000⟩),
        .defer "r" 9 (.onDay 1 ⟨36000⟩)] ∧
      alone.filter (Call.concerns "r") = among.filter (Call.concerns "r") ∧
      (empty.after .universal registry alone).withheld "s" = [] ∧
      (empty.after .universal registry among).withheld "s" = [3] ∧
      (empty.after .universal registry alone).get? "r" = some ⟨next, [9]⟩ ∧
      (empty.after .universal registry among).get? "r" = some ⟨next, [9]⟩ ∧
      (told "r" (empty.history .universal registry among)).map Prod.snd =
        [.deferred stop, .deferred stop, .released [], .released [⟨"r", [8]⟩], .deferred next] ∧
      told "r" (empty.history .universal registry alone) =
        told "r" (empty.history .universal registry among) := by
  obtain ⟨hentry, -, -, htold, -⟩ := told_eq_of_filter_eq (α := Nat) .universal
    (.pushAll .empty [("s", .afternoon), ("r", { Window.afternoon with trigger := .last })]) "r"
    (show [.defer "r" 7 (.onDay 0 ⟨54000⟩), .defer "r" 8 (.onDay 0 ⟨55800⟩),
        .flush (.onDay 0 ⟨58500⟩), .flush (.onDay 0 ⟨58501⟩),
        .defer "r" 9 (.onDay 1 ⟨36000⟩)].filter (Call.concerns "r") =
      [.defer "s" 1 (.onDay 0 ⟨54000⟩), .defer "r" 7 (.onDay 0 ⟨54000⟩),
        .defer "r" 8 (.onDay 0 ⟨55800⟩), .defer "u" 2 (.onDay 0 ⟨55800⟩),
        .flush (.onDay 0 ⟨58500⟩), .flush (.onDay 0 ⟨58501⟩), .defer "s" 3 (.onDay 1 ⟨36000⟩),
        .defer "r" 9 (.onDay 1 ⟨36000⟩)].filter (Call.concerns "r") from rfl)
  exact ⟨_, _, _, _, _, rfl, rfl, rfl, rfl, rfl, rfl, rfl, hentry.symm, rfl, htold⟩

end Blackout.Queue
