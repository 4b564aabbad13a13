import Blackout.Proofs.Withholding

/-!
# Histories of the queue

Clients of a queue defer matches and flush it, in any order and at any instants, since the queue
knows no clock. The history of a queue has every call with its answer.

What was deferred for a rule is accounted for at any time: in the batches that flushes have taken
out, one after another, and in what is withheld still. Each batch was released as its trigger
selects.
-/

namespace Blackout.Queue

variable {α : Type}

/-! ### Calls -/

inductive Call (α : Type) where
  | defer (rule : String) (token : α) (now : Instant)
  | flush (now : Instant)

inductive Answer (α : Type) where
  | deferred (stop : OffsetTime)
  | refused (failure : Failure SessionError)
  | released (releases : List (Release α))

/-- A call with its answer, and the queue before and after it. -/
structure Step (α : Type) where
  before : Queue α
  call : Call α
  answer : Answer α
  after : Queue α

def step (here : Zone) (registry : Registry) (queue : Queue α) (call : Call α) : Step α :=
  match call with
  | .defer rule token now =>
    match queue.defer here registry rule token now with
    | .ok (stop, later) => ⟨queue, call, .deferred stop, later⟩
    | .error e => ⟨queue, call, .refused e, queue⟩
  | .flush now =>
    let (releases, later) := queue.flush registry now
    ⟨queue, call, .released releases, later⟩

def history (here : Zone) (registry : Registry) : Queue α → List (Call α) → List (Step α)
  | _, [] => []
  | queue, call :: rest =>
    queue.step here registry call :: history here registry (queue.step here registry call).after rest

/-- Queue after calls, whether they are answered or refused. -/
def after (here : Zone) (registry : Registry) (queue : Queue α) (calls : List (Call α)) : Queue α :=
  calls.foldl (fun queue call => (queue.step here registry call).after) queue

/-- The step of a deferral that withholds its match until `stop`. -/
def Step.withholds (queue : Queue α) (rule : String) (token : α) (now : Instant)
    (stop : OffsetTime) : Step α :=
  ⟨queue, .defer rule token now, .deferred stop, queue.push rule token stop⟩

def Step.flushes (registry : Registry) (queue : Queue α) (now : Instant) : Step α :=
  ⟨queue, .flush now, .released (queue.flush registry now).1, (queue.flush registry now).2⟩

/-- The match of a rule that a step withholds, and the end that it sets. -/
def Step.deferral? (rule : String) (step : Step α) : Option (α × OffsetTime) :=
  match step.call, step.answer with
  | .defer name token _, .deferred stop => if name = rule then some (token, stop) else none
  | _, _ => none

/-- The step takes the entry of a rule out of the queue. -/
def Step.removes (rule : String) (step : Step α) : Bool :=
  step.before.hasPending rule && !step.after.hasPending rule

def deferrals (rule : String) (steps : List (Step α)) : List (α × OffsetTime) :=
  steps.filterMap (Step.deferral? rule)

def removals (rule : String) (steps : List (Step α)) : List (Step α) :=
  steps.filter (Step.removes rule)

variable {here : Zone} {registry : Registry} {queue : Queue α} {rule : String}
  {steps : List (Step α)} {now : Instant}

/-- What a call comes to: a match is withheld until the next end of its rule's window, or nothing
is changed, or the queue is flushed. -/
theorem step_cases (here : Zone) (registry : Registry) (queue : Queue α) (call : Call α) :
    (∃ name token now window stop, registry.get? name = some window ∧
      window.nextEnd here now = .ok stop ∧
      queue.step here registry call = .withholds queue name token now stop) ∨
    (∃ e, queue.step here registry call = ⟨queue, call, .refused e, queue⟩) ∨
    (∃ now, queue.step here registry call = .flushes registry queue now) := by
  cases call with
  | defer name token now =>
    unfold step
    dsimp only
    cases h : queue.defer here registry name token now with
    | error e => exact .inr (.inl ⟨e, rfl⟩)
    | ok outcome =>
      obtain ⟨stop, later⟩ := outcome
      obtain ⟨window, hwindow, hend, rfl⟩ := defer_eq_ok h
      exact .inl ⟨name, token, now, window, stop, hwindow, hend, rfl⟩
  | flush now => exact .inr (.inr ⟨now, rfl⟩)

theorem Step.removes_eq_false {step : Step α}
    (h : step.after.get? rule = step.before.get? rule) : step.removes rule = false := by
  unfold removes hasPending
  rw [h]
  exact Bool.and_not_self _

/-! ### Accounts of one rule -/

/-- The step is a flush that releases, once, what the trigger of the rule's window selects of all
that the rule had withheld. -/
def Step.Settles (registry : Registry) (rule : String) (step : Step α) : Prop :=
  step.before.withheld rule ≠ [] ∧ ∃ now releases window chosen,
    step.call = .flush now ∧ step.answer = .released releases ∧
    registry.get? rule = some window ∧
    window.trigger.Selects (step.before.withheld rule) chosen ∧
    releases.filter (fun release => release.rule = rule) = [⟨rule, chosen⟩]

theorem Step.settles_flushes {window : Window} {entry : Withheld α}
    (hnodup : (registry.entries.map Prod.fst).Nodup)
    (hwindow : registry.get? rule = some window) (hentry : queue.get? rule = some entry)
    (hheld : entry.matches_ ≠ []) (hpassed : entry.stop.instant < now) :
    (flushes registry queue now).Settles registry rule := by
  have hwithheld : (flushes registry queue now).before.withheld rule = entry.matches_ :=
    withheld_of_get? hentry
  have hreleased : (queue.flush registry now).1.filter (fun release => release.rule = rule) =
      [⟨rule, window.trigger.select entry.matches_⟩] := by
    unfold Queue.flush
    rw [filter_flushRules, Registry.lookup_of_get? hnodup hwindow, Option.bind_some,
      releaseOf?_of_due hentry hpassed]
    rfl
  unfold Settles
  rw [hwithheld]
  exact ⟨hheld, now, _, window, _, rfl, rfl, hwindow, (window.trigger.selects_select hheld).1,
    hreleased⟩

/-- How a queue stands after its history: the matches deferred are those of the batches taken out
and those withheld still, which wait for the end set last. -/
structure Accounts (registry : Registry) (rule : String) (steps : List (Step α))
    (queue : Queue α) : Prop where
  tokens : (deferrals rule steps).map Prod.fst =
    ((removals rule steps).map fun step => step.before.withheld rule).flatten ++
      queue.withheld rule
  settled : ∀ step ∈ removals rule steps, step.Settles registry rule
  held : ∀ {entry}, queue.get? rule = some entry → entry.matches_ ≠ []
  last : ∀ {entry}, queue.get? rule = some entry →
    ((deferrals rule steps).map Prod.snd).getLast? = some entry.stop
  listed : ∀ {entry}, queue.get? rule = some entry → ∃ window, registry.get? rule = some window

theorem accounts_empty (registry : Registry) (rule : String) :
    Accounts registry rule [] (empty : Queue α) where
  tokens := rfl
  settled _ h := nomatch h
  held h := nomatch h
  last h := nomatch h
  listed h := nomatch h

theorem deferrals_concat (rule : String) (steps : List (Step α)) (step : Step α) :
    deferrals rule (steps ++ [step]) = deferrals rule steps ++ (step.deferral? rule).toList := by
  unfold deferrals
  rw [List.filterMap_append]
  cases h : step.deferral? rule with
  | none => rw [List.filterMap_cons_none h]; rfl
  | some deferral => rw [List.filterMap_cons_some h]; rfl

theorem removals_concat_of_removes {step : Step α} (h : step.removes rule = true) :
    removals rule (steps ++ [step]) = removals rule steps ++ [step] := by
  unfold removals
  rw [List.filter_append, List.filter_cons_of_pos h, List.filter_nil]

theorem removals_concat_of_not_removes {step : Step α} (h : step.removes rule = false) :
    removals rule (steps ++ [step]) = removals rule steps := by
  unfold removals
  rw [List.filter_append, List.filter_cons_of_neg (Bool.not_eq_true _ ▸ h), List.filter_nil,
    List.append_nil]

namespace Accounts

theorem of_get?_eq (ha : Accounts registry rule steps queue) {step : Step α}
    (hbefore : step.before = queue) (hdeferral : step.deferral? rule = none)
    (hkept : step.after.get? rule = queue.get? rule) :
    Accounts registry rule (steps ++ [step]) step.after := by
  have hdeferrals : deferrals rule (steps ++ [step]) = deferrals rule steps := by
    rw [deferrals_concat, hdeferral]
    exact List.append_nil _
  have hremovals : removals rule (steps ++ [step]) = removals rule steps :=
    removals_concat_of_not_removes (Step.removes_eq_false (hbefore ▸ hkept))
  have hwithheld : step.after.withheld rule = queue.withheld rule := by
    unfold withheld
    rw [hkept]
  constructor
  · rw [hdeferrals, hremovals, hwithheld]
    exact ha.tokens
  · rw [hremovals]
    exact ha.settled
  · rw [hkept]
    exact ha.held
  · rw [hkept, hdeferrals]
    exact ha.last
  · rw [hkept]
    exact ha.listed

theorem withholds (ha : Accounts registry rule steps queue) {window : Window} (token : α)
    (stop : OffsetTime) (hwindow : registry.get? rule = some window) :
    Accounts registry rule (steps ++ [.withholds queue rule token now stop])
      (queue.push rule token stop) := by
  have hentry := (queue.get?_push rule rule token stop).trans (if_pos rfl)
  have hdeferrals : deferrals rule (steps ++ [.withholds queue rule token now stop]) =
      deferrals rule steps ++ [(token, stop)] := by
    rw [deferrals_concat]
    simp [Step.withholds, Step.deferral?]
  have hremovals : removals rule (steps ++ [.withholds queue rule token now stop]) =
      removals rule steps := by
    apply removals_concat_of_not_removes
    simp [Step.withholds, Step.removes, hasPending, hentry]
  refine ⟨?_, hremovals ▸ ha.settled, ?_, ?_, fun _ => ⟨window, hwindow⟩⟩
  · rw [hdeferrals, hremovals, List.map_append, ha.tokens, withheld_push, if_pos rfl,
      List.append_assoc]
    rfl
  · intro entry h
    cases hentry.symm.trans h
    exact List.append_ne_nil_of_right_ne_nil _ (List.cons_ne_nil _ _)
  · intro entry h
    cases hentry.symm.trans h
    rw [hdeferrals, List.map_append]
    exact List.getLast?_concat

theorem get?_flush_of_due (ha : Accounts registry rule steps queue) (hdue : queue.Due now rule) :
    (queue.flush registry now).2.get? rule = none := by
  obtain ⟨entry, hentry, -⟩ := id hdue
  obtain ⟨window, hwindow⟩ := ha.listed hentry
  exact Queue.get?_flush_of_due hwindow hdue

theorem flushes (ha : Accounts registry rule steps queue)
    (hnodup : (registry.entries.map Prod.fst).Nodup) (hdue : queue.Due now rule) :
    Accounts registry rule (steps ++ [.flushes registry queue now])
      (queue.flush registry now).2 := by
  obtain ⟨entry, hentry, hpassed⟩ := id hdue
  obtain ⟨window, hwindow⟩ := ha.listed hentry
  have hgone := ha.get?_flush_of_due hdue
  have hdeferrals : deferrals rule (steps ++ [.flushes registry queue now]) =
      deferrals rule steps := (deferrals_concat ..).trans (List.append_nil _)
  have hremovals : removals rule (steps ++ [.flushes registry queue now]) =
      removals rule steps ++ [.flushes registry queue now] := by
    apply removals_concat_of_removes
    simp [Step.flushes, Step.removes, hasPending, hentry, hgone]
  refine ⟨?_, ?_, ?_, ?_, ?_⟩
  · rw [hdeferrals, hremovals, ha.tokens, withheld_of_get?_eq_none hgone, List.map_append,
      List.flatten_append, List.append_nil]
    exact congrArg _ (List.append_nil _).symm
  · intro step hstep
    rw [hremovals, List.mem_append, List.mem_singleton] at hstep
    rcases hstep with hstep | rfl
    · exact ha.settled step hstep
    · exact Step.settles_flushes hnodup hwindow hentry (ha.held hentry) hpassed
  all_goals
    intro entry h
    cases hgone.symm.trans h

theorem step (ha : Accounts registry rule steps queue)
    (hnodup : (registry.entries.map Prod.fst).Nodup) (here : Zone) (call : Call α) :
    Accounts registry rule (steps ++ [queue.step here registry call])
      (queue.step here registry call).after := by
  rcases step_cases here registry queue call with
    ⟨name, token, now, window, stop, hwindow, -, h⟩ | ⟨e, h⟩ | ⟨now, h⟩
  · rw [h]
    by_cases hname : rule = name
    · subst hname
      exact ha.withholds token stop hwindow
    · exact ha.of_get?_eq rfl (by simp [Step.withholds, Step.deferral?, Ne.symm hname])
        ((get?_push ..).trans (if_neg hname))
  · rw [h]
    exact ha.of_get?_eq rfl (by simp [Step.deferral?]) rfl
  · rw [h]
    by_cases hdue : queue.Due now rule
    · exact ha.flushes hnodup hdue
    · exact ha.of_get?_eq rfl rfl (get?_flushRules_of_not_due hdue)

theorem history (ha : Accounts registry rule steps queue)
    (hnodup : (registry.entries.map Prod.fst).Nodup) (here : Zone) (calls : List (Call α)) :
    Accounts registry rule (steps ++ queue.history here registry calls)
      (queue.after here registry calls) := by
  induction calls generalizing steps queue with
  | nil => exact (List.append_nil steps).symm ▸ ha
  | cons call rest ih =>
    have hrest := ih (ha.step hnodup here call)
    rw [List.append_assoc] at hrest
    exact hrest

theorem due_iff (ha : Accounts registry rule steps queue) :
    queue.Due now rule ↔ queue.hasPending rule = true ∧
      ∃ stop, ((deferrals rule steps).map Prod.snd).getLast? = some stop ∧ stop.instant < now := by
  constructor
  · rintro ⟨entry, hentry, hpassed⟩
    exact ⟨Option.isSome_iff_exists.mpr ⟨entry, hentry⟩, entry.stop, ha.last hentry, hpassed⟩
  · rintro ⟨hpending, stop, hstop, hpassed⟩
    obtain ⟨entry, hentry⟩ := Option.isSome_iff_exists.mp hpending
    cases (ha.last hentry).symm.trans hstop
    exact ⟨entry, hentry, hpassed⟩

theorem exists_release_iff (ha : Accounts registry rule steps queue) :
    (∃ release ∈ (queue.flush registry now).1, release.rule = rule) ↔ queue.Due now rule := by
  constructor
  · rintro ⟨release, hmem, rfl⟩
    exact due_of_mem_flushRules hmem
  · rintro ⟨entry, hentry, hpassed⟩
    obtain ⟨window, hwindow⟩ := ha.listed hentry
    obtain ⟨first, hfirst⟩ := Registry.exists_lookup hwindow
    exact ⟨_, mem_flushRules_of_due hfirst hentry hpassed, rfl⟩

theorem removed_iff (ha : Accounts registry rule steps queue) :
    queue.hasPending rule = true ∧ (queue.flush registry now).2.hasPending rule = false ↔
      queue.Due now rule := by
  unfold hasPending
  constructor
  · rintro ⟨hpending, hremoved⟩
    by_contra hnot
    rw [flush, get?_flushRules_of_not_due hnot, hpending] at hremoved
    cases hremoved
  · intro hdue
    rw [ha.get?_flush_of_due hdue]
    obtain ⟨entry, hentry, -⟩ := hdue
    rw [hentry]
    exact ⟨rfl, rfl⟩

theorem not_due_flush (ha : Accounts registry rule steps queue) {again : Instant}
    (hle : again ≤ now) : ¬ (queue.flush registry now).2.Due again rule := by
  rintro ⟨entry, hentry, hpassed⟩
  have hbefore := get?_of_get?_flushRules hentry
  have hdue : queue.Due now rule := ⟨entry, hbefore, Reading.lt_of_lt_of_le hpassed hle⟩
  cases (ha.get?_flush_of_due hdue).symm.trans hentry

end Accounts

/-! ### Repeated flushes -/

theorem not_due_after_flushes {again : Instant} (hnone : ∀ rule, ¬ queue.Due again rule)
    (here : Zone) (instants : List Instant) (rule : String) :
    ¬ (queue.after here registry (instants.map .flush)).Due again rule := by
  induction instants generalizing queue with
  | nil => exact hnone rule
  | cons now rest ih =>
    refine ih fun rule hdue => hnone rule ?_
    obtain ⟨entry, hentry, hpassed⟩ := hdue
    exact ⟨entry, get?_of_get?_flushRules hentry, hpassed⟩

/-- **The queue neither loses, repeats nor reorders.** After any calls on an empty queue, where the
registry lists a rule once:
* the matches deferred for a rule are, in order, those of the batches that were taken out one after
  another, and then those withheld still;
* a batch is taken out by a flush only, has a match, and is released once as the trigger selects;
* a flush releases a rule exactly when the rule has an entry and the end that its last deferral set
  is past, and then takes the entry out;
* the releases of a flush are in the order of the registry, each rule at most once;
* until the next deferral, another flush that is not later releases nothing. -/
theorem deferrals_eq_batches {registry : Registry}
    (hnodup : (registry.entries.map Prod.fst).Nodup) (here : Zone) (calls : List (Call α))
    {steps : List (Step α)} {queue : Queue α}
    (hsteps : empty.history here registry calls = steps)
    (hqueue : empty.after here registry calls = queue) :
    (∀ rule, (deferrals rule steps).map Prod.fst =
      ((removals rule steps).map fun step => step.before.withheld rule).flatten ++
        queue.withheld rule) ∧
    (∀ rule, ∀ step ∈ removals rule steps, step.before.withheld rule ≠ [] ∧
      ∃ now releases window chosen, step.call = .flush now ∧ step.answer = .released releases ∧
        registry.get? rule = some window ∧
        window.trigger.Selects (step.before.withheld rule) chosen ∧
        releases.filter (fun release => release.rule = rule) = [⟨rule, chosen⟩]) ∧
    (∀ now rule, ((∃ release ∈ (queue.flush registry now).1, release.rule = rule) ↔
        queue.hasPending rule = true ∧
          ∃ stop, ((deferrals rule steps).map Prod.snd).getLast? = some stop ∧
            stop.instant < now) ∧
      ((∃ release ∈ (queue.flush registry now).1, release.rule = rule) ↔
        queue.hasPending rule = true ∧ (queue.flush registry now).2.hasPending rule = false)) ∧
    (∀ now, ((queue.flush registry now).1.map Release.rule).Sublist
        (registry.entries.map Prod.fst) ∧
      ((queue.flush registry now).1.map Release.rule).Nodup) ∧
    (∀ now (between : List Instant) again, again ≤ now →
      ((queue.after here registry (.flush now :: between.map .flush)).flush registry again).1 =
        []) := by
  have ha : ∀ rule, Accounts registry rule steps queue := by
    intro rule
    rw [← hsteps, ← hqueue]
    exact (accounts_empty registry rule).history hnodup here calls
  refine ⟨fun rule => (ha rule).tokens, fun rule => (ha rule).settled, ?_, ?_, ?_⟩
  · intro now rule
    rw [(ha rule).exists_release_iff]
    exact ⟨(ha rule).due_iff, (ha rule).removed_iff.symm⟩
  · intro now
    have hordered : ((queue.flush registry now).1.map Release.rule).Sublist
        (registry.entries.map Prod.fst) := map_rule_flushRules_sublist
    exact ⟨hordered, hnodup.sublist hordered⟩
  · intro now between again hle
    have hnone : ∀ rule, ¬ (queue.flush registry now).2.Due again rule :=
      fun rule => (ha rule).not_due_flush hle
    exact congrArg Prod.fst (flushRules_of_none_due (not_due_after_flushes hnone here between))

/-- Two matches that come in one afternoon make up a batch, of which the last is released. A third
one, told to the queue with an instant before the flush, is withheld anew. -/
theorem deferrals_eq_batches_afternoon :
    ∃ (registry : Registry) (calls : List (Call Nat)) (steps : List (Step Nat)) (queue : Queue Nat),
      registry = .push .empty "r" { Window.afternoon with trigger := .last } ∧
      calls = [.defer "r" 7 (.onDay 0 ⟨54000⟩), .defer "s" 1 (.onDay 0 ⟨54000⟩),
        .defer "r" 8 (.onDay 0 ⟨55800⟩), .flush (.onDay 0 ⟨58500⟩), .flush (.onDay 0 ⟨58501⟩),
        .defer "r" 9 (.onDay 0 ⟨36000⟩)] ∧
      empty.history .universal registry calls = steps ∧
      empty.after .universal registry calls = queue ∧
      (registry.entries.map Prod.fst).Nodup ∧
      (deferrals "r" steps).map Prod.fst = [7, 8, 9] ∧
      (removals "r" steps).map (fun step => step.before.withheld "r") = [[7, 8]] ∧
      queue.withheld "r" = [9] ∧
      (deferrals "r" steps).map Prod.fst =
        ((removals "r" steps).map fun step => step.before.withheld "r").flatten ++
          queue.withheld "r" ∧
      (∃ step ∈ removals "r" steps, step.answer = .released [⟨"r", [8]⟩]) ∧
      ((queue.flush registry (.onDay 0 ⟨58501⟩)).1.map Release.rule).Nodup := by
  have hnodup : ((Registry.empty.push "r" { Window.afternoon with trigger := .last }).entries.map
      Prod.fst).Nodup := List.nodup_singleton "r"
  obtain ⟨htokens, -, -, honce, -⟩ := deferrals_eq_batches (α := Nat) hnodup .universal
    [.defer "r" 7 (.onDay 0 ⟨54000⟩), .defer "s" 1 (.onDay 0 ⟨54000⟩),
      .defer "r" 8 (.onDay 0 ⟨55800⟩), .flush (.onDay 0 ⟨58500⟩), .flush (.onDay 0 ⟨58501⟩),
      .defer "r" 9 (.onDay 0 ⟨36000⟩)] rfl rfl
  exact ⟨_, _, _, _, rfl, rfl, rfl, rfl, hnodup, rfl, rfl, rfl, htokens "r",
    ⟨_, List.mem_cons_self, rfl⟩, (honce (.onDay 0 ⟨58501⟩)).2⟩

end Blackout.Queue
