import Blackout.Session.Registry

/-!
# Deferred matches

The queue holds the matches that are withheld. A rule with withheld matches has one entry: the
end of its blackout, which every deferral sets anew, and its matches in the order they came. An
entry is removed as a whole when its blackout has ended.
-/

namespace Blackout

structure Withheld (α : Type) where
  stop : OffsetTime
  matches_ : List α

/-- Withheld matches by rule, with one entry for a rule. -/
structure Queue (α : Type) where
  entries : List (String × Withheld α)

structure Release (α : Type) where
  rule : String
  released : List α

structure PendingRule where
  rule : String
  count : Nat
  stop : OffsetTime
deriving DecidableEq

namespace Queue

variable {α : Type}

/-! ### Entries -/

def empty : Queue α := ⟨[]⟩

def get? (queue : Queue α) (rule : String) : Option (Withheld α) := queue.entries.lookup rule

def erase (queue : Queue α) (rule : String) : Queue α :=
  ⟨queue.entries.filter fun entry => entry.1 != rule⟩

def set (queue : Queue α) (rule : String) (entry : Withheld α) : Queue α :=
  ⟨(rule, entry) :: (queue.erase rule).entries⟩

def pendingCount (queue : Queue α) (rule : String) : Nat :=
  match queue.get? rule with
  | some entry => entry.matches_.length
  | none => 0

def hasPending (queue : Queue α) (rule : String) : Bool := (queue.get? rule).isSome

/-- Rules with withheld matches, in the order of the registry. -/
def pendingRules (registry : Registry) (queue : Queue α) : List PendingRule :=
  registry.entries.filterMap fun (rule, _) =>
    (queue.get? rule).map fun entry => ⟨rule, entry.matches_.length, entry.stop⟩

/-! ### Deferring and releasing -/

/-- Adds a match to a rule's entry and sets the end that the entry waits for. -/
def push (queue : Queue α) (rule : String) (token : α) (stop : OffsetTime) : Queue α :=
  let earlier := match queue.get? rule with
    | some entry => entry.matches_
    | none => []
  queue.set rule ⟨stop, earlier ++ [token]⟩

def defer (here : Zone) (registry : Registry) (queue : Queue α) (rule : String) (token : α)
    (now : Instant) : Except (Failure SessionError) (OffsetTime × Queue α) :=
  match registry.get? rule with
  | none => .error (.reported (.noBlackout rule))
  | some window =>
    match window.nextEnd here now with
    | .error failure => .error (failure.map (.blackout rule))
    | .ok stop => .ok (stop, queue.push rule token stop)

/-- Removes the entries of these rules that wait for an end strictly before `now`, and releases
what the windows' triggers select of them. -/
def flushRules (now : Instant) : List (String × Window) → Queue α → List (Release α) × Queue α
  | [], queue => ([], queue)
  | (rule, window) :: rest, queue =>
    match queue.get? rule with
    | none => flushRules now rest queue
    | some entry =>
      if entry.stop.instant < now then
        let (releases, queue) := flushRules now rest (queue.erase rule)
        (⟨rule, window.trigger.select entry.matches_⟩ :: releases, queue)
      else flushRules now rest queue

/-- Releases the matches of every rule whose blackout ended strictly before `now`, rule by rule
in the order of the registry. -/
def flush (registry : Registry) (queue : Queue α) (now : Instant) : List (Release α) × Queue α :=
  flushRules now registry.entries queue

end Queue

/-- Whether a rule is in its blackout. A rule without a window never is. -/
def Registry.isInBlackout (here : Zone) (registry : Registry) (rule : String) (now : Instant) :
    Except (Failure SessionError) Bool :=
  match registry.get? rule with
  | none => .ok false
  | some window => (window.isActive here now).mapError (Failure.map (.blackout rule))

end Blackout
