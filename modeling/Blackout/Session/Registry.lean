import Blackout.RuleSet.Policy
import Blackout.Session.Error

/-!
# Registries

A registry lists the windows of rules in the order of their definition, with an index of the places
where they are listed. Rules without a window are not in it.

The same name can be listed twice where a rule set has not been checked. Then the index leads to the
later entry, while both are in the list.
-/

namespace Blackout

/-- An index leads to the last entry of every name that is listed. -/
structure Registry.Indexed (entries : List (String × Window)) (index : List (String × Nat)) :
    Prop where
  leads : ∀ {rule place}, index.lookup rule = some place →
    ∃ window, entries[place]? = some (rule, window)
  covers : ∀ {rule place window}, entries[place]? = some (rule, window) →
    ∃ last, index.lookup rule = some last ∧ place ≤ last

structure Registry where
  entries : List (String × Window)
  /-- Places by name; what is put in later hides what was there of the name. -/
  index : List (String × Nat)
  indexed : Registry.Indexed entries index

namespace Registry

/-! ### Indexes -/

namespace Indexed

variable {entries : List (String × Window)} {index : List (String × Nat)} {rule : String}
  {place : Nat}

theorem nil : Indexed [] [] where
  leads h := nomatch h
  covers h := nomatch h

theorem lt_length (h : Indexed entries index) (hplace : index.lookup rule = some place) :
    place < entries.length := by
  obtain ⟨window, hlisted⟩ := h.leads hplace
  exact (List.getElem?_eq_some_iff.mp hlisted).1

theorem append (h : Indexed entries index) (rule : String) (window : Window) :
    Indexed (entries ++ [(rule, window)]) ((rule, entries.length) :: index) := by
  constructor
  · intro name place hplace
    rw [List.lookup_cons] at hplace
    split at hplace
    · next heq =>
      cases hplace
      exact ⟨window, by rw [List.getElem?_concat_length, beq_iff_eq.mp heq]⟩
    · obtain ⟨other, hlisted⟩ := h.leads hplace
      exact ⟨other, by rw [List.getElem?_append_left (h.lt_length hplace), hlisted]⟩
  · intro name place other hlisted
    have hwithin := (List.getElem?_eq_some_iff.mp hlisted).1
    rw [List.length_append, List.length_singleton] at hwithin
    rw [List.lookup_cons]
    split
    · exact ⟨_, rfl, Nat.le_of_lt_succ hwithin⟩
    · next hne =>
      -- the new entry is of another name
      rcases Nat.lt_or_eq_of_le (Nat.le_of_lt_succ hwithin) with hlt | rfl
      · rw [List.getElem?_append_left hlt] at hlisted
        exact h.covers hlisted
      · rw [List.getElem?_concat_length] at hlisted
        cases hlisted
        exact absurd rfl (beq_eq_false_iff_ne.mp hne)

end Indexed

/-! ### Looking up -/

def place? (registry : Registry) (rule : String) : Option Nat := registry.index.lookup rule

/-- Window of a rule. If the rule is listed twice, the later one counts. -/
def get? (registry : Registry) (rule : String) : Option Window :=
  match h : registry.place? rule with
  | some place => some (registry.entries.get ⟨place, registry.indexed.lt_length h⟩).2
  | none => none

def contains (registry : Registry) (rule : String) : Bool := (registry.place? rule).isSome

def size (registry : Registry) : Nat := registry.entries.length

/-! ### Entering rules -/

def empty : Registry := ⟨[], [], .nil⟩

def push (registry : Registry) (rule : String) (window : Window) : Registry where
  entries := registry.entries ++ [(rule, window)]
  index := (rule, registry.size) :: registry.index
  indexed := registry.indexed.append rule window

/-- Enters rules with their windows one after another. -/
def pushAll (registry : Registry) (entries : List (String × Window)) : Registry :=
  entries.foldl (fun registry entry => registry.push entry.1 entry.2) registry

def ofPolicy (policy : RuleSetPolicy) : Registry :=
  empty.pushAll <| policy.enabledRules.filterMap fun rule =>
    rule.window.map fun window => (rule.name, window)

/-- Adds a rule with its own window, the default one, or none. A rule that is listed already
is refused. -/
def add (defaultWindow : Option Window) (registry : Registry) (rule : String)
    (own : Option Window) : Except SessionError Registry :=
  if registry.contains rule then .error (.duplicateRule rule)
  else match own <|> defaultWindow with
    | some window => .ok (registry.push rule window)
    | none => .ok registry

def build (defaultWindow : Option Window) (rules : List (String × Option Window)) :
    Except SessionError Registry :=
  rules.foldlM (fun registry rule => registry.add defaultWindow rule.1 rule.2) empty

end Registry

end Blackout
