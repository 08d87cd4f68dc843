import Determinizer.Error
import Determinizer.Outcome
import Std.Data.HashMap
import Std.Data.HashSet

/-! # The reachable part of a deterministic automaton

A walk from the initial label follows the transitions on the symbols of the alphabet. A label that
several states carry stands for the last of them; a label that no state carries is visited too and
leads nowhere. Pruning keeps the states with visited labels, in their order, and then refuses an
automaton that still has a dangling transition.
-/

namespace Determinizer.DFA

/-- The last state with each label. -/
def byLabel (states : List State) : Std.HashMap Label State :=
  Std.HashMap.ofList (states.map fun state => (state.label, state))

/-- The targets of a state on the symbols of an alphabet. -/
def State.successors (alphabet : List Symbol) (state : State) : List Label :=
  alphabet.filterMap state.transitions.get?

/-- How many labels of states are not visited yet. -/
def unvisited (carriers : Std.HashMap Label State) (visited : Std.HashSet Label) : Nat :=
  carriers.keys.countP fun label => !visited.contains label

theorem countP_lt_of_imp {α : Type} {p q : α → Bool} {items : List α}
    (weaker : ∀ item, q item = true → p item = true) {lost : α} (member : lost ∈ items)
    (before : p lost = true) (after : q lost = false) : items.countP q < items.countP p := by
  induction items with
  | nil => simp at member
  | cons first rest ih =>
    have restLe : rest.countP q ≤ rest.countP p :=
      List.countP_mono_left fun item _ => weaker item
    rw [List.countP_cons, List.countP_cons]
    rcases List.mem_cons.mp member with rfl | later
    · simp only [before, after]
      simp
      omega
    · have restLt := ih later
      have firstLe : (if q first = true then 1 else 0) ≤ (if p first = true then 1 else 0) := by
        cases atFirst : q first
        · simp
        · simp [weaker first atFirst]
      omega

/-- A visit to a label of a state leaves fewer labels to visit. -/
theorem unvisited_insert_lt {carriers : Std.HashMap Label State} {visited : Std.HashSet Label}
    {label : Label} {state : State} (carried : carriers[label]? = some state)
    (fresh : visited.contains label = false) :
    unvisited carriers (visited.insert label) < unvisited carriers visited := by
  have member : label ∈ carriers.keys := by
    rw [Std.HashMap.mem_keys, Std.HashMap.mem_iff_isSome_getElem?, carried]
    rfl
  refine countP_lt_of_imp ?_ member (by simp [fresh]) (by simp)
  intro item
  simp only [Std.HashSet.contains_insert, Bool.not_or, Bool.and_eq_true]
  exact And.right

theorem unvisited_insert_le (carriers : Std.HashMap Label State) (visited : Std.HashSet Label)
    (label : Label) :
    unvisited carriers (visited.insert label) ≤ unvisited carriers visited := by
  refine List.countP_mono_left fun item _ => ?_
  simp only [Std.HashSet.contains_insert, Bool.not_or, Bool.and_eq_true]
  exact And.right

/-- Visits the waiting labels and all that they lead to. -/
def walk (carriers : Std.HashMap Label State) (alphabet : List Symbol)
    (visited : Std.HashSet Label) : List Label → Std.HashSet Label
  | [] => visited
  | label :: waiting =>
    if _seen : visited.contains label then walk carriers alphabet visited waiting
    else
      match _carried : carriers[label]? with
      | none => walk carriers alphabet (visited.insert label) waiting
      | some state =>
        walk carriers alphabet (visited.insert label) (state.successors alphabet ++ waiting)
  termination_by waiting => (unvisited carriers visited, waiting.length)
  decreasing_by
    · exact Prod.Lex.right _ (by simp)
    · rcases Nat.lt_or_eq_of_le (unvisited_insert_le carriers visited label) with less | same
      · exact Prod.Lex.left _ _ less
      · rw [same]
        exact Prod.Lex.right _ (by simp)
    · exact Prod.Lex.left _ _ (unvisited_insert_lt _carried (by simpa using _seen))

/-- The labels that the walk from the initial label visits. -/
def reachable (dfa : DFA) : Std.HashSet Label :=
  walk (byLabel dfa.states) dfa.alphabet ∅ dfa.initial.toList

/-- The automaton with its reachable states alone. -/
def reachablePart (dfa : DFA) : DFA :=
  let reached := dfa.reachable
  { dfa with
    states := dfa.states.filter fun state => reached.contains state.label
    finals := dfa.finals.filter reached.contains }

/-- The labels of the states that are not reachable. -/
def unreachableLabels (dfa : DFA) : List Label :=
  let reached := dfa.reachable
  dfa.labels.filter fun label => !reached.contains label

/-- The reachable part, unless it has dangling transitions. -/
def prune (dfa : DFA) : Outcome Error DFA := do
  let removed := dfa.unreachableLabels
  .report (if removed.isEmpty then [] else [.statesRemoved removed])
  let part := dfa.reachablePart
  match part.dangling with
  | [] => return part
  | transitions => .fail (.danglingTransitions transitions)

end Determinizer.DFA
