import Determinizer.DFA.Basic
import Determinizer.Dot.Graph
import Std.Data.HashMap
import Std.Data.HashSet

/-! # Deterministic automata as graphs

Each state is a node, with a double circle if it is final, and an arrow from a node without a name
leads to the initial state. All transitions between the same two labels share one arrow, which
carries their symbols separated by commas.
-/

namespace Determinizer.DFA

/-- The two labels that a transition joins. -/
def Transition.ends (transition : Transition) : Label × Label :=
  (transition.source, transition.target)

/-- The symbols on which some transitions join two labels. -/
def symbolsBetween (transitions : List Transition) (ends : Label × Label) : List Symbol :=
  (transitions.filter (·.ends = ends)).map (·.symbol)

/-- The symbols between each two labels that transitions join. -/
def joins (transitions : List Transition) : Std.HashMap (Label × Label) (List Symbol) :=
  transitions.foldr
    (fun transition later =>
      later.insert transition.ends (transition.symbol :: later.getD transition.ends [])) ∅

/-- The items that are not in a set, each where it first appears. -/
def firstSeen (seen : Std.HashSet (Label × Label)) : List (Label × Label) → List (Label × Label)
  | [] => []
  | ends :: rest =>
    if seen.contains ends then firstSeen seen rest
    else ends :: firstSeen (seen.insert ends) rest

/-- Each two labels that transitions join, in order of first appearance, with their symbols. -/
def mergedEdges (transitions : List Transition) : List ((Label × Label) × List Symbol) :=
  let joined := joins transitions
  (firstSeen ∅ (transitions.map (·.ends))).map fun ends => (ends, joined.getD ends [])

theorem getD_joins (transitions : List Transition) (ends : Label × Label) :
    (joins transitions).getD ends [] = symbolsBetween transitions ends := by
  induction transitions with
  | nil => simp [joins, symbolsBetween]
  | cons transition rest ih =>
    change ((joins rest).insert transition.ends
      (transition.symbol :: (joins rest).getD transition.ends [])).getD ends [] = _
    rw [Std.HashMap.getD_insert]
    by_cases same : transition.ends = ends
    · subst same
      simp only [BEq.rfl, if_true, ih, symbolsBetween, List.filter_cons, decide_true, List.map_cons]
    · simp only [beq_iff_eq, same, if_false, ih, symbolsBetween, List.filter_cons, decide_false,
        Bool.false_eq_true]

theorem firstSeen_eq (seen : Std.HashSet (Label × Label)) (items : List (Label × Label)) :
    firstSeen seen items = (items.filter (!seen.contains ·)).eraseDups := by
  induction items generalizing seen with
  | nil => simp [firstSeen]
  | cons ends rest ih =>
    rw [firstSeen, List.filter_cons]
    cases present : seen.contains ends
    · simp only [Bool.false_eq_true, if_false, Bool.not_false, if_true, List.eraseDups_cons, ih,
        List.filter_filter]
      congr 2
      refine List.filter_congr fun other _ => ?_
      rw [Std.HashSet.contains_insert, Bool.not_or, Bool.beq_comm]
    · simp [ih]

/-- One edge for each two labels that transitions join, carrying all symbols between them. -/
theorem mergedEdges_eq (transitions : List Transition) :
    mergedEdges transitions =
      (transitions.map (·.ends)).eraseDups.map fun ends => (ends, symbolsBetween transitions ends) := by
  have all : ∀ items : List (Label × Label), items.filter (fun _ => true) = items :=
    fun items => List.filter_eq_self.mpr fun _ _ => rfl
  simp [mergedEdges, getD_joins, firstSeen_eq, all]

def State.node (state : State) : Dot.Statement :=
  .node state.label (if state.isFinal then "doublecircle" else "circle")

def mergedEdge (entry : (Label × Label) × List Symbol) : Dot.Statement :=
  .edge entry.1.1 entry.1.2 (some (",".intercalate entry.2))

/-- The graph of an automaton that has an initial state. -/
def graph? (dfa : DFA) : Option Dot.Graph :=
  dfa.initial.map fun initial =>
    { comment := "DFA"
      statements :=
        [.setting "rankdir" "LR"] ++ dfa.states.map (·.node) ++
          [.node "" "none", .edge "" initial none] ++
          (mergedEdges dfa.transitions).map mergedEdge }

end Determinizer.DFA
