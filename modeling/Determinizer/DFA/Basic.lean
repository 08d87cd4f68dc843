import Determinizer.Label
import Determinizer.NFA.Basic
import Determinizer.Policy
import Std.Data.HashSet

/-! # Deterministic automata

The states stand in a list. Nothing forces their labels to differ: a look-up by label finds the
first state that carries it. A transition names its target by label and may name one that no state
carries; such a transition is dangling.
-/

namespace Determinizer

namespace DFA

/-- A state knows the subset it was made from and its transitions, oldest first. -/
structure State where
  label : Label
  subset : List Name
  isFinal : Bool
  isInitial : Bool
  transitions : Table Symbol Label
  deriving DecidableEq

/-- One transition of an automaton, its ends named by label. -/
structure Transition where
  source : Label
  symbol : Symbol
  target : Label
  deriving DecidableEq, Repr

end DFA

/-- The label of the initial state and the labels of the final states are kept beside the states. -/
structure DFA where
  alphabet : List Symbol
  policy : Policy
  states : List DFA.State
  initial : Option Label
  finals : List Label
  deriving DecidableEq

namespace DFA

/-- The state as messages show it. -/
def State.summary (state : State) : String :=
  "DFAState(" ++ Text.quoted state.label ++ ", " ++ Text.quotedTuple state.subset ++ ")"

/-- Makes `target` the target on `symbol`. -/
def State.link (state : State) (symbol : Symbol) (target : Label) : State :=
  { state with transitions := state.transitions.insert symbol target }

def Transition.text (transition : Transition) : String :=
  Text.quotedTuple [transition.source, transition.symbol, transition.target]

/-- An automaton without states. -/
def ofAlphabet (alphabet : List Symbol) (policy : Policy) : DFA :=
  ⟨alphabet, policy, [], none, []⟩

/-- Puts a state at the end. The last initial state to be added is the initial one. -/
def addState (dfa : DFA) (state : State) : DFA :=
  { dfa with
    states := dfa.states ++ [state]
    initial := if state.isInitial then some state.label else dfa.initial
    finals := if state.isFinal then dfa.finals ++ [state.label] else dfa.finals }

/-- The labels of the final ones among some states. -/
def finalLabels (states : List State) : List Label :=
  (states.filter (·.isFinal)).map (·.label)

/-- The label of the last initial one among some states. -/
def initialLabel? (states : List State) : Option Label :=
  (states.filter (·.isInitial)).getLast?.map (·.label)

/-- The automaton that has the given states, added in order. -/
def ofStates (alphabet : List Symbol) (policy : Policy) (states : List State) : DFA :=
  ⟨alphabet, policy, states, initialLabel? states, finalLabels states⟩

def labels (dfa : DFA) : List Label := dfa.states.map (·.label)

/-- The first state with a label. -/
def state? (dfa : DFA) (label : Label) : Option State :=
  dfa.states.find? (·.label == label)

/-- The states with the first one of a label replaced by what `update` makes of it. -/
def updateFirst (label : Label) (update : State → State) : List State → List State
  | [] => []
  | state :: rest =>
    if state.label = label then update state :: rest
    else state :: updateFirst label update rest

/-- Makes `target` the target of the first state with label `source`; without such a state nothing
changes. -/
def link (dfa : DFA) (source : Label) (symbol : Symbol) (target : Label) : DFA :=
  { dfa with states := updateFirst source (·.link symbol target) dfa.states }

/-- The transitions of a state on the symbols of an alphabet, in the order of the alphabet. -/
def State.transitionsOn (alphabet : List Symbol) (state : State) : List Transition :=
  alphabet.filterMap fun symbol =>
    (state.transitions.get? symbol).map (⟨state.label, symbol, ·⟩)

/-- The transitions in the order of the states, then of the alphabet. -/
def transitions (dfa : DFA) : List Transition :=
  dfa.states.flatMap (·.transitionsOn dfa.alphabet)

/-- The transitions to labels that no state carries. -/
def dangling (dfa : DFA) : List Transition :=
  let known := Std.HashSet.ofList dfa.labels
  dfa.transitions.filter fun transition => !known.contains transition.target

theorem ofStates_append (alphabet : List Symbol) (policy : Policy) (states : List State)
    (state : State) :
    ofStates alphabet policy (states ++ [state]) =
      (ofStates alphabet policy states).addState state := by
  simp only [ofStates, addState, initialLabel?, finalLabels, List.filter_append, mk.injEq, true_and]
  cases initial : state.isInitial <;> cases final : state.isFinal <;> simp [initial, final]

/-- The automaton of a list of states is what adding them one by one gives. -/
theorem foldl_addState (alphabet : List Symbol) (policy : Policy) (states : List State) :
    states.foldl addState (ofAlphabet alphabet policy) = ofStates alphabet policy states := by
  have general : ∀ before : List State,
      states.foldl addState (ofStates alphabet policy before) =
        ofStates alphabet policy (before ++ states) := by
    induction states with
    | nil => simp
    | cons state rest ih =>
      intro before
      rw [List.foldl_cons, ← ofStates_append, ih, List.append_assoc, List.singleton_append]
  exact general []

theorem mem_transitionsOn {alphabet : List Symbol} {state : State} {transition : Transition} :
    transition ∈ state.transitionsOn alphabet ↔
      transition.source = state.label ∧ transition.symbol ∈ alphabet ∧
        state.transitions.get? transition.symbol = some transition.target := by
  rcases transition with ⟨source, symbol, target⟩
  simp only [State.transitionsOn, List.mem_filterMap, Option.map_eq_some_iff, Transition.mk.injEq]
  grind

theorem mem_transitions {dfa : DFA} {transition : Transition} : transition ∈ dfa.transitions ↔
    ∃ state ∈ dfa.states, transition.source = state.label ∧ transition.symbol ∈ dfa.alphabet ∧
      state.transitions.get? transition.symbol = some transition.target := by
  simp only [transitions, List.mem_flatMap, mem_transitionsOn]

theorem mem_dangling {dfa : DFA} {transition : Transition} :
    transition ∈ dfa.dangling ↔
      transition ∈ dfa.transitions ∧ transition.target ∉ dfa.labels := by
  simp [dangling]

end DFA

end Determinizer
