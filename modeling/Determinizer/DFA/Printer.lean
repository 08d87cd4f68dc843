import Determinizer.DFA.Basic

/-! # The text form of a deterministic automaton

A line of state labels, a line with the initial label, a line of final labels, then a line for each
transition. Every line ends with a line feed.
-/

namespace Determinizer.DFA

/-- The line of a transition. -/
def Transition.line (transition : Transition) : String :=
  transition.source ++ " " ++ transition.symbol ++ " " ++ transition.target

/-- The lines of the text form; there are none to write without an initial state. -/
def textLines? (dfa : DFA) : Option (List String) :=
  dfa.initial.map fun initial =>
    " ".intercalate dfa.labels :: initial :: " ".intercalate dfa.finals ::
      dfa.transitions.map (·.line)

/-- The text form of an automaton that has an initial state. -/
def toText? (dfa : DFA) : Option String :=
  dfa.textLines?.map fun lines => "\n".intercalate lines ++ "\n"

theorem toText?_eq_none_iff {dfa : DFA} : dfa.toText? = none ↔ dfa.initial = none := by
  simp [toText?, textLines?]

end Determinizer.DFA
