import Determinizer.Config
import Determinizer.DFA.Printer
import Determinizer.DFA.Reachable
import Determinizer.NFA.Reader
import Determinizer.SubsetConstruction

/-! # From a description to a pruned deterministic automaton

All subsets of the declared states are listed, with the empty one for a total automaton, the subset
construction runs over them and the unreachable states are removed.
-/

namespace Determinizer

namespace NFA

/-- The subsets over which an automaton is determinized. -/
def subsets (nfa : NFA) (policy : Policy) : List Subset :=
  Subset.enumerate nfa.states (policy == .total)

/-- The symbols on edges that are not in an alphabet. -/
def symbolsOutside (nfa : NFA) (alphabet : List Symbol) : List Symbol :=
  nfa.symbols.filter fun symbol => !alphabet.contains symbol

/-- The pruned deterministic automaton. -/
def convert (nfa : NFA) (config : Config) : Outcome Error DFA := do
  match config.maxStates with
  | some limit =>
    if limit < nfa.states.length then Outcome.fail (.tooManyStates nfa.states.length limit)
  | none => Pure.pure ()
  let unknown := nfa.symbolsOutside config.alphabet
  .report (if unknown.isEmpty then [] else [.symbolsIgnored config.alphabet unknown])
  let dfa ← nfa.determinize (nfa.subsets config.policy) config.alphabet config.policy
  dfa.prune

end NFA

/-- The text form of the pruned deterministic automaton for an automaton in text form. -/
def convertText (config : Config) (text : String) : Outcome Error String := do
  let nfa ← NFA.ofText config.strict text
  let dfa ← nfa.convert config
  return dfa.toText?.getD ""

end Determinizer
