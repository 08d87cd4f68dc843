import Determinizer.Error
import Determinizer.NFA.Basic
import Determinizer.Outcome
import Determinizer.Subset.Index
import Std.Data.HashMap
import Std.Data.HashSet

/-! # The subset construction

The construction works on a list of subsets that the caller chooses: the states of the result are
listed subsets, in the order of the list. A row gives, for a subset, the place in the list of the
targets on each symbol. A sparse automaton keeps the rows that are initial or the target of a row; a
total one keeps every non-empty subset, and the first empty one as its dead state if some row leads
there. Labels count the rows that are kept.
-/

namespace Determinizer.SubsetConstruction

/-- A subset at its place in the list, and the places of its targets. -/
structure Row where
  place : Nat
  subset : Subset
  targets : List (Symbol × Nat)

/-- The places of the targets of a subset. Where there are none a total automaton goes to `dead`. -/
def rowTargets (nfa : NFA) (index : Subset.Index) (dead : Option Nat) (subset : Subset) :
    List Symbol → Except Error (List (Symbol × Nat))
  | [] => .ok []
  | symbol :: symbols => do
    let names := nfa.targetsOf subset symbol
    let found ←
      if names.isEmpty then .ok dead
      else
        match index[names]? with
        | some place => .ok (some place)
        | none => .error (.unlistedSubset names)
    let later ← rowTargets nfa index dead subset symbols
    match found with
    | some place => return (symbol, place) :: later
    | none => return later

/-- The row of the subset at a place: none for an empty subset that is not the dead state. -/
def row? (nfa : NFA) (index : Subset.Index) (dead : Option Nat) (symbols : List Symbol)
    (subset : Subset) (place : Nat) : Except Error (Option Row) :=
  if subset.isEmpty then
    if dead = some place then .ok (some ⟨place, subset, symbols.map (·, place)⟩) else .ok none
  else do
    let targets ← rowTargets nfa index dead subset symbols
    return some ⟨place, subset, targets⟩

/-- The rows of the listed subsets, in order. -/
def rows (nfa : NFA) (index : Subset.Index) (dead : Option Nat) (symbols : List Symbol)
    (subsets : List Subset) : Except Error (List Row) :=
  subsets.zipIdx.filterMapM fun entry => row? nfa index dead symbols entry.1 entry.2

/-- The places that are initial or the target of a non-empty subset. -/
def entered (initial : Nat) (rows : List Row) : Std.HashSet Nat :=
  (rows.filter (!·.subset.isEmpty)).foldl
    (fun found row => row.targets.foldl (fun found target => found.insert target.2) found) {initial}

/-- The rows that become states. -/
def kept (policy : Policy) (initial : Nat) (rows : List Row) : List Row :=
  let places := entered initial rows
  rows.filter fun row =>
    places.contains row.place || (policy == .total && !row.subset.isEmpty)

/-- The position of each kept row among the kept rows, by its place. -/
def positions (kept : List Row) : Std.HashMap Nat Nat :=
  Std.HashMap.ofList (kept.zipIdx.map fun entry => (entry.1.place, entry.2))

/-- The label of the row at a place. Only places of kept rows are asked for. -/
def labelAt (positions : Std.HashMap Nat Nat) (place : Nat) : Label :=
  Label.ofPosition (positions.getD place 0)

/-- The states of the kept rows. -/
def makeStates (nfa : NFA) (initial : Nat) (kept : List Row) : List DFA.State :=
  let positions := positions kept
  kept.map fun row =>
    { label := labelAt positions row.place
      subset := row.subset
      isFinal := row.subset.any nfa.finals.contains
      isInitial := row.place == initial
      transitions :=
        Table.ofList (row.targets.map fun target => (target.1, labelAt positions target.2)) }

end SubsetConstruction

namespace NFA

open SubsetConstruction

/-- The deterministic automaton over listed subsets. -/
def overSubsets (nfa : NFA) (subsets : List Subset) (alphabet : List Symbol) (policy : Policy) :
    Except Error DFA := do
  let index := Subset.index subsets
  let dead ←
    match policy, index[(∅ : NameSet)]? with
    | .sparse, _ => .ok none
    | .total, some place => .ok (some place)
    | .total, none => .error .noEmptySubset
  let initial ←
    match index[({nfa.initial} : NameSet)]? with
    | some place => .ok place
    | none => .error (.noInitialSubset nfa.initial)
  let rows ← rows nfa index dead alphabet.eraseDups subsets
  return DFA.ofStates alphabet policy (makeStates nfa initial (kept policy initial rows))

/-- The same construction, reporting what it made. -/
def determinize (nfa : NFA) (subsets : List Subset) (alphabet : List Symbol) (policy : Policy) :
    Outcome Error DFA := do
  let dfa ← .ofExcept (nfa.overSubsets subsets alphabet policy)
  .report (.subsetsMaterialized subsets.length dfa.states.length :: dfa.states.map .stateMade)
  return dfa

end NFA

end Determinizer
