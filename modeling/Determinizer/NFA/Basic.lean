import Determinizer.NameSet
import Determinizer.Table

/-! # Nondeterministic automata

An automaton has declared states, an initial state, final states and, for a state and a symbol, a
set of targets. Only a declared state can be the source of an edge. Nothing else is checked here:
the initial state, the final states and the targets may be undeclared, and a state may be declared
more than once.
-/

namespace Determinizer

/-- An input symbol; any text can be one. -/
abbrev Symbol := String

/-- The edges remember in which order a source and a symbol were first joined. -/
structure NFA where
  states : List Name
  initial : Name
  finals : List Name
  edges : Table (Name × Symbol) NameSet
  sources_declared : ∀ key ∈ edges.keys, key.1 ∈ states
  deriving DecidableEq

namespace NFA

/-- An automaton without edges. -/
def ofStates (states : List Name) (initial : Name) (finals : List Name) : NFA :=
  ⟨states, initial, finals, ∅, by simp [Table.keys, EmptyCollection.emptyCollection, Table.empty]⟩

/-- Adds edges from `source` on `symbol`, remembering the symbol even if there are no targets. The
error is a source that is not declared. -/
def addTargets (nfa : NFA) (source : Name) (symbol : Symbol) (targets : List Name) :
    Except Name NFA :=
  if declared : source ∈ nfa.states then
    .ok
      { nfa with
        edges := nfa.edges.write (source, symbol) fun old => NameSet.ofList targets ∪ old.getD ∅
        sources_declared := by
          intro key member
          rcases (Table.mem_keys_write ..).mp member with rfl | old
          · exact declared
          · exact nfa.sources_declared key old }
  else .error source

/-- Adds one edge. The target may be any name. -/
def addEdge (nfa : NFA) (source : Name) (symbol : Symbol) (target : Name) : Except Name NFA :=
  nfa.addTargets source symbol [target]

/-- The automaton with the given edges, added in order. -/
def ofEdges (states : List Name) (initial : Name) (finals : List Name)
    (edges : List (Name × Symbol × List Name)) : Except Name NFA :=
  edges.foldlM (fun nfa edge => nfa.addTargets edge.1 edge.2.1 edge.2.2)
    (ofStates states initial finals)

/-- The targets of a state on a symbol: none if there is no such edge or state. -/
def targets (nfa : NFA) (source : Name) (symbol : Symbol) : NameSet :=
  (nfa.edges.get? (source, symbol)).getD ∅

/-- The targets that the members of a subset have together on a symbol. -/
def targetsOf (nfa : NFA) (subset : List Name) (symbol : Symbol) : NameSet :=
  subset.foldl (fun found source => found ∪ nfa.targets source symbol) ∅

/-- The edges that leave a state, in the order in which their symbols appeared there. -/
def edgesFrom (nfa : NFA) (source : Name) : List (Symbol × NameSet) :=
  nfa.edges.entries.filterMap fun entry =>
    if entry.1.1 = source then some (entry.1.2, entry.2) else none

/-- The symbols on edges, state by state, each at its first appearance. -/
def symbols (nfa : NFA) : List Symbol :=
  (nfa.states.flatMap fun state => (nfa.edgesFrom state).map Prod.fst).eraseDups

@[simp] theorem targets_ofStates (states : List Name) (initial : Name) (finals : List Name)
    (source : Name) (symbol : Symbol) : (ofStates states initial finals).targets source symbol = ∅ :=
  rfl

theorem addTargets_eq_error_iff {nfa : NFA} {source name : Name} {symbol : Symbol}
    {targets : List Name} :
    nfa.addTargets source symbol targets = .error name ↔ source ∉ nfa.states ∧ name = source := by
  unfold addTargets
  split <;> simp_all [eq_comm]

/-- Adding targets changes the targets of that source on that symbol and no others. -/
theorem mem_targets_of_addTargets {nfa grown : NFA} {source : Name} {symbol : Symbol}
    {targets : List Name} (added : nfa.addTargets source symbol targets = .ok grown)
    (state : Name) (letter : Symbol) (name : Name) :
    name ∈ grown.targets state letter ↔
      name ∈ nfa.targets state letter ∨ state = source ∧ letter = symbol ∧ name ∈ targets := by
  unfold addTargets at added
  split at added
  · cases added
    unfold NFA.targets
    rw [Table.get?_write]
    split
    · rename_i same
      obtain ⟨rfl, rfl⟩ := Prod.mk.inj same
      simp [or_comm]
    · rename_i different
      have elsewhere : ¬ (state = source ∧ letter = symbol) :=
        fun both => different (Prod.ext both.1 both.2)
      grind
  · cases added

theorem mem_targetsOf {nfa : NFA} {subset : List Name} {symbol : Symbol} {name : Name} :
    name ∈ nfa.targetsOf subset symbol ↔ ∃ source ∈ subset, name ∈ nfa.targets source symbol := by
  have general : ∀ found : NameSet,
      name ∈ subset.foldl (fun found source => found ∪ nfa.targets source symbol) found ↔
        name ∈ found ∨ ∃ source ∈ subset, name ∈ nfa.targets source symbol := by
    induction subset with
    | nil => simp
    | cons first rest ih => simp [ih, or_assoc]
  simpa [targetsOf] using general ∅

/-- Only the members of a subset count, not how it lists them. -/
theorem targetsOf_congr {nfa : NFA} {left right : List Name}
    (same : NameSet.ofList left = NameSet.ofList right) (symbol : Symbol) :
    nfa.targetsOf left symbol = nfa.targetsOf right symbol := by
  rw [NameSet.ofList_eq_ofList_iff] at same
  refine NameSet.ext fun name => ?_
  simp only [mem_targetsOf, same]

end NFA

end Determinizer
