import Determinizer.Proofs.Conversion.Errors

/-! # A conversion gives the accessible automaton of subsets

The states of the result are the sets of states that words over the alphabet lead to, each once and
in the canonical order, and the transitions lead from set to set as the edges do. The empty set is
a state only of a total automaton, and only if some word leads to no state at all.
-/

namespace Determinizer

/-- The automaton whose states are the sets of states that words lead to. -/
structure AccessibleAutomaton (nfa : NFA) (config : Config) (dfa : DFA) : Prop where
  alphabet_eq : dfa.alphabet = config.alphabet
  policy_eq : dfa.policy = config.policy
  /-- The subsets stand in the canonical order. -/
  ordered : (dfa.states.map (·.subset)).Sublist (nfa.subsets config.policy)
  subsets_nodup : (dfa.states.map (·.subset)).Nodup
  labels_nodup : dfa.labels.Nodup
  /-- Members stand in the order in which they are declared. -/
  declared : ∀ state ∈ dfa.states, state.subset.Sublist nfa.states.eraseDups
  /-- Some word leads to each state, and a state without members needs a dead state. -/
  sound : ∀ state ∈ dfa.states,
    (∃ word, (∀ symbol ∈ word, symbol ∈ config.alphabet) ∧
      NameSet.ofList state.subset = nfa.run {nfa.initial} word) ∧
    (config.policy = .sparse → state.subset ≠ [])
  /-- What a word leads to is a state. -/
  complete : ∀ word, (∀ symbol ∈ word, symbol ∈ config.alphabet) →
    config.policy = .total ∨ nfa.run {nfa.initial} word ≠ ∅ →
      ∃ state ∈ dfa.states, NameSet.ofList state.subset = nfa.run {nfa.initial} word
  initial : ∃ state ∈ dfa.states, state.subset = [nfa.initial] ∧ dfa.initial = some state.label ∧
    ∀ other ∈ dfa.states, other.isInitial = true ↔ other = state
  isFinal_iff : ∀ state ∈ dfa.states,
    state.isFinal = true ↔ ∃ name ∈ state.subset, name ∈ nfa.finals
  finals_eq : dfa.finals = (dfa.states.filter (·.isFinal)).map (·.label)
  /-- A transition is missing only in a sparse automaton and only where there are no targets. -/
  hasTransition_iff : ∀ state ∈ dfa.states, ∀ symbol, symbol ∈ state.transitions.keys ↔
    symbol ∈ config.alphabet ∧
      (config.policy = .total ∨ nfa.targetsOf state.subset symbol ≠ ∅)
  target : ∀ state ∈ dfa.states, ∀ symbol label, state.transitions.get? symbol = some label →
    ∃ other ∈ dfa.states, other.label = label ∧
      NameSet.ofList other.subset = nfa.targetsOf state.subset symbol

namespace SubsetAutomaton

variable {nfa : NFA} {alphabet : List Symbol} {policy : Policy} {dfa : DFA} {state : DFA.State}

theorem eq_total_or_iff {p : Prop} : policy = .total ∨ p ↔ ¬ (policy = .sparse ∧ ¬ p) := by
  cases policy <;> simp

/-- The symbols on which a state has a transition. -/
theorem mem_keys_iff (automaton : SubsetAutomaton nfa alphabet policy dfa)
    (member : state ∈ dfa.states) (symbol : Symbol) : symbol ∈ state.transitions.keys ↔
      symbol ∈ alphabet ∧ (policy = .total ∨ nfa.targetsOf state.subset symbol ≠ ∅) := by
  by_cases known : symbol ∈ alphabet
  · have missing := automaton.missing_iff state member symbol known
    rw [Table.get?_eq_none_iff] at missing
    rw [and_iff_right known, eq_total_or_iff, not_not, ← missing, not_not]
  · have absent := automaton.outside state member symbol known
    rw [Table.get?_eq_none_iff] at absent
    exact iff_of_false absent fun both => known both.1

/-- The initial state is the only state that is marked as initial. -/
theorem isInitial_iff_eq (automaton : SubsetAutomaton nfa alphabet policy dfa) {other : DFA.State}
    (member : state ∈ dfa.states) (isInitial : dfa.initial = some state.label)
    (present : other ∈ dfa.states) : other.isInitial = true ↔ other = state := by
  rw [automaton.isInitial_iff other present, isInitial, Option.some.injEq]
  constructor
  · intro same
    exact DFA.eq_of_label_eq automaton.labels_nodup present member same.symm
  · rintro rfl
    rfl

/-- A transition on any symbol leads to the state of all targets. -/
theorem exists_target (automaton : SubsetAutomaton nfa alphabet policy dfa)
    (member : state ∈ dfa.states) {symbol : Symbol} {label : Label}
    (linked : state.transitions.get? symbol = some label) :
    ∃ other ∈ dfa.states, other.label = label ∧
      NameSet.ofList other.subset = nfa.targetsOf state.subset symbol := by
  by_cases known : symbol ∈ alphabet
  · exact automaton.target state member symbol known label linked
  · rw [automaton.outside state member symbol known] at linked
    contradiction

end SubsetAutomaton

namespace NFA

variable {nfa : NFA} {config : Config} {dfa : DFA}

/-- A conversion that succeeds gives exactly the accessible automaton of subsets. -/
theorem convert_accessible (converted : (nfa.convert config).result = .ok dfa) :
    AccessibleAutomaton nfa config dfa := by
  obtain ⟨_, whole, made, rfl⟩ := convert_eq_ok_iff.mp converted
  have wholeAutomaton := SubsetConstruction.subsetAutomaton_of_overSubsets made
  have automaton := wholeAutomaton.reachablePart
  have policy_eq : whole.policy = config.policy := SubsetConstruction.policy_of_overSubsets made
  have ordered : (whole.reachablePart.states.map (·.subset)).Sublist (nfa.subsets config.policy) :=
    ((DFA.states_reachablePart_sublist whole).map _).trans
      (SubsetConstruction.subsets_sublist_of_overSubsets made)
  have declared : ∀ state ∈ whole.reachablePart.states,
      state.subset.Sublist nfa.states.eraseDups := fun state member =>
    (Subset.mem_enumerate.mp (ordered.subset (List.mem_map_of_mem member))).1
  refine
    { alphabet_eq := automaton.alphabet_eq
      policy_eq := policy_eq
      ordered := ordered
      subsets_nodup := (Subset.nodup_enumerate _ _).sublist ordered
      labels_nodup := automaton.labels_nodup
      declared := declared
      sound := ?_
      complete := fun word known left => automaton.exists_mem_of_word known left
      initial := ?_
      isFinal_iff := ?_
      finals_eq := automaton.finals_eq
      hasTransition_iff := fun state member symbol => automaton.mem_keys_iff member symbol
      target := fun state member symbol label linked => automaton.exists_target member linked }
  · intro state member
    refine ⟨wholeAutomaton.exists_word_of_mem member, fun sparse empty => ?_⟩
    exact automaton.nonempty sparse state member (NameSet.ofList_eq_empty_iff.mpr empty)
  · obtain ⟨state, member, isInitial, members⟩ := automaton.initial
    have alone := Subset.eq_singleton_of_sublist (declared state member) members
    exact ⟨state, member, alone, isInitial,
      fun other present => automaton.isInitial_iff_eq member isInitial present⟩
  · intro state member
    simpa [DFA.State.members] using automaton.isFinal_iff state member

/-- A state that is declared twice, two edges on one symbol and a symbol without edges. -/
private def branching : NFA where
  states := ["A", "B", "A"]
  initial := "A"
  finals := ["B"]
  edges := Table.ofList [(("A", "0"), NameSet.ofList ["A", "B"]), (("B", "1"), NameSet.ofList ["A"])]
  sources_declared := by decide +kernel

private def totalConfig : Config where
  alphabet := ["1", "0", "2"]
  policy := .total
  strict := true
  maxStates := some 3
  alphabet_ne_nil := by decide
  alphabet_nodup := by decide
  maxStates_pos := by decide

theorem convert_accessible_branching :
    ∃ dfa, (branching.convert totalConfig).result = .ok dfa ∧
      AccessibleAutomaton branching totalConfig dfa := by
  have within : ¬ branching.Exceeds totalConfig := by
    rintro ⟨limit, ⟨⟩, more⟩
    exact absurd more (by decide)
  have inside : ¬ branching.LeadsOutside totalConfig.alphabet := by
    have declared : ∀ state ∈ branching.states, ∀ symbol ∈ totalConfig.alphabet,
        ∀ target ∈ (branching.targets state symbol).toList, target ∈ branching.states := by
      decide +kernel
    rintro ⟨state, member, symbol, known, target, edge, undeclared⟩
    exact undeclared (declared state member symbol known target edge)
  obtain ⟨dfa, converted⟩ := exists_convert within (by decide) inside
  exact ⟨dfa, converted, convert_accessible converted⟩

end NFA

end Determinizer
