import Determinizer.Proofs.DFA.ReachablePart
import Determinizer.Proofs.SubsetConstruction.Simulation

/-! # Pruning keeps the meaning of states

A transition of a reachable state on a symbol of the alphabet leads to a reachable state. The
reachable part of an automaton whose states stand for sets of states is therefore such an automaton
again, it has no dangling transitions, and some word leads to each of its states.
-/

namespace Determinizer

namespace SubsetAutomaton

variable {nfa : NFA} {alphabet : List Symbol} {policy : Policy} {dfa : DFA} {state : DFA.State}
  {symbol : Symbol} {label : Label}

/-- A transition from a reachable state leads to a reachable state. -/
theorem reachable_of_linked (automaton : SubsetAutomaton nfa alphabet policy dfa)
    (member : state ∈ dfa.reachablePart.states) (known : symbol ∈ alphabet)
    (linked : state.transitions.get? symbol = some label) : dfa.Reachable label := by
  obtain ⟨inside, reached⟩ := DFA.mem_states_reachablePart.mp member
  refine .step reached ?_ (automaton.alphabet_eq ▸ known) linked
  rw [DFA.carrier?_eq_state? automaton.labels_nodup]
  exact DFA.state?_label automaton.labels_nodup inside

/-- The reachable part again has states that stand for sets of states. -/
theorem reachablePart (automaton : SubsetAutomaton nfa alphabet policy dfa) :
    SubsetAutomaton nfa alphabet policy dfa.reachablePart where
  alphabet_eq := automaton.alphabet_eq
  labels_nodup := automaton.labels_nodup.sublist (DFA.labels_reachablePart_sublist dfa)
  finals_eq := DFA.finalLabels_reachablePart automaton.finals_eq
  initial := by
    obtain ⟨state, member, isInitial, members⟩ := automaton.initial
    exact ⟨state, DFA.mem_states_reachablePart.mpr ⟨member, .initial isInitial⟩, isInitial, members⟩
  isInitial_iff := fun state member =>
    automaton.isInitial_iff state (DFA.mem_states_reachablePart.mp member).1
  isFinal_iff := fun state member =>
    automaton.isFinal_iff state (DFA.mem_states_reachablePart.mp member).1
  nonempty := fun sparse state member =>
    automaton.nonempty sparse state (DFA.mem_states_reachablePart.mp member).1
  missing_iff := fun state member =>
    automaton.missing_iff state (DFA.mem_states_reachablePart.mp member).1
  target := by
    intro state member symbol known label linked
    have reached := automaton.reachable_of_linked member known linked
    obtain ⟨inside, _⟩ := DFA.mem_states_reachablePart.mp member
    obtain ⟨other, present, rfl, stands⟩ := automaton.target state inside symbol known label linked
    exact ⟨other, DFA.mem_states_reachablePart.mpr ⟨present, reached⟩, rfl, stands⟩
  outside := fun state member =>
    automaton.outside state (DFA.mem_states_reachablePart.mp member).1

/-- Pruning such an automaton does not fail. -/
theorem result_prune (automaton : SubsetAutomaton nfa alphabet policy dfa) :
    dfa.prune.result = .ok dfa.reachablePart := by
  rw [DFA.result_prune, automaton.reachablePart.dangling_eq_nil]

/-- Some word leads to each reachable label. -/
theorem exists_word_of_reachable (automaton : SubsetAutomaton nfa alphabet policy dfa)
    (reached : dfa.Reachable label) :
    ∃ word, (∀ symbol ∈ word, symbol ∈ alphabet) ∧
      ∃ state, dfa.run? word = some state ∧ state.label = label := by
  induction reached with
  | initial isInitial =>
    obtain ⟨start, member, startInitial, _⟩ := automaton.initial
    have found := DFA.state?_label automaton.labels_nodup member
    rw [startInitial, Option.some.injEq] at isInitial
    refine ⟨[], by simp, start, ?_, isInitial⟩
    rw [DFA.run?, startInitial, Option.bind_some, DFA.follow?_nil, found]
  | @step label target state symbol _ carried known linked ih =>
    obtain ⟨word, inside, before, ended, rfl⟩ := ih
    rw [automaton.alphabet_eq] at known
    obtain ⟨present, _⟩ := automaton.run?_members inside ended
    rw [DFA.carrier?_eq_state? automaton.labels_nodup, DFA.state?_label automaton.labels_nodup present,
      Option.some.injEq] at carried
    subst carried
    obtain ⟨other, member, rfl, _⟩ := automaton.target before present symbol known _ linked
    refine ⟨word ++ [symbol], ?_, other, ?_, rfl⟩
    · exact List.forall_mem_append.mpr ⟨inside, by simpa using known⟩
    · obtain ⟨start, _, _, runs⟩ := automaton.run?_eq
      rw [runs] at ended ⊢
      rw [DFA.follow?_append, ended, Option.bind_some,
        DFA.follow?_cons automaton.labels_nodup present, linked, Option.bind_some, DFA.follow?_nil]
      exact DFA.state?_label automaton.labels_nodup member

/-- Each state of the reachable part stands for the states that some word leads to. -/
theorem exists_word_of_mem (automaton : SubsetAutomaton nfa alphabet policy dfa)
    (member : state ∈ dfa.reachablePart.states) :
    ∃ word, (∀ symbol ∈ word, symbol ∈ alphabet) ∧ state.members = nfa.run {nfa.initial} word := by
  obtain ⟨inside, reached⟩ := DFA.mem_states_reachablePart.mp member
  obtain ⟨word, known, last, ended, same⟩ := automaton.exists_word_of_reachable reached
  obtain ⟨present, stands⟩ := automaton.run?_members known ended
  rw [← DFA.eq_of_label_eq automaton.labels_nodup present inside same]
  exact ⟨word, known, stands⟩

/-- The states that a word leads to are the members of some state, unless a sparse automaton has
none left. -/
theorem exists_mem_of_word (automaton : SubsetAutomaton nfa alphabet policy dfa)
    {word : List Symbol} (known : ∀ symbol ∈ word, symbol ∈ alphabet)
    (left : policy = .total ∨ nfa.run {nfa.initial} word ≠ ∅) :
    ∃ state ∈ dfa.states, state.members = nfa.run {nfa.initial} word := by
  cases ended : dfa.run? word with
  | none =>
    obtain ⟨rfl, empty⟩ := (automaton.run?_eq_none_iff known).mp ended
    rcases left with total | nonempty
    · contradiction
    · exact absurd empty nonempty
  | some state => exact ⟨state, automaton.run?_members known ended⟩

end SubsetAutomaton

end Determinizer
