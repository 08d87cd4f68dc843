import Determinizer.Proofs.DFA.Run
import Determinizer.Proofs.NFA.Path

/-! # Deterministic automata whose states stand for sets of states

Each state of such an automaton stands for the set of names in its subset. A transition leads to a
state that stands for all targets of the set together; a sparse automaton has none where there are
no targets. A run therefore ends in a state that stands for the run of the nondeterministic
automaton, and is undefined exactly where a sparse automaton has run out of targets.
-/

namespace Determinizer

/-- The set of names that a state stands for. -/
def DFA.State.members (state : DFA.State) : NameSet := NameSet.ofList state.subset

/-- The states stand for sets of states of `nfa`, and the transitions on the symbols of `alphabet`
follow its edges. -/
structure SubsetAutomaton (nfa : NFA) (alphabet : List Symbol) (policy : Policy) (dfa : DFA) :
    Prop where
  alphabet_eq : dfa.alphabet = alphabet
  labels_nodup : dfa.labels.Nodup
  finals_eq : dfa.finals = DFA.finalLabels dfa.states
  initial : ∃ state ∈ dfa.states, dfa.initial = some state.label ∧ state.members = {nfa.initial}
  isInitial_iff : ∀ state ∈ dfa.states, state.isInitial = true ↔ dfa.initial = some state.label
  isFinal_iff : ∀ state ∈ dfa.states, state.isFinal = true ↔ ∃ name ∈ state.members, name ∈ nfa.finals
  nonempty : policy = .sparse → ∀ state ∈ dfa.states, state.members ≠ ∅
  missing_iff : ∀ state ∈ dfa.states, ∀ symbol ∈ alphabet, state.transitions.get? symbol = none ↔
    policy = .sparse ∧ nfa.targetsOf state.subset symbol = ∅
  target : ∀ state ∈ dfa.states, ∀ symbol ∈ alphabet, ∀ label,
    state.transitions.get? symbol = some label →
      ∃ other ∈ dfa.states, other.label = label ∧ other.members = nfa.targetsOf state.subset symbol
  outside : ∀ state ∈ dfa.states, ∀ symbol, symbol ∉ alphabet → state.transitions.get? symbol = none

namespace SubsetAutomaton

variable {nfa : NFA} {alphabet : List Symbol} {policy : Policy} {dfa : DFA} {state : DFA.State}
  {symbol : Symbol} {word : List Symbol}

theorem targetsOf_members (state : DFA.State) (symbol : Symbol) :
    nfa.targetsOf state.members.toList symbol = nfa.targetsOf state.subset symbol :=
  NFA.targetsOf_congr (NameSet.ofList_toList _) symbol

/-- A total automaton has a transition from every state on every symbol. -/
theorem exists_get?_eq_some (automaton : SubsetAutomaton nfa alphabet policy dfa)
    (total : policy ≠ .sparse) (member : state ∈ dfa.states) (known : symbol ∈ alphabet) :
    ∃ label, state.transitions.get? symbol = some label := by
  rw [← Option.ne_none_iff_exists', Ne, automaton.missing_iff state member symbol known]
  exact fun both => total both.1

/-- A run ends in a state that stands for the run of the nondeterministic automaton. -/
theorem follow?_members (automaton : SubsetAutomaton nfa alphabet policy dfa)
    (member : state ∈ dfa.states) (inside : ∀ symbol ∈ word, symbol ∈ alphabet) {last : DFA.State}
    (ended : dfa.follow? state.label word = some last) :
    last ∈ dfa.states ∧ last.members = nfa.run state.members word := by
  induction word generalizing state with
  | nil =>
    rw [DFA.follow?_nil, DFA.state?_label automaton.labels_nodup member, Option.some.injEq] at ended
    subst ended
    exact ⟨member, rfl⟩
  | cons symbol rest ih =>
    obtain ⟨known, later⟩ := List.forall_mem_cons.mp inside
    rw [DFA.follow?_cons automaton.labels_nodup member, Option.bind_eq_some_iff] at ended
    obtain ⟨label, linked, ended⟩ := ended
    obtain ⟨other, present, rfl, stands⟩ := automaton.target state member symbol known label linked
    rw [NFA.run_cons, targetsOf_members, ← stands]
    exact ih present later ended

/-- A run is undefined exactly where a sparse automaton has run out of targets. -/
theorem follow?_eq_none_iff (automaton : SubsetAutomaton nfa alphabet policy dfa)
    (member : state ∈ dfa.states) (inside : ∀ symbol ∈ word, symbol ∈ alphabet) :
    dfa.follow? state.label word = none ↔
      policy = .sparse ∧ nfa.run state.members word = ∅ := by
  induction word generalizing state with
  | nil =>
    rw [DFA.follow?_nil, DFA.state?_label automaton.labels_nodup member, NFA.run_nil]
    apply iff_of_false (Option.some_ne_none _)
    rintro ⟨sparse, empty⟩
    exact automaton.nonempty sparse state member empty
  | cons symbol rest ih =>
    obtain ⟨known, later⟩ := List.forall_mem_cons.mp inside
    rw [DFA.follow?_cons automaton.labels_nodup member, NFA.run_cons, targetsOf_members]
    cases linked : state.transitions.get? symbol with
    | none =>
      obtain ⟨sparse, empty⟩ := (automaton.missing_iff state member symbol known).mp linked
      simp [sparse, empty]
    | some label =>
      obtain ⟨other, present, rfl, stands⟩ :=
        automaton.target state member symbol known label linked
      rw [Option.bind_some, ih present later, stands]

theorem run?_eq (automaton : SubsetAutomaton nfa alphabet policy dfa) :
    ∃ state ∈ dfa.states, state.members = {nfa.initial} ∧
      ∀ word, dfa.run? word = dfa.follow? state.label word := by
  obtain ⟨state, member, isInitial, stands⟩ := automaton.initial
  exact ⟨state, member, stands, fun word => by rw [DFA.run?, isInitial, Option.bind_some]⟩

/-- The run of a word ends in a state that stands for the states which the word leads to. -/
theorem run?_members (automaton : SubsetAutomaton nfa alphabet policy dfa)
    (inside : ∀ symbol ∈ word, symbol ∈ alphabet) (ended : dfa.run? word = some state) :
    state ∈ dfa.states ∧ state.members = nfa.run {nfa.initial} word := by
  obtain ⟨start, member, stands, runs⟩ := automaton.run?_eq
  rw [← stands]
  exact automaton.follow?_members member inside (runs word ▸ ended)

theorem run?_eq_none_iff (automaton : SubsetAutomaton nfa alphabet policy dfa)
    (inside : ∀ symbol ∈ word, symbol ∈ alphabet) :
    dfa.run? word = none ↔ policy = .sparse ∧ nfa.run {nfa.initial} word = ∅ := by
  obtain ⟨start, member, stands, runs⟩ := automaton.run?_eq
  rw [runs, automaton.follow?_eq_none_iff member inside, stands]

/-- Every transition leads to a state. -/
theorem dangling_eq_nil (automaton : SubsetAutomaton nfa alphabet policy dfa) :
    dfa.dangling = [] := by
  rw [List.eq_nil_iff_forall_not_mem]
  intro transition member
  obtain ⟨listed, missing⟩ := DFA.mem_dangling.mp member
  obtain ⟨state, present, ofState⟩ := List.mem_flatMap.mp listed
  obtain ⟨_, known, linked⟩ := DFA.mem_transitionsOn.mp ofState
  rw [automaton.alphabet_eq] at known
  obtain ⟨other, inside, same, _⟩ := automaton.target state present _ known _ linked
  exact missing (same ▸ DFA.label_mem_labels inside)

/-- A run on a word with a symbol that is not in the alphabet is undefined. -/
theorem follow?_eq_none_of_not_mem (automaton : SubsetAutomaton nfa alphabet policy dfa)
    (member : state ∈ dfa.states) (foreign : symbol ∈ word) (outside : symbol ∉ alphabet) :
    dfa.follow? state.label word = none := by
  induction word generalizing state with
  | nil => simp at foreign
  | cons first rest ih =>
    rw [DFA.follow?_cons automaton.labels_nodup member]
    by_cases known : first ∈ alphabet
    · have later : symbol ∈ rest := by
        rcases List.mem_cons.mp foreign with rfl | later
        · exact absurd known outside
        · exact later
      cases linked : state.transitions.get? first with
      | none => rfl
      | some label =>
        obtain ⟨other, present, rfl, _⟩ := automaton.target state member first known label linked
        rw [Option.bind_some]
        exact ih present later
    · rw [automaton.outside state member first known, Option.bind_none]

/-- Exactly the words over the alphabet that the nondeterministic automaton accepts are accepted. -/
theorem accepts_iff (automaton : SubsetAutomaton nfa alphabet policy dfa) :
    dfa.Accepts word ↔ (∀ symbol ∈ word, symbol ∈ alphabet) ∧ nfa.Accepts word := by
  by_cases inside : ∀ symbol ∈ word, symbol ∈ alphabet
  · rw [and_iff_right inside, NFA.accepts_iff_run]
    constructor
    · rintro ⟨state, ended, isFinal⟩
      obtain ⟨member, stands⟩ := automaton.run?_members inside ended
      obtain ⟨name, reached, final⟩ := (automaton.isFinal_iff state member).mp isFinal
      exact ⟨name, final, stands ▸ reached⟩
    · rintro ⟨name, final, reached⟩
      cases ended : dfa.run? word with
      | none =>
        rw [((automaton.run?_eq_none_iff inside).mp ended).2] at reached
        exact absurd reached (NameSet.not_mem_empty name)
      | some state =>
        obtain ⟨member, stands⟩ := automaton.run?_members inside ended
        exact ⟨state, ended,
          (automaton.isFinal_iff state member).mpr ⟨name, stands.symm ▸ reached, final⟩⟩
  · refine iff_of_false ?_ fun both => inside both.1
    rintro ⟨state, ended, _⟩
    obtain ⟨start, member, _, runs⟩ := automaton.run?_eq
    obtain ⟨symbol, foreign, outside⟩ : ∃ symbol ∈ word, symbol ∉ alphabet := by
      simpa using inside
    rw [runs, automaton.follow?_eq_none_of_not_mem member foreign outside] at ended
    contradiction

end SubsetAutomaton

end Determinizer
