import Determinizer.Conversion
import Determinizer.Proofs.Conversion.Pruning

/-! # How a conversion ends

A conversion that is not stopped by its limit ends as the construction over all subsets does, with
the reachable part for its result. The construction finds the empty subset where it needs it, the
initial state if it is declared, and all targets if they are declared.
-/

namespace Determinizer.NFA

variable {nfa : NFA} {config : Config} {dfa : DFA}

/-- There are more declared states than the settings allow. -/
def Exceeds (nfa : NFA) (config : Config) : Prop :=
  ∃ limit, config.maxStates = some limit ∧ limit < nfa.states.length

/-- A declared state has a target on a symbol of the alphabet that is not declared. -/
def LeadsOutside (nfa : NFA) (alphabet : List Symbol) : Prop :=
  ∃ state ∈ nfa.states, ∃ symbol ∈ alphabet, ∃ target ∈ nfa.targets state symbol,
    target ∉ nfa.states

instance (nfa : NFA) (alphabet : List Symbol) : Decidable (nfa.LeadsOutside alphabet) :=
  inferInstanceAs (Decidable (∃ state ∈ nfa.states, ∃ symbol ∈ alphabet,
    ∃ target ∈ (nfa.targets state symbol).toList, target ∉ nfa.states))

theorem result_convert_of_exceeds {limit : Nat} (limited : config.maxStates = some limit)
    (exceeds : limit < nfa.states.length) :
    (nfa.convert config).result = .error (.tooManyStates nfa.states.length limit) := by
  simp only [convert, limited, if_pos exceeds]
  rfl

/-- Within the limit, a conversion ends as the construction does. -/
theorem result_convert_of_not_exceeds (within : ¬ nfa.Exceeds config) :
    (nfa.convert config).result =
      (nfa.overSubsets (nfa.subsets config.policy) config.alphabet config.policy).map
        DFA.reachablePart := by
  have unguarded : (nfa.convert config).result =
      ((nfa.determinize (nfa.subsets config.policy) config.alphabet config.policy) >>=
        fun dfa => dfa.prune).result := by
    simp only [convert]
    cases limited : config.maxStates with
    | none => exact Outcome.result_report_bind ..
    | some limit =>
      have small : ¬ limit < nfa.states.length := fun exceeds => within ⟨limit, limited, exceeds⟩
      simp only [if_neg small]
      exact Outcome.result_report_bind ..
  rw [unguarded, Outcome.result_bind, result_determinize]
  cases made : nfa.overSubsets (nfa.subsets config.policy) config.alphabet config.policy with
  | error cause => rfl
  | ok whole =>
    exact (SubsetConstruction.subsetAutomaton_of_overSubsets made).result_prune

theorem convert_eq_ok_iff : (nfa.convert config).result = .ok dfa ↔
    ¬ nfa.Exceeds config ∧
      ∃ whole, nfa.overSubsets (nfa.subsets config.policy) config.alphabet config.policy =
        .ok whole ∧ dfa = whole.reachablePart := by
  by_cases exceeds : nfa.Exceeds config
  · obtain ⟨limit, limited, more⟩ := exceeds
    rw [result_convert_of_exceeds limited more]
    refine iff_of_false (by simp) fun both => both.1 ⟨limit, limited, more⟩
  · rw [result_convert_of_not_exceeds exceeds, and_iff_right exceeds]
    cases nfa.overSubsets (nfa.subsets config.policy) config.alphabet config.policy with
    | error cause => simp [Except.map]
    | ok whole => simp [Except.map, eq_comm]

/-- What a conversion gives has states that stand for sets of states. -/
theorem subsetAutomaton_of_convert (converted : (nfa.convert config).result = .ok dfa) :
    SubsetAutomaton nfa config.alphabet config.policy dfa := by
  obtain ⟨_, whole, made, rfl⟩ := convert_eq_ok_iff.mp converted
  exact (SubsetConstruction.subsetAutomaton_of_overSubsets made).reachablePart

/-- The states of the result keep the order in which subsets are listed. -/
theorem subsets_sublist_of_convert (converted : (nfa.convert config).result = .ok dfa) :
    (dfa.states.map (·.subset)).Sublist (nfa.subsets config.policy) := by
  obtain ⟨_, whole, made, rfl⟩ := convert_eq_ok_iff.mp converted
  exact ((DFA.states_reachablePart_sublist whole).map _).trans
    (SubsetConstruction.subsets_sublist_of_overSubsets made)

/-- Each subset is a state at most once. -/
theorem subsets_nodup_of_convert (converted : (nfa.convert config).result = .ok dfa) :
    (dfa.states.map (·.subset)).Nodup :=
  (Subset.nodup_enumerate _ _).sublist (subsets_sublist_of_convert converted)

/-- Each state of the result has its members in the order in which they are declared. -/
theorem subset_sublist_of_convert (converted : (nfa.convert config).result = .ok dfa)
    {state : DFA.State} (member : state ∈ dfa.states) :
    state.subset.Sublist nfa.states.eraseDups :=
  (Subset.mem_enumerate.mp
    ((subsets_sublist_of_convert converted).subset (List.mem_map_of_mem member))).1

/-- Some word leads to each state of the result. -/
theorem exists_word_of_convert (converted : (nfa.convert config).result = .ok dfa)
    {state : DFA.State} (member : state ∈ dfa.states) :
    ∃ word, (∀ symbol ∈ word, symbol ∈ config.alphabet) ∧
      state.members = nfa.run {nfa.initial} word := by
  obtain ⟨_, whole, made, rfl⟩ := convert_eq_ok_iff.mp converted
  exact (SubsetConstruction.subsetAutomaton_of_overSubsets made).exists_word_of_mem member

/-- States of two results that stand for the same states have the same subset. -/
theorem subset_eq_of_members_eq (converted : (nfa.convert config).result = .ok dfa)
    {config' : Config} {dfa' : DFA} (converted' : (nfa.convert config').result = .ok dfa')
    {state other : DFA.State} (member : state ∈ dfa.states) (member' : other ∈ dfa'.states)
    (same : state.members = other.members) : state.subset = other.subset :=
  Subset.eq_of_members_eq (subset_sublist_of_convert converted member)
    (subset_sublist_of_convert converted' member') same

/-- The run of some word ends in each state of the result. -/
theorem exists_run?_of_convert (converted : (nfa.convert config).result = .ok dfa)
    {state : DFA.State} (member : state ∈ dfa.states) :
    ∃ word, (∀ symbol ∈ word, symbol ∈ config.alphabet) ∧ dfa.run? word = some state := by
  have automaton := subsetAutomaton_of_convert converted
  obtain ⟨word, inside, stands⟩ := exists_word_of_convert converted member
  refine ⟨word, inside, ?_⟩
  cases ended : dfa.run? word with
  | none =>
    obtain ⟨sparse, empty⟩ := (automaton.run?_eq_none_iff inside).mp ended
    exact absurd (stands.trans empty) (automaton.nonempty sparse state member)
  | some last =>
    obtain ⟨present, reached⟩ := automaton.run?_members inside ended
    have same := subset_eq_of_members_eq converted converted present member
      (reached.trans stands.symm)
    rw [List.inj_on_of_nodup_map (subsets_nodup_of_convert converted) present member same]

end Determinizer.NFA
