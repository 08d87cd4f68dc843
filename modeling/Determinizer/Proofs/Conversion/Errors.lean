import Determinizer.Proofs.Conversion.Result
import Determinizer.Proofs.NFA.Reading

/-! # The errors of a conversion

All sets of declared states are listed, so a set of targets is missing from the list only if one of
the targets is not declared. A conversion therefore fails in three ways: the limit, an initial state
that is not declared, or an edge that leads to a state that is not declared. An automaton that was
read from a text has neither of the last two.
-/

namespace Determinizer

/-- The error tells of a broken invariant of the automaton that is made. -/
def Error.isDefect : Error → Bool
  | .noEmptySubset | .unlistedSubset _ | .danglingTransitions _ => true
  | _ => false

namespace NFA

open SubsetConstruction

variable {nfa : NFA} {config : Config} {policy : Policy} {alphabet : List Symbol} {names : NameSet}

/-- Exactly the sets of declared states are listed, the empty one only for a total automaton. -/
theorem exists_subset_iff :
    (∃ subset ∈ nfa.subsets policy, NameSet.ofList subset = names) ↔
      (∀ name ∈ names, name ∈ nfa.states) ∧ (policy = .total ∨ names ≠ ∅) := by
  simp only [subsets, Subset.mem_enumerate_and_members_iff, exists_eq_left, beq_iff_eq]

theorem hasDead_subsets : HasDead policy (nfa.subsets policy) := fun total =>
  Subset.exists_index_iff.mpr (exists_subset_iff.mpr ⟨by simp, .inl total⟩)

theorem exists_initial_iff :
    (∃ place, (Subset.index (nfa.subsets policy))[({nfa.initial} : NameSet)]? = some place) ↔
      nfa.initial ∈ nfa.states := by
  have filled := NameSet.singleton_ne_empty nfa.initial
  rw [Subset.exists_index_iff, exists_subset_iff]
  simp [filled]

/-- Targets are all listed exactly if no edge leads to a state that is not declared. -/
theorem listed_iff :
    (∀ subset ∈ nfa.subsets policy, ∀ symbol ∈ alphabet,
      Listed nfa (Subset.index (nfa.subsets policy)) subset symbol) ↔
        ¬ nfa.LeadsOutside alphabet := by
  constructor
  · rintro listed ⟨state, declared, symbol, known, target, edge, undeclared⟩
    have alone : ∃ subset ∈ nfa.subsets policy, NameSet.ofList subset = {state} :=
      exists_subset_iff.mpr ⟨by simpa using declared, .inr (NameSet.singleton_ne_empty state)⟩
    obtain ⟨subset, member, members⟩ := alone
    have inside : state ∈ subset := by
      rw [← NameSet.mem_ofList, members]
      exact NameSet.mem_singleton.mpr rfl
    have leads : target ∈ nfa.targetsOf subset symbol := mem_targetsOf.mpr ⟨state, inside, edge⟩
    rcases listed subset member symbol known with empty | present
    · exact NameSet.ne_empty_iff.mpr ⟨target, leads⟩ empty
    · rw [Subset.exists_index_iff, exists_subset_iff] at present
      exact undeclared (present.1 target leads)
  · intro within subset member symbol known
    apply or_iff_not_imp_left.mpr
    intro filled
    rw [Subset.exists_index_iff, exists_subset_iff]
    refine ⟨fun target leads => ?_, .inr filled⟩
    obtain ⟨state, inside, edge⟩ := mem_targetsOf.mp leads
    by_contra undeclared
    have declared : state ∈ nfa.states :=
      List.mem_eraseDups.mp ((Subset.mem_enumerate.mp member).1.subset inside)
    exact within ⟨state, declared, symbol, known, target, edge, undeclared⟩

/-- The initial state is looked at before any targets. -/
theorem overSubsets_subsets_of_undeclared (undeclared : nfa.initial ∉ nfa.states) :
    nfa.overSubsets (nfa.subsets policy) alphabet policy = .error (.noInitialSubset nfa.initial) := by
  apply overSubsets_of_no_initial hasDead_subsets
  rw [Option.eq_none_iff_forall_ne_some, ← not_exists, exists_initial_iff]
  exact undeclared

theorem overSubsets_subsets_of_leadsOutside (declared : nfa.initial ∈ nfa.states)
    (outside : nfa.LeadsOutside alphabet) :
    ∃ names, nfa.overSubsets (nfa.subsets policy) alphabet policy =
      .error (.unlistedSubset names) := by
  obtain ⟨place, found⟩ := exists_initial_iff.mpr declared
  exact overSubsets_of_not_listed hasDead_subsets found fun listed => listed_iff.mp listed outside

theorem exists_overSubsets_subsets (declared : nfa.initial ∈ nfa.states)
    (inside : ¬ nfa.LeadsOutside alphabet) :
    ∃ dfa, nfa.overSubsets (nfa.subsets policy) alphabet policy = .ok dfa := by
  obtain ⟨place, found⟩ := exists_initial_iff.mpr declared
  exact ⟨_, overSubsets_of_found ⟨hasDead_subsets, found, listed_iff.mpr inside⟩⟩

/-- A conversion is stopped by its limit, by its initial state or by a target, in this order, or
gives an automaton. -/
theorem result_convert_cases (nfa : NFA) (config : Config) :
    (nfa.Exceeds config ∧
      ∃ limit, (nfa.convert config).result = .error (.tooManyStates nfa.states.length limit)) ∨
    ¬ nfa.Exceeds config ∧
      (nfa.initial ∉ nfa.states ∧
          (nfa.convert config).result = .error (.noInitialSubset nfa.initial) ∨
        nfa.initial ∈ nfa.states ∧
          (nfa.LeadsOutside config.alphabet ∧
              (∃ names, (nfa.convert config).result = .error (.unlistedSubset names)) ∨
            ¬ nfa.LeadsOutside config.alphabet ∧ ∃ dfa, (nfa.convert config).result = .ok dfa)) := by
  by_cases exceeds : nfa.Exceeds config
  · obtain ⟨limit, limited, more⟩ := exceeds
    exact .inl ⟨⟨limit, limited, more⟩, limit, result_convert_of_exceeds limited more⟩
  refine .inr ⟨exceeds, ?_⟩
  rw [result_convert_of_not_exceeds exceeds]
  by_cases declared : nfa.initial ∈ nfa.states
  · refine .inr ⟨declared, ?_⟩
    by_cases outside : nfa.LeadsOutside config.alphabet
    · obtain ⟨names, failed⟩ := overSubsets_subsets_of_leadsOutside declared outside
      exact .inl ⟨outside, names, by rw [failed]; rfl⟩
    · obtain ⟨dfa, made⟩ := exists_overSubsets_subsets declared outside
      exact .inr ⟨outside, dfa.reachablePart, by rw [made]; rfl⟩
  · exact .inl ⟨declared, by rw [overSubsets_subsets_of_undeclared declared]; rfl⟩

/-- A conversion that nothing stops gives an automaton. -/
theorem exists_convert (within : ¬ nfa.Exceeds config) (declared : nfa.initial ∈ nfa.states)
    (inside : ¬ nfa.LeadsOutside config.alphabet) : ∃ dfa, (nfa.convert config).result = .ok dfa := by
  rcases result_convert_cases nfa config with ⟨exceeds, _⟩ | ⟨_, ⟨undeclared, _⟩ | ⟨_, rest⟩⟩
  · exact absurd exceeds within
  · exact absurd declared undeclared
  · rcases rest with ⟨outside, _⟩ | ⟨_, made⟩
    · exact absurd outside inside
    · exact made

theorem exists_convert_iff : (∃ dfa, (nfa.convert config).result = .ok dfa) ↔
    ¬ nfa.Exceeds config ∧ nfa.initial ∈ nfa.states ∧ ¬ nfa.LeadsOutside config.alphabet := by
  refine ⟨?_, fun ⟨within, declared, inside⟩ => exists_convert within declared inside⟩
  rintro ⟨dfa, converted⟩
  rcases result_convert_cases nfa config with ⟨_, _, ended⟩ | ⟨within, ⟨_, ended⟩ |
    ⟨declared, ⟨_, _, ended⟩ | ⟨inside, _⟩⟩⟩
  · simp [converted] at ended
  · simp [converted] at ended
  · simp [converted] at ended
  · exact ⟨within, declared, inside⟩

/-- An automaton that was read from a text is only stopped by the limit. -/
theorem exists_convert_of_ofText {strict : Bool} {text : String}
    (read : (ofText strict text).result = .ok nfa) (within : ¬ nfa.Exceeds config) :
    ∃ dfa, (nfa.convert config).result = .ok dfa := by
  obtain ⟨first, second, third, lines, _, _, described⟩ := describes_of_ofText read
  apply exists_convert within described.initial_declared
  rintro ⟨state, _, symbol, _, target, edge, undeclared⟩
  exact undeclared (described.targets_declared edge)

theorem eq_tooManyStates_of_ofText {strict : Bool} {text : String} {error : Error}
    (read : (ofText strict text).result = .ok nfa)
    (failed : (nfa.convert config).result = .error error) :
    ∃ limit, config.maxStates = some limit ∧ error = .tooManyStates nfa.states.length limit := by
  by_cases exceeds : nfa.Exceeds config
  · obtain ⟨limit, limited, more⟩ := exceeds
    rw [result_convert_of_exceeds limited more] at failed
    exact ⟨limit, limited, (Except.error.inj failed).symm⟩
  · obtain ⟨dfa, made⟩ := exists_convert_of_ofText read exceeds
    rw [made] at failed
    contradiction

/-- Which error a conversion ends with, if any. No error comes from pruning, all places that are
looked up have rows, and an automaton that was read from a text is only stopped by the limit. -/
theorem convert_ends (nfa : NFA) (config : Config) :
    ((∃ count limit, (nfa.convert config).result = .error (.tooManyStates count limit)) ↔
      nfa.Exceeds config) ∧
    ((∃ name, (nfa.convert config).result = .error (.noInitialSubset name)) ↔
      ¬ nfa.Exceeds config ∧ nfa.initial ∉ nfa.states) ∧
    ((∃ error, (nfa.convert config).result = .error error ∧ error.isDefect = true) ↔
      ¬ nfa.Exceeds config ∧ nfa.initial ∈ nfa.states ∧ nfa.LeadsOutside config.alphabet) ∧
    ((∃ dfa, (nfa.convert config).result = .ok dfa) ↔
      ¬ nfa.Exceeds config ∧ nfa.initial ∈ nfa.states ∧ ¬ nfa.LeadsOutside config.alphabet) ∧
    (∀ transitions, (nfa.convert config).result ≠ .error (.danglingTransitions transitions)) ∧
    (∀ initial, Found nfa config.alphabet config.policy (nfa.subsets config.policy) initial →
      Closed nfa config.alphabet config.policy (nfa.subsets config.policy) initial) ∧
    ∀ strict text, (ofText strict text).result = .ok nfa →
      ∀ error, (nfa.convert config).result = .error error →
        ∃ limit, config.maxStates = some limit ∧ error = .tooManyStates nfa.states.length limit := by
  refine ⟨?_, ?_, ?_, ?_, ?_, fun initial => closed_of_found,
    fun strict text read error failed => eq_tooManyStates_of_ofText read failed⟩
  all_goals
    rcases result_convert_cases nfa config with ⟨exceeds, limit, ended⟩ |
      ⟨within, ⟨undeclared, ended⟩ | ⟨declared, ⟨outside, names, ended⟩ | ⟨inside, dfa, ended⟩⟩⟩
    all_goals simp [*, Error.isDefect]

end NFA

end Determinizer
