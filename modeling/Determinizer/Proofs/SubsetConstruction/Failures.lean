import Determinizer.Proofs.SubsetConstruction.Simulation

/-! # When the construction fails

Over any list of subsets the construction fails for three reasons, which are looked for in this
order: no listed subset is empty and a total automaton needs one, none consists of the initial state
alone, or the targets of a listed subset are not listed. In all other cases there is an automaton.
Whatever is looked up while its states are made is there: each place that becomes a state has a row,
a subset and a label, and so has each place to which its row leads.
-/

namespace Determinizer.SubsetConstruction

/-- A total automaton needs the empty subset, and it is not listed. -/
def LacksEmpty (policy : Policy) (subsets : List Subset) : Prop :=
  policy = .total ∧ ∀ subset ∈ subsets, subset ≠ []

/-- No listed subset has the initial state as its only member. -/
def LacksInitial (nfa : NFA) (subsets : List Subset) : Prop :=
  ∀ subset ∈ subsets, NameSet.ofList subset ≠ {nfa.initial}

/-- A listed subset has targets on a symbol that are the members of no listed subset. -/
def LacksTargets (nfa : NFA) (alphabet : List Symbol) (subsets : List Subset) : Prop :=
  ∃ subset ∈ subsets, subset ≠ [] ∧ ∃ symbol ∈ alphabet, nfa.targetsOf subset symbol ≠ ∅ ∧
    ∀ other ∈ subsets, NameSet.ofList other ≠ nfa.targetsOf subset symbol

/-- Every look-up that is made for the states of rows finds what it looks for. -/
structure LookupsSucceed (subsets : List Subset) (policy : Policy) (initial : Nat)
    (rows : List Row) : Prop where
  /-- The initial place and each place to which a non-empty subset leads have a row. -/
  row : ∀ place ∈ entered initial rows, ∃ row ∈ kept policy initial rows, row.place = place
  subset : ∀ row ∈ kept policy initial rows, subsets[row.place]? = some row.subset
  label : ∀ row ∈ kept policy initial rows, row.place ∈ positions (kept policy initial rows)
  target : ∀ row ∈ kept policy initial rows, ∀ target ∈ row.targets,
    target.2 ∈ positions (kept policy initial rows)

/-- How the construction ends: with the first of three errors whose reason is there, or with an
automaton. -/
structure EndsAsListed (nfa : NFA) (subsets : List Subset) (alphabet : List Symbol)
    (policy : Policy) (result : Except Error DFA) : Prop where
  noEmpty_iff : result = .error .noEmptySubset ↔ LacksEmpty policy subsets
  noInitial_iff : result = .error (.noInitialSubset nfa.initial) ↔
    ¬ LacksEmpty policy subsets ∧ LacksInitial nfa subsets
  unlisted_iff : (∃ names, result = .error (.unlistedSubset names)) ↔
    ¬ LacksEmpty policy subsets ∧ ¬ LacksInitial nfa subsets ∧ LacksTargets nfa alphabet subsets
  /-- The error names targets that are missing from the list. -/
  unlisted_names : ∀ names, result = .error (.unlistedSubset names) →
    names ≠ ∅ ∧ (∀ other ∈ subsets, NameSet.ofList other ≠ names) ∧
      ∃ subset ∈ subsets, ∃ symbol ∈ alphabet, nfa.targetsOf subset symbol = names
  ok_iff : (∃ dfa, result = .ok dfa) ↔
    ¬ LacksEmpty policy subsets ∧ ¬ LacksInitial nfa subsets ∧ ¬ LacksTargets nfa alphabet subsets
  /-- The states are made from rows where nothing that is looked up is missing. -/
  lookups : ∀ dfa, result = .ok dfa → ∃ initial rows,
    (Subset.index subsets)[({nfa.initial} : NameSet)]? = some initial ∧
    SubsetConstruction.rows nfa (Subset.index subsets) (deadPlace? policy subsets)
      alphabet.eraseDups subsets = .ok rows ∧
    dfa = DFA.ofStates alphabet policy (makeStates nfa initial (kept policy initial rows)) ∧
    LookupsSucceed subsets policy initial rows

variable {nfa : NFA} {alphabet : List Symbol} {policy : Policy} {subsets : List Subset}
  {initial : Nat} {names : NameSet} {dfa : DFA}

section Reasons

theorem hasDead_iff : HasDead policy subsets ↔ ¬ LacksEmpty policy subsets := by
  rw [HasDead, Subset.exists_index_iff, LacksEmpty]
  simp only [NameSet.ofList_eq_empty_iff]
  grind

theorem index_initial_eq_none_iff :
    (Subset.index subsets)[({nfa.initial} : NameSet)]? = none ↔ LacksInitial nfa subsets :=
  Subset.index_eq_none_iff

/-- The empty subset has no targets, so it lacks none. -/
theorem listed_iff_not_lacksTargets : (∀ subset ∈ subsets, ∀ symbol ∈ alphabet,
      Listed nfa (Subset.index subsets) subset symbol) ↔ ¬ LacksTargets nfa alphabet subsets := by
  simp only [Listed, Subset.exists_index_iff]
  constructor
  · rintro listed ⟨subset, member, _, symbol, known, filled, missing⟩
    obtain ⟨other, present, members⟩ := (listed subset member symbol known).resolve_left filled
    exact missing other present members
  · intro complete subset member symbol known
    apply or_iff_not_imp_left.mpr
    intro filled
    by_contra missing
    refine complete ⟨subset, member, ?_, symbol, known, filled, fun other present members => ?_⟩
    · rintro rfl
      exact filled (targetsOf_nil symbol)
    · exact missing ⟨other, present, members⟩

/-- The first targets that are missing are those of a listed subset, and are not listed. -/
theorem exists_targets_of_missing? (missing : missing? nfa alphabet subsets = some names) :
    names ≠ ∅ ∧ (∀ other ∈ subsets, NameSet.ofList other ≠ names) ∧
      ∃ subset ∈ subsets, ∃ symbol ∈ alphabet, nfa.targetsOf subset symbol = names := by
  obtain ⟨subset, member, unlisted⟩ := List.exists_of_findSome?_eq_some missing
  obtain ⟨symbol, known, found⟩ := List.exists_of_findSome?_eq_some unlisted
  obtain ⟨notListed, targets⟩ := Option.ite_none_left_eq_some.mp found
  obtain rfl := Option.some.inj targets
  rw [Listed, not_or, Subset.exists_index_iff] at notListed
  obtain ⟨filled, absent⟩ := notListed
  refine ⟨filled, fun other present members => absent ⟨other, present, members⟩, ?_⟩
  exact ⟨subset, member, symbol, List.mem_eraseDups.mp known, rfl⟩

/-- The construction ends in one of four ways, each under a condition of its own. -/
theorem overSubsets_cases (nfa : NFA) (subsets : List Subset) (alphabet : List Symbol)
    (policy : Policy) :
    (LacksEmpty policy subsets ∧
      nfa.overSubsets subsets alphabet policy = .error .noEmptySubset) ∨
    ¬ LacksEmpty policy subsets ∧
      (LacksInitial nfa subsets ∧
          nfa.overSubsets subsets alphabet policy = .error (.noInitialSubset nfa.initial) ∨
        ¬ LacksInitial nfa subsets ∧
          (LacksTargets nfa alphabet subsets ∧
              (∃ names, missing? nfa alphabet subsets = some names ∧
                nfa.overSubsets subsets alphabet policy = .error (.unlistedSubset names)) ∨
            ¬ LacksTargets nfa alphabet subsets ∧
              ∃ dfa, nfa.overSubsets subsets alphabet policy = .ok dfa)) := by
  by_cases lacksEmpty : LacksEmpty policy subsets
  · have noDead : ¬ HasDead policy subsets := fun hasDead => hasDead_iff.mp hasDead lacksEmpty
    exact .inl ⟨lacksEmpty, overSubsets_of_not_hasDead noDead⟩
  refine .inr ⟨lacksEmpty, ?_⟩
  have hasDead : HasDead policy subsets := hasDead_iff.mpr lacksEmpty
  cases found : (Subset.index subsets)[({nfa.initial} : NameSet)]? with
  | none => exact .inl ⟨index_initial_eq_none_iff.mp found, overSubsets_of_no_initial hasDead found⟩
  | some initial =>
    have present : ¬ LacksInitial nfa subsets := by
      rw [← index_initial_eq_none_iff, found]
      exact Option.some_ne_none initial
    refine .inr ⟨present, ?_⟩
    have missing_iff : missing? nfa alphabet subsets = none ↔ ¬ LacksTargets nfa alphabet subsets :=
      missing?_eq_none_iff.trans listed_iff_not_lacksTargets
    rw [overSubsets_eq hasDead found]
    cases missing : missing? nfa alphabet subsets with
    | none => exact .inr ⟨missing_iff.mp missing, _, rfl⟩
    | some names =>
      have lacksTargets : LacksTargets nfa alphabet subsets := by
        by_contra complete
        rw [missing_iff.mpr complete] at missing
        contradiction
      exact .inl ⟨lacksTargets, names, rfl, rfl⟩

end Reasons

section Lookups

theorem rows_of_found (found : Found nfa alphabet policy subsets initial) :
    SubsetConstruction.rows nfa (Subset.index subsets) (deadPlace? policy subsets)
      alphabet.eraseDups subsets = .ok (listedRows nfa alphabet policy subsets) := by
  rw [rows_eq, ← missing?, missing?_eq_none_iff.mpr found.listed]
  rfl

/-- Nothing is missing in the rows that become states. -/
theorem lookupsSucceed_of_found (found : Found nfa alphabet policy subsets initial) :
    LookupsSucceed subsets policy initial (listedRows nfa alphabet policy subsets) where
  row := (closed_of_found found).entered
  subset := by
    intro row isKept
    obtain ⟨subset, place, listed, _, rfl, _⟩ := mem_keptRows.mp isKept
    exact listed
  label := fun row isKept => mem_positions.mpr ⟨row, isKept, rfl⟩
  target := fun row isKept target inRow =>
    mem_positions.mpr ((closed_of_found found).targets row isKept target inRow)

end Lookups

end Determinizer.SubsetConstruction

namespace Determinizer.NFA

open SubsetConstruction

/-- Over any list of subsets the construction fails for its three reasons alone, in their order, and
makes the states without a look-up that finds nothing. -/
theorem determinize_endsAsListed (nfa : NFA) (subsets : List Subset) (alphabet : List Symbol)
    (policy : Policy) :
    EndsAsListed nfa subsets alphabet policy (nfa.determinize subsets alphabet policy).result := by
  rw [result_determinize]
  refine
    { noEmpty_iff := ?_
      noInitial_iff := ?_
      unlisted_iff := ?_
      unlisted_names := fun names ended => ?names
      ok_iff := ?_
      lookups := fun dfa made => ?lookups }
  case names =>
    rcases overSubsets_cases nfa subsets alphabet policy with ⟨_, other⟩ |
      ⟨_, ⟨_, other⟩ | ⟨_, ⟨_, found, missing, other⟩ | ⟨_, dfa, other⟩⟩⟩
    all_goals
      simp only [ended, Except.error.injEq, reduceCtorEq, Error.unlistedSubset.injEq] at other
    exact exists_targets_of_missing? (other ▸ missing)
  case lookups =>
    obtain ⟨initial, found, rfl⟩ := overSubsets_eq_ok_iff.mp made
    exact ⟨initial, _, found.initial_eq, rows_of_found found, rfl, lookupsSucceed_of_found found⟩
  all_goals
    rcases overSubsets_cases nfa subsets alphabet policy with ⟨lacksEmpty, ended⟩ |
      ⟨hasEmpty, ⟨lacksInitial, ended⟩ | ⟨hasInitial, ⟨lacksTargets, names, _, ended⟩ |
        ⟨hasTargets, dfa, ended⟩⟩⟩
    all_goals simp [*]

end Determinizer.NFA
