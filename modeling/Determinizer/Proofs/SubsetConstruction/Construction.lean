import Determinizer.Proofs.SubsetConstruction.States

/-! # The automaton over listed subsets

The construction succeeds exactly if the empty subset is listed where the policy needs it, the
initial state alone is a listed subset, and all targets of listed subsets are listed. These are
looked at in this order, and the first that fails is the error. Whatever the list is, its order and
its repetitions, the result is an automaton whose states stand for sets of states.
-/

namespace Determinizer.SubsetConstruction

variable {nfa : NFA} {alphabet : List Symbol} {policy : Policy} {subsets : List Subset}
  {initial place : Nat} {row : Row} {symbol : Symbol} {dfa : DFA}

/-- The place of the dead state: a total automaton has one if the empty subset is listed. -/
def deadPlace? (policy : Policy) (subsets : List Subset) : Option Nat :=
  match policy with
  | .sparse => none
  | .total => (Subset.index subsets)[(∅ : NameSet)]?

@[simp] theorem deadPlace?_sparse : deadPlace? .sparse subsets = none := rfl

@[simp] theorem deadPlace?_total :
    deadPlace? .total subsets = (Subset.index subsets)[(∅ : NameSet)]? := rfl

/-- A total automaton needs the empty subset for its dead state. -/
def HasDead (policy : Policy) (subsets : List Subset) : Prop :=
  policy = .total → ∃ place, (Subset.index subsets)[(∅ : NameSet)]? = some place

/-- What the construction has found when it makes states: the empty subset where it is needed, the
place of the initial state, and no targets that are not listed. -/
structure Found (nfa : NFA) (alphabet : List Symbol) (policy : Policy) (subsets : List Subset)
    (initial : Nat) : Prop where
  hasDead : HasDead policy subsets
  initial_eq : (Subset.index subsets)[({nfa.initial} : NameSet)]? = some initial
  listed : ∀ subset ∈ subsets, ∀ symbol ∈ alphabet,
    Listed nfa (Subset.index subsets) subset symbol

/-- The rows of the listed subsets that have one. -/
def listedRows (nfa : NFA) (alphabet : List Symbol) (policy : Policy) (subsets : List Subset) :
    List Row :=
  rowsOf nfa (Subset.index subsets) (deadPlace? policy subsets) alphabet.eraseDups subsets

/-- The rows that become states. -/
def keptRows (nfa : NFA) (alphabet : List Symbol) (policy : Policy) (subsets : List Subset)
    (initial : Nat) : List Row :=
  kept policy initial (listedRows nfa alphabet policy subsets)

theorem overSubsets_of_not_hasDead (missing : ¬ HasDead policy subsets) :
    nfa.overSubsets subsets alphabet policy = .error .noEmptySubset := by
  rw [HasDead, Classical.not_imp, not_exists] at missing
  obtain ⟨rfl, none⟩ := missing
  simp only [NFA.overSubsets.eq_def, Option.eq_none_iff_forall_ne_some.mpr none]
  rfl

theorem overSubsets_of_no_initial (hasDead : HasDead policy subsets)
    (missing : (Subset.index subsets)[({nfa.initial} : NameSet)]? = none) :
    nfa.overSubsets subsets alphabet policy = .error (.noInitialSubset nfa.initial) := by
  simp only [NFA.overSubsets.eq_def, missing]
  cases policy with
  | sparse => rfl
  | total =>
    obtain ⟨place, found⟩ := hasDead rfl
    rw [found]
    rfl

/-- The first targets of listed subsets on the symbols of an alphabet that are not listed. -/
def missing? (nfa : NFA) (alphabet : List Symbol) (subsets : List Subset) : Option NameSet :=
  firstUnlisted? nfa (Subset.index subsets) alphabet.eraseDups subsets

theorem missing?_eq_none_iff : missing? nfa alphabet subsets = none ↔
    ∀ subset ∈ subsets, ∀ symbol ∈ alphabet, Listed nfa (Subset.index subsets) subset symbol := by
  simp only [missing?, firstUnlisted?_eq_none_iff, List.mem_eraseDups]

/-- With the dead and the initial state found, only targets that are not listed are an error. -/
theorem overSubsets_eq (hasDead : HasDead policy subsets)
    (initial_eq : (Subset.index subsets)[({nfa.initial} : NameSet)]? = some initial) :
    nfa.overSubsets subsets alphabet policy =
      unlessUnlisted (missing? nfa alphabet subsets)
        (DFA.ofStates alphabet policy
          (makeStates nfa initial (keptRows nfa alphabet policy subsets initial))) := by
  have rowsFirst : nfa.overSubsets subsets alphabet policy =
      (rows nfa (Subset.index subsets) (deadPlace? policy subsets) alphabet.eraseDups subsets).map
        fun rows =>
          DFA.ofStates alphabet policy (makeStates nfa initial (kept policy initial rows)) := by
    simp only [NFA.overSubsets.eq_def, initial_eq]
    cases policy with
    | sparse => rfl
    | total =>
      obtain ⟨place, found⟩ := hasDead rfl
      rw [deadPlace?_total, found]
      rfl
  rw [rowsFirst, rows_eq, missing?]
  cases firstUnlisted? nfa (Subset.index subsets) alphabet.eraseDups subsets <;> rfl

theorem overSubsets_of_found (found : Found nfa alphabet policy subsets initial) :
    nfa.overSubsets subsets alphabet policy =
      .ok (DFA.ofStates alphabet policy
        (makeStates nfa initial (keptRows nfa alphabet policy subsets initial))) := by
  rw [overSubsets_eq found.hasDead found.initial_eq, missing?_eq_none_iff.mpr found.listed]
  rfl

theorem overSubsets_of_not_listed (hasDead : HasDead policy subsets)
    (initial_eq : (Subset.index subsets)[({nfa.initial} : NameSet)]? = some initial)
    (unlisted : ¬ ∀ subset ∈ subsets, ∀ symbol ∈ alphabet,
      Listed nfa (Subset.index subsets) subset symbol) :
    ∃ names, nfa.overSubsets subsets alphabet policy = .error (.unlistedSubset names) := by
  rw [← missing?_eq_none_iff, ← Ne, Option.ne_none_iff_exists'] at unlisted
  obtain ⟨names, missing⟩ := unlisted
  exact ⟨names, by rw [overSubsets_eq hasDead initial_eq, missing]; rfl⟩

/-- The construction succeeds exactly if it finds all that it looks for. -/
theorem overSubsets_eq_ok_iff : nfa.overSubsets subsets alphabet policy = .ok dfa ↔
    ∃ initial, Found nfa alphabet policy subsets initial ∧
      dfa = DFA.ofStates alphabet policy
        (makeStates nfa initial (keptRows nfa alphabet policy subsets initial)) := by
  constructor
  · intro made
    by_cases hasDead : HasDead policy subsets
    · cases initial_eq : (Subset.index subsets)[({nfa.initial} : NameSet)]? with
      | none => simp [overSubsets_of_no_initial hasDead initial_eq] at made
      | some initial =>
        by_cases listed : ∀ subset ∈ subsets, ∀ symbol ∈ alphabet,
            Listed nfa (Subset.index subsets) subset symbol
        · have found : Found nfa alphabet policy subsets initial := ⟨hasDead, initial_eq, listed⟩
          rw [overSubsets_of_found found, Except.ok.injEq] at made
          exact ⟨initial, found, made.symm⟩
        · obtain ⟨names, failed⟩ := overSubsets_of_not_listed hasDead initial_eq listed
          rw [failed] at made
          contradiction
    · rw [overSubsets_of_not_hasDead hasDead] at made
      contradiction
  · rintro ⟨initial, found, rfl⟩
    exact overSubsets_of_found found

/-- When the construction succeeds, said of the listed subsets alone. -/
theorem exists_overSubsets_iff : (∃ dfa, nfa.overSubsets subsets alphabet policy = .ok dfa) ↔
    (policy = .total → ∃ subset ∈ subsets, NameSet.ofList subset = ∅) ∧
      (∃ subset ∈ subsets, NameSet.ofList subset = {nfa.initial}) ∧
      ∀ subset ∈ subsets, ∀ symbol ∈ alphabet, nfa.targetsOf subset symbol = ∅ ∨
        ∃ other ∈ subsets, NameSet.ofList other = nfa.targetsOf subset symbol := by
  simp only [← Subset.exists_index_iff]
  constructor
  · rintro ⟨dfa, made⟩
    obtain ⟨initial, found, _⟩ := overSubsets_eq_ok_iff.mp made
    exact ⟨found.hasDead, ⟨initial, found.initial_eq⟩, found.listed⟩
  · rintro ⟨hasDead, ⟨initial, initial_eq⟩, listed⟩
    exact ⟨_, overSubsets_of_found ⟨hasDead, initial_eq, listed⟩⟩

end Determinizer.SubsetConstruction
