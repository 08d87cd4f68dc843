import Determinizer.Proofs.Subset.Enumeration
import Determinizer.Proofs.SubsetConstruction.Closure

/-! # The construction follows the edges

For every list of subsets on which it succeeds, the construction gives an automaton with distinct
labels and without dangling transitions, and the run of a word over the alphabet ends in a state
that stands for the states which the word leads to. The list may repeat subsets, list them in any
order and name states that are not declared.
-/

namespace Determinizer.SubsetConstruction

variable {nfa : NFA} {alphabet : List Symbol} {policy : Policy} {subsets : List Subset}
  {initial place : Nat} {rows : List Row} {row : Row} {symbol : Symbol} {subset : Subset} {dfa : DFA}

/-- The state of a row among the rows that are kept. -/
def stateOf (nfa : NFA) (initial : Nat) (rows : List Row) (row : Row) : DFA.State where
  label := labelAt (positions rows) row.place
  subset := row.subset
  isFinal := row.subset.any nfa.finals.contains
  isInitial := row.place == initial
  transitions :=
    Table.ofList (row.targets.map fun target => (target.1, labelAt (positions rows) target.2))

theorem makeStates_eq_map :
    makeStates nfa initial rows = rows.map (stateOf nfa initial rows) := rfl

/-- The states are labelled by their positions. -/
theorem map_label_makeStates (ordered : rows.Pairwise (·.place < ·.place)) :
    (makeStates nfa initial rows).map (·.label) = (List.range rows.length).map Label.ofPosition := by
  apply List.ext_getElem (by simp [makeStates_eq_map])
  intro position bound _
  have inside : position < rows.length := by simpa [makeStates_eq_map] using bound
  simp only [makeStates_eq_map, List.getElem_map, List.getElem_range]
  exact labelAt_positions ordered (List.getElem?_eq_getElem inside)

theorem lookup_map_snd {β γ : Type} (f : β → γ) (pairs : List (Symbol × β)) (symbol : Symbol) :
    (pairs.map fun pair => (pair.1, f pair.2)).lookup symbol = (pairs.lookup symbol).map f := by
  induction pairs with
  | nil => rfl
  | cons pair rest ih =>
    obtain ⟨first, value⟩ := pair
    rw [List.map_cons, List.lookup_cons, List.lookup_cons]
    cases symbol == first
    · exact ih
    · rfl

theorem nodup_targets_rowOf {index : Subset.Index} {dead : Option Nat} {symbols : List Symbol}
    (distinct : symbols.Nodup) (entry : Subset × Nat) :
    ((rowOf nfa index dead symbols entry).targets.map Prod.fst).Nodup := by
  refine List.Nodup.sublist ?_ distinct
  induction symbols with
  | nil => exact .slnil
  | cons symbol rest ih =>
    have later := ih (List.nodup_cons.mp distinct).2
    change ((List.filterMap _ _).map _).Sublist _
    rw [List.filterMap_cons]
    cases targetPlace? nfa index dead entry.1 symbol with
    | none => exact later.cons _
    | some target => exact later.cons_cons _

/-- The transitions of a state lead to the labels of the places where its row leads. -/
theorem get?_transitions_stateOf (isKept : row ∈ keptRows nfa alphabet policy subsets initial)
    (rows : List Row) (symbol : Symbol) :
    (stateOf nfa initial rows row).transitions.get? symbol =
      if symbol ∈ alphabet then
        (placeOf? nfa policy subsets row.subset symbol).map (labelAt (positions rows))
      else none := by
  obtain ⟨subset, place, _, _, rfl, _⟩ := mem_keptRows.mp isKept
  rw [stateOf, Table.get?_ofList, lookup_map_snd, lookup_rowOf]
  · by_cases known : symbol ∈ alphabet
    · rw [if_pos (List.mem_eraseDups.mpr known), if_pos known]
      rfl
    · rw [if_neg (List.mem_eraseDups.not.mpr known), if_neg known, Option.map_none]
  · rw [List.map_map]
    exact nodup_targets_rowOf (Subset.nodup_eraseDups alphabet) (subset, place)

theorem initialLabel?_of_unique {states : List DFA.State} {state : DFA.State}
    (member : state ∈ states) (isInitial : state.isInitial = true)
    (unique : ∀ other ∈ states, other.isInitial = true → other = state) :
    DFA.initialLabel? states = some state.label := by
  rw [DFA.initialLabel?]
  cases last : (states.filter (·.isInitial)).getLast? with
  | none =>
    have none := List.filter_eq_nil_iff.mp (List.getLast?_eq_none_iff.mp last) state member
    exact absurd isInitial none
  | some other =>
    obtain ⟨inside, also⟩ := List.mem_filter.mp (List.mem_of_getLast? last)
    rw [Option.map_some, unique other inside also]

/-- The automaton that the construction makes. -/
def automatonOf (nfa : NFA) (alphabet : List Symbol) (policy : Policy) (subsets : List Subset)
    (initial : Nat) : DFA :=
  DFA.ofStates alphabet policy
    (makeStates nfa initial (keptRows nfa alphabet policy subsets initial))

theorem mem_states_automatonOf {state : DFA.State} :
    state ∈ (automatonOf nfa alphabet policy subsets initial).states ↔
      ∃ row ∈ keptRows nfa alphabet policy subsets initial,
        stateOf nfa initial (keptRows nfa alphabet policy subsets initial) row = state :=
  List.mem_map

theorem labels_automatonOf : (automatonOf nfa alphabet policy subsets initial).labels =
    (List.range (keptRows nfa alphabet policy subsets initial).length).map Label.ofPosition :=
  map_label_makeStates pairwise_keptRows

/-- The state of the initial row is the only one that is marked as initial. -/
theorem exists_initial_state (found : Found nfa alphabet policy subsets initial) :
    ∃ state ∈ (automatonOf nfa alphabet policy subsets initial).states,
      state.members = {nfa.initial} ∧ state.isInitial = true ∧
      ∀ other ∈ (automatonOf nfa alphabet policy subsets initial).states,
        other.isInitial = true → other = state := by
  obtain ⟨row, isKept, atInitial, members⟩ := exists_initial_row found
  refine ⟨_, mem_states_automatonOf.mpr ⟨row, isKept, rfl⟩, members, beq_iff_eq.mpr atInitial, ?_⟩
  intro other member isInitial
  obtain ⟨otherRow, otherKept, rfl⟩ := mem_states_automatonOf.mp member
  have same : otherRow.place = row.place := (beq_iff_eq.mp isInitial).trans atInitial.symm
  rw [eq_of_place_eq otherKept isKept same]

/-- The construction makes an automaton whose states stand for sets of states. -/
theorem subsetAutomaton_of_found (found : Found nfa alphabet policy subsets initial) :
    SubsetAutomaton nfa alphabet policy (automatonOf nfa alphabet policy subsets initial) := by
  obtain ⟨start, startMember, startMembers, startInitial, unique⟩ := exists_initial_state found
  have initial_eq : (automatonOf nfa alphabet policy subsets initial).initial = some start.label :=
    initialLabel?_of_unique startMember startInitial unique
  have labels_nodup : (automatonOf nfa alphabet policy subsets initial).labels.Nodup :=
    labels_automatonOf ▸ Label.nodup_map_ofPosition _
  refine
    { alphabet_eq := rfl
      labels_nodup := labels_nodup
      finals_eq := rfl
      initial := ⟨start, startMember, initial_eq, startMembers⟩
      isInitial_iff := ?_
      isFinal_iff := ?_
      nonempty := ?_
      missing_iff := ?_
      target := ?_
      outside := ?_ }
  · intro state member
    rw [initial_eq, Option.some.injEq]
    constructor
    · intro isInitial
      rw [unique state member isInitial]
    · intro same
      rw [← DFA.eq_of_label_eq labels_nodup startMember member same]
      exact startInitial
  · intro state member
    obtain ⟨row, _, rfl⟩ := mem_states_automatonOf.mp member
    simp [stateOf, DFA.State.members]
  · rintro rfl state member empty
    obtain ⟨row, isKept, rfl⟩ := mem_states_automatonOf.mp member
    obtain ⟨subset, place, _, present, rfl, _⟩ := mem_keptRows.mp isKept
    have filled := present.resolve_right (by simp)
    exact filled (NameSet.ofList_eq_empty_iff.mp empty)
  · intro state member symbol known
    obtain ⟨row, isKept, rfl⟩ := mem_states_automatonOf.mp member
    rw [get?_transitions_stateOf isKept, if_pos known, Option.map_eq_none_iff]
    exact placeOf?_eq_none_iff found (subset_mem_of_mem_keptRows isKept) known
  · intro state member symbol known label linked
    obtain ⟨row, isKept, rfl⟩ := mem_states_automatonOf.mp member
    rw [get?_transitions_stateOf isKept, if_pos known, Option.map_eq_some_iff] at linked
    obtain ⟨place, leads, rfl⟩ := linked
    obtain ⟨other, otherKept, rfl, members⟩ := exists_target_row isKept known leads
    exact ⟨_, mem_states_automatonOf.mpr ⟨other, otherKept, rfl⟩, rfl, members⟩
  · intro state member symbol foreign
    obtain ⟨row, isKept, rfl⟩ := mem_states_automatonOf.mp member
    rw [get?_transitions_stateOf isKept, if_neg foreign]

theorem subsetAutomaton_of_overSubsets
    (made : nfa.overSubsets subsets alphabet policy = .ok dfa) :
    SubsetAutomaton nfa alphabet policy dfa := by
  obtain ⟨initial, found, rfl⟩ := overSubsets_eq_ok_iff.mp made
  exact subsetAutomaton_of_found found

theorem policy_of_overSubsets (made : nfa.overSubsets subsets alphabet policy = .ok dfa) :
    dfa.policy = policy := by
  obtain ⟨initial, _, rfl⟩ := overSubsets_eq_ok_iff.mp made
  rfl

/-- The states are labelled by their positions. -/
theorem labels_of_overSubsets (made : nfa.overSubsets subsets alphabet policy = .ok dfa) :
    dfa.labels = (List.range dfa.states.length).map Label.ofPosition := by
  obtain ⟨initial, _, rfl⟩ := overSubsets_eq_ok_iff.mp made
  refine labels_automatonOf.trans ?_
  rw [DFA.ofStates, makeStates_eq_map, List.length_map]

theorem exists_position_of_overSubsets (made : nfa.overSubsets subsets alphabet policy = .ok dfa)
    {label : Label} (member : label ∈ dfa.labels) : ∃ position, label = Label.ofPosition position := by
  rw [labels_of_overSubsets made] at member
  obtain ⟨position, _, rfl⟩ := List.mem_map.mp member
  exact ⟨position, rfl⟩

/-- There is a dead state only if a listed subset that is not empty has no targets on a symbol. -/
theorem exists_lost_of_nil (made : nfa.overSubsets subsets alphabet policy = .ok dfa)
    {dead : DFA.State} (member : dead ∈ dfa.states) (empty : dead.subset = []) :
    ∃ subset ∈ subsets, subset ≠ [] ∧ ∃ symbol ∈ alphabet, nfa.targetsOf subset symbol = ∅ := by
  obtain ⟨initial, found, rfl⟩ := overSubsets_eq_ok_iff.mp made
  obtain ⟨row, isKept, rfl⟩ := mem_states_automatonOf.mp member
  obtain ⟨subset, place, listed, _, rfl, reason⟩ := mem_keptRows.mp isKept
  change subset = [] at empty
  subst empty
  rcases mem_entered_listedRows.mp (reason.resolve_right fun both => both.2 rfl) with
    rfl | ⟨source, sourceListed, filled, symbol, known, leads⟩
  · obtain ⟨start, atInitial, members⟩ := Subset.getElem?_of_index found.initial_eq
    obtain rfl := Option.some.inj (listed.symm.trans atInitial)
    exact absurd members.symm (NameSet.singleton_ne_empty nfa.initial)
  · obtain ⟨other, otherListed, _, members⟩ := exists_of_placeOf? leads
    obtain rfl := Option.some.inj (listed.symm.trans otherListed)
    exact ⟨source, sourceListed, filled, symbol, known, members.symm⟩

/-- The states keep the order of the list. -/
theorem subsets_sublist_of_overSubsets
    (made : nfa.overSubsets subsets alphabet policy = .ok dfa) :
    (dfa.states.map (·.subset)).Sublist subsets := by
  obtain ⟨initial, _, rfl⟩ := overSubsets_eq_ok_iff.mp made
  change ((makeStates nfa initial _).map _).Sublist subsets
  rw [makeStates_eq_map, List.map_map]
  exact keptRows_subsets_sublist

end Determinizer.SubsetConstruction

namespace Determinizer.NFA

open SubsetConstruction

@[simp] theorem result_determinize (nfa : NFA) (subsets : List Subset) (alphabet : List Symbol)
    (policy : Policy) :
    (nfa.determinize subsets alphabet policy).result = nfa.overSubsets subsets alphabet policy := by
  rw [determinize, Outcome.result_bind]
  cases nfa.overSubsets subsets alphabet policy <;> simp [Except.bind]

/-- Over any list of subsets, labels are distinct, no transition dangles, and a run ends in a state
that stands for the states which its word leads to, unless a sparse automaton has none left. -/
theorem determinize_simulates {nfa : NFA} {subsets : List Subset} {alphabet : List Symbol}
    {policy : Policy} {dfa : DFA}
    (made : (nfa.determinize subsets alphabet policy).result = .ok dfa) :
    dfa.labels.Nodup ∧ dfa.dangling = [] ∧
      ∀ word, (∀ symbol ∈ word, symbol ∈ alphabet) →
        (dfa.run? word = none ↔ policy = .sparse ∧ nfa.run {nfa.initial} word = ∅) ∧
        ∀ state, dfa.run? word = some state →
          NameSet.ofList state.subset = nfa.run {nfa.initial} word ∧
          (state.isFinal = true ↔ ∃ name ∈ nfa.run {nfa.initial} word, name ∈ nfa.finals) := by
  have automaton := subsetAutomaton_of_overSubsets (result_determinize .. ▸ made)
  refine ⟨automaton.labels_nodup, automaton.dangling_eq_nil, fun word inside => ?_⟩
  refine ⟨automaton.run?_eq_none_iff inside, fun state ended => ?_⟩
  obtain ⟨member, stands⟩ := automaton.run?_members inside ended
  exact ⟨stands, stands ▸ automaton.isFinal_iff state member⟩

/-- Two edges on one symbol, and none on the other. -/
private def forked : NFA where
  states := ["A", "B"]
  initial := "A"
  finals := ["B"]
  edges := Table.ofList [(("A", "0"), NameSet.ofList ["A", "B"])]
  sources_declared := by decide +kernel

/-- Subsets with repeated, permuted and undeclared members, one of them listed three times. -/
private def repetitive : List Subset :=
  [["B", "A", "B"], ["X"], [], ["A"], ["A", "B"], ["A"], []]

theorem determinize_simulates_repetitive :
    ∃ dfa, (forked.determinize repetitive ["0", "1"] .total).result = .ok dfa ∧
      dfa.labels.Nodup ∧ dfa.dangling = [] ∧
      ∀ word, (∀ symbol ∈ word, symbol ∈ ["0", "1"]) →
        (dfa.run? word = none ↔ Policy.total = .sparse ∧ forked.run {"A"} word = ∅) ∧
        ∀ state, dfa.run? word = some state →
          NameSet.ofList state.subset = forked.run {"A"} word ∧
          (state.isFinal = true ↔ ∃ name ∈ forked.run {"A"} word, name ∈ ["B"]) := by
  have succeeds : ∃ dfa, forked.overSubsets repetitive ["0", "1"] .total = .ok dfa :=
    exists_overSubsets_iff.mpr (by decide +kernel)
  obtain ⟨dfa, made⟩ := succeeds
  have result := (result_determinize ..).trans made
  exact ⟨dfa, result, determinize_simulates result⟩

end Determinizer.NFA
