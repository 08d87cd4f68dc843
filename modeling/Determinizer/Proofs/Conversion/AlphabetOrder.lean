import Determinizer.Proofs.Conversion.Errors
import Determinizer.Proofs.DFA.Reordering

/-! # A conversion over an alphabet in another order

Which rows become states, and so how they are labelled, depends on which symbols the alphabet has
and not on their order. So an alphabet in another order gives an automaton that differs only in the
order of its transitions, or no automaton if there was none.
-/

namespace Determinizer

/-- The same settings with the alphabet in another order. -/
def Config.withAlphabet (config : Config) (alphabet : List Symbol)
    (perm : config.alphabet.Perm alphabet) : Config :=
  { config with
    alphabet
    alphabet_ne_nil := fun empty => config.alphabet_ne_nil (empty ▸ perm).eq_nil
    alphabet_nodup := perm.nodup config.alphabet_nodup }

/-- Both conversions fail, or they give the same automaton and text up to the order in which the
transitions of a state are listed. -/
def OrdersAgree : Except Error DFA → Except Error DFA → Prop
  | .error _, .error _ => True
  | .ok dfa, .ok other => dfa.Reorders other ∧ dfa.TextsAgree other
  | _, _ => False

namespace SubsetConstruction

variable {nfa : NFA} {alphabet others : List Symbol} {policy : Policy} {subsets : List Subset}
  {initial place : Nat}

/-- The listed subsets whose rows are kept, with their places. -/
def keptEntries (nfa : NFA) (alphabet : List Symbol) (policy : Policy) (subsets : List Subset)
    (initial : Nat) : List (Subset × Nat) :=
  (subsets.zipIdx.filter fun entry => decide (HasRow (deadPlace? policy subsets) entry)).filter
    fun entry => (entered initial (listedRows nfa alphabet policy subsets)).contains entry.2 ||
      (policy == .total && !entry.1.isEmpty)

/-- The row of a listed subset at a place. -/
def listedRow (nfa : NFA) (alphabet : List Symbol) (policy : Policy) (subsets : List Subset)
    (entry : Subset × Nat) : Row :=
  rowOf nfa (Subset.index subsets) (deadPlace? policy subsets) alphabet.eraseDups entry

theorem keptRows_eq_map : keptRows nfa alphabet policy subsets initial =
    (keptEntries nfa alphabet policy subsets initial).map
      (listedRow nfa alphabet policy subsets) := by
  rw [keptRows, kept, listedRows, rowsOf, List.filter_map]
  rfl

/-- Which rows are kept depends on the symbols alone. -/
theorem keptEntries_congr (same : ∀ symbol, symbol ∈ alphabet ↔ symbol ∈ others) :
    keptEntries nfa alphabet policy subsets initial =
      keptEntries nfa others policy subsets initial := by
  have entered_eq : (entered initial (listedRows nfa alphabet policy subsets)).contains =
      (entered initial (listedRows nfa others policy subsets)).contains := by
    funext place
    rw [Bool.eq_iff_iff, ← Std.HashSet.mem_iff_contains, ← Std.HashSet.mem_iff_contains,
      mem_entered_listedRows, mem_entered_listedRows]
    simp only [same]
  rw [keptEntries, keptEntries, entered_eq]

/-- Positions depend on the places of rows alone. -/
theorem positions_congr {rows otherRows : List Row}
    (places_eq : rows.map (·.place) = otherRows.map (·.place)) :
    positions rows = positions otherRows := by
  rw [positions_eq_ofList, positions_eq_ofList, places_eq]

theorem positions_keptRows_congr (same : ∀ symbol, symbol ∈ alphabet ↔ symbol ∈ others) :
    positions (keptRows nfa alphabet policy subsets initial) =
      positions (keptRows nfa others policy subsets initial) := by
  apply positions_congr
  rw [keptRows_eq_map, keptRows_eq_map, keptEntries_congr same, List.map_map, List.map_map]
  rfl

theorem makeStates_keptRows_eq_map :
    makeStates nfa initial (keptRows nfa alphabet policy subsets initial) =
      (keptEntries nfa alphabet policy subsets initial).map fun entry =>
        stateOf nfa initial (keptRows nfa alphabet policy subsets initial)
          (listedRow nfa alphabet policy subsets entry) :=
  (congrArg (List.map _) keptRows_eq_map).trans List.map_map

theorem listedRow_mem_keptRows {entry : Subset × Nat}
    (member : entry ∈ keptEntries nfa alphabet policy subsets initial) :
    listedRow nfa alphabet policy subsets entry ∈ keptRows nfa alphabet policy subsets initial :=
  keptRows_eq_map ▸ List.mem_map_of_mem member

/-- The states are the same, apart from the order of their transitions. -/
theorem makeStates_agree (same : ∀ symbol, symbol ∈ alphabet ↔ symbol ∈ others) :
    List.Forall₂ DFA.State.Agrees
      (makeStates nfa initial (keptRows nfa alphabet policy subsets initial))
      (makeStates nfa initial (keptRows nfa others policy subsets initial)) := by
  have entries_eq : keptEntries nfa alphabet policy subsets initial =
      keptEntries nfa others policy subsets initial := keptEntries_congr same
  rw [makeStates_keptRows_eq_map, makeStates_keptRows_eq_map, ← entries_eq,
    List.forall₂_map_left_iff, List.forall₂_map_right_iff, List.forall₂_same]
  intro entry member
  have label_eq : labelAt (positions (keptRows nfa alphabet policy subsets initial)) =
      labelAt (positions (keptRows nfa others policy subsets initial)) := by
    rw [positions_keptRows_congr same]
  refine ⟨?_, rfl, rfl, rfl, fun symbol => ?_⟩
  · simp only [stateOf, label_eq]
    rfl
  rw [get?_transitions_stateOf (listedRow_mem_keptRows member),
    get?_transitions_stateOf (listedRow_mem_keptRows (entries_eq ▸ member)), label_eq]
  simp only [same]
  rfl

/-- An alphabet in another order gives the same automaton up to the order of transitions. -/
theorem reorders_automatonOf (perm : alphabet.Perm others) :
    (automatonOf nfa alphabet policy subsets initial).Reorders
      (automatonOf nfa others policy subsets initial) :=
  DFA.reorders_ofStates perm policy (makeStates_agree fun _ => perm.mem_iff)

end SubsetConstruction

namespace NFA

open SubsetConstruction

variable {nfa : NFA} {config : Config} {alphabet : List Symbol} {dfa other : DFA}

theorem reorders_of_convert (perm : config.alphabet.Perm alphabet)
    (converted : (nfa.convert config).result = .ok dfa)
    (otherwise : (nfa.convert (config.withAlphabet alphabet perm)).result = .ok other) :
    dfa.Reorders other := by
  obtain ⟨_, whole, made, rfl⟩ := convert_eq_ok_iff.mp converted
  obtain ⟨_, otherWhole, otherMade, rfl⟩ := convert_eq_ok_iff.mp otherwise
  obtain ⟨initial, found, rfl⟩ := overSubsets_eq_ok_iff.mp made
  obtain ⟨otherInitial, otherFound, rfl⟩ := overSubsets_eq_ok_iff.mp otherMade
  obtain rfl : initial = otherInitial :=
    Option.some.inj (found.initial_eq.symm.trans otherFound.initial_eq)
  exact (reorders_automatonOf perm).reachablePart

/-- The order of the alphabet does not decide whether there is an automaton. -/
theorem exists_convert_withAlphabet_iff (nfa : NFA) (perm : config.alphabet.Perm alphabet) :
    (∃ dfa, (nfa.convert (config.withAlphabet alphabet perm)).result = .ok dfa) ↔
      ∃ dfa, (nfa.convert config).result = .ok dfa := by
  have leads_iff : nfa.LeadsOutside alphabet ↔ nfa.LeadsOutside config.alphabet := by
    simp only [LeadsOutside, perm.mem_iff]
  rw [exists_convert_iff, exists_convert_iff]
  exact and_congr_right' (and_congr_right' leads_iff.not)

/-- The order of the alphabet decides nothing but the order in which the transitions of a state are
listed. -/
theorem convert_alphabets_agree (nfa : NFA) (perm : config.alphabet.Perm alphabet) :
    OrdersAgree (nfa.convert config).result
      (nfa.convert (config.withAlphabet alphabet perm)).result := by
  have both := exists_convert_withAlphabet_iff nfa perm
  cases converted : (nfa.convert config).result with
  | error cause =>
    cases otherwise : (nfa.convert (config.withAlphabet alphabet perm)).result with
    | error otherCause => exact trivial
    | ok other => simp [converted, otherwise] at both
  | ok dfa =>
    cases otherwise : (nfa.convert (config.withAlphabet alphabet perm)).result with
    | error cause => simp [converted, otherwise] at both
    | ok other =>
      have reorders := reorders_of_convert perm converted otherwise
      obtain ⟨start, _, isInitial, _⟩ := (subsetAutomaton_of_convert converted).initial
      exact ⟨reorders, reorders.textsAgree isInitial⟩

/-- The first state leads to one state on `0` and to three on `1`. -/
private def spreading : NFA where
  states := ["A", "B", "C"]
  initial := "A"
  finals := ["B"]
  edges := Table.ofList [(("A", "0"), NameSet.ofList ["C"]),
    (("A", "1"), NameSet.ofList ["A", "B", "C"]), (("C", "0"), NameSet.ofList ["B", "C"])]
  sources_declared := by decide +kernel

theorem convert_alphabets_agree_spreading :
    ∃ perm : Config.default.alphabet.Perm ["1", "0"], ∃ dfa other,
      (spreading.convert .default).result = .ok dfa ∧
      (spreading.convert (Config.default.withAlphabet ["1", "0"] perm)).result = .ok other ∧
      OrdersAgree (.ok dfa) (.ok other) := by
  have perm : Config.default.alphabet.Perm ["1", "0"] := List.Perm.swap "1" "0" []
  have within : ¬ spreading.Exceeds .default := by
    rintro ⟨limit, ⟨⟩, more⟩
    exact absurd more (by decide)
  have inside : ¬ spreading.LeadsOutside Config.default.alphabet := by
    have declared : ∀ state ∈ spreading.states, ∀ symbol ∈ Config.default.alphabet,
        ∀ target ∈ (spreading.targets state symbol).toList, target ∈ spreading.states := by
      decide +kernel
    rintro ⟨state, member, symbol, known, target, edge, undeclared⟩
    exact undeclared (declared state member symbol known target edge)
  obtain ⟨dfa, converted⟩ := exists_convert within (by decide) inside
  obtain ⟨other, otherwise⟩ := (exists_convert_withAlphabet_iff spreading perm).mpr ⟨dfa, converted⟩
  refine ⟨perm, dfa, other, converted, otherwise, ?_⟩
  have agree := convert_alphabets_agree spreading perm
  rwa [converted, otherwise] at agree

end NFA

end Determinizer
