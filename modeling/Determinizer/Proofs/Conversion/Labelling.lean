import Determinizer.Proofs.Conversion.Errors
import Determinizer.Proofs.Subset.Powerset

/-! # Which subsets become states, and how they are labelled

Over all subsets of the declared states, a sparse automaton gets a state for the initial state alone
and for all that some declared states lead to together on a symbol. A total one gets a state for
every subset that is not empty, and for the empty one if a declared state lacks a transition. The
states stand in the canonical order and are labelled by their positions, so a label counts the states
that come before; in a total automaton it is the place in the powerset, or one less if there is no
dead state. All this is so before any state is removed.
-/

namespace Determinizer

namespace NFA

/-- The set has the initial state alone, or all that some declared states lead to on a symbol. -/
def IsEntered (nfa : NFA) (alphabet : List Symbol) (names : NameSet) : Prop :=
  names = {nfa.initial} ∨ ∃ sources : NameSet, sources ≠ ∅ ∧
    (∀ source ∈ sources, source ∈ nfa.states) ∧ ∃ symbol ∈ alphabet,
      ∀ name, name ∈ names ↔ ∃ source ∈ sources, name ∈ nfa.targets source symbol

/-- A declared state has no transition on a symbol. -/
def LacksTransition (nfa : NFA) (alphabet : List Symbol) : Prop :=
  ∃ state ∈ nfa.states, ∃ symbol ∈ alphabet, nfa.targets state symbol = ∅

instance (nfa : NFA) (alphabet : List Symbol) : Decidable (nfa.LacksTransition alphabet) :=
  inferInstanceAs (Decidable (∃ state ∈ nfa.states, ∃ symbol ∈ alphabet,
    nfa.targets state symbol = ∅))

/-- The states of a sparse automaton over all subsets that are not empty. -/
structure LabelsEntered (nfa : NFA) (alphabet : List Symbol) (dfa : DFA) : Prop where
  listed : ∀ state ∈ dfa.states, state.subset ∈ Subset.enumerate nfa.states false
  subsets_nodup : (dfa.states.map (·.subset)).Nodup
  /-- A set of declared states that is not empty is a state exactly if it is entered. -/
  isState_iff : ∀ names : NameSet, names ≠ ∅ → (∀ name ∈ names, name ∈ nfa.states) →
    ((∃ state ∈ dfa.states, NameSet.ofList state.subset = names) ↔ nfa.IsEntered alphabet names)
  /-- A label counts the states whose subsets come before in the canonical order. -/
  label_eq : ∀ state ∈ dfa.states, state.label = Label.ofPosition (dfa.states.countP fun other =>
    decide (Subset.Precedes nfa.states.eraseDups other.subset state.subset))

/-- The states of a total automaton over all subsets. -/
structure LabelsAll (nfa : NFA) (alphabet : List Symbol) (dfa : DFA) : Prop where
  listed : ∀ state ∈ dfa.states, state.subset ∈ Subset.enumerate nfa.states true
  subsets_nodup : (dfa.states.map (·.subset)).Nodup
  isState : ∀ names : NameSet, names ≠ ∅ → (∀ name ∈ names, name ∈ nfa.states) →
    ∃ state ∈ dfa.states, NameSet.ofList state.subset = names
  dead_iff : (∃ state ∈ dfa.states, state.subset = []) ↔ nfa.LacksTransition alphabet
  length_eq : dfa.states.length =
    if nfa.LacksTransition alphabet then 2 ^ nfa.states.eraseDups.length
    else 2 ^ nfa.states.eraseDups.length - 1
  /-- A label is that of the place in the powerset, or of the place before without a dead state. -/
  label_eq : ∀ state ∈ dfa.states, ∀ place,
    (Subset.enumerate nfa.states true)[place]? = some state.subset →
      state.label =
        Label.ofPosition (if nfa.LacksTransition alphabet then place else place - 1)

open SubsetConstruction

variable {nfa : NFA} {alphabet : List Symbol} {policy : Policy} {dfa : DFA} {state : DFA.State}
  {subset : Subset} {names : NameSet} {symbol : Symbol} {initial place : Nat}

section Entered

/-- Over all subsets the index finds the targets of a subset where there are none, too. -/
theorem placeOf?_subsets (nfa : NFA) (policy : Policy) (subset : Subset) (symbol : Symbol) :
    placeOf? nfa policy (nfa.subsets policy) subset symbol =
      (Subset.index (nfa.subsets policy))[nfa.targetsOf subset symbol]? := by
  rw [placeOf?, targetPlace?]
  by_cases empty : nfa.targetsOf subset symbol = ∅
  · rw [if_pos empty, empty]
    cases policy with
    | sparse =>
      refine (Subset.index_eq_none_iff.mpr fun other member none => ?_).symm
      rw [NameSet.ofList_eq_empty_iff] at none
      exact Subset.nil_not_mem_enumerate_false nfa.states (none ▸ member)
    | total => rfl
  · rw [if_neg empty]

theorem hasRow_subsets (listed : (nfa.subsets policy)[place]? = some subset) :
    HasRow (deadPlace? policy (nfa.subsets policy)) (subset, place) := by
  by_cases empty : subset = []
  · subst empty
    cases policy with
    | sparse =>
      exact absurd (List.mem_of_getElem? listed) (Subset.nil_not_mem_enumerate_false nfa.states)
    | total => exact .inr (Subset.index_enumerate_eq_some_iff.mpr ⟨[], listed, rfl⟩)
  · exact .inl empty

/-- The place of a subset in the list of all subsets is the place of its members in the index. -/
theorem index_eq_some_iff_of_listed (listed : (nfa.subsets policy)[place]? = some subset) :
    (Subset.index (nfa.subsets policy))[names]? = some place ↔ NameSet.ofList subset = names := by
  rw [subsets] at listed ⊢
  simp [Subset.index_enumerate_eq_some_iff, listed]

theorem exists_subset_of_declared (policy : Policy) (filled : names ≠ ∅)
    (declared : ∀ name ∈ names, name ∈ nfa.states) :
    ∃ subset ∈ nfa.subsets policy, NameSet.ofList subset = names :=
  exists_subset_iff.mpr ⟨declared, .inr filled⟩

/-- The sources of targets can be had as a listed subset. -/
theorem isEntered_iff_exists_subset (policy : Policy) : nfa.IsEntered alphabet names ↔
    names = {nfa.initial} ∨ ∃ source ∈ nfa.subsets policy, source ≠ [] ∧ ∃ symbol ∈ alphabet,
      nfa.targetsOf source symbol = names := by
  apply or_congr_right
  constructor
  · rintro ⟨sources, filled, declared, symbol, known, targets⟩
    obtain ⟨source, member, rfl⟩ := exists_subset_of_declared policy filled declared
    refine ⟨source, member, NameSet.ofList_eq_empty_iff.not.mp filled, symbol, known, ?_⟩
    refine NameSet.ext fun name => ?_
    simp only [mem_targetsOf, targets, NameSet.mem_ofList]
  · rintro ⟨source, member, filled, symbol, known, rfl⟩
    obtain ⟨declared, _⟩ := exists_subset_iff.mp ⟨source, member, rfl⟩
    refine ⟨NameSet.ofList source, NameSet.ofList_eq_empty_iff.not.mpr filled, declared, symbol,
      known, fun name => ?_⟩
    simp only [mem_targetsOf, NameSet.mem_ofList]

theorem mem_entered_subsets_iff
    (initial_eq : (Subset.index (nfa.subsets policy))[({nfa.initial} : NameSet)]? = some initial)
    (listed : (nfa.subsets policy)[place]? = some subset) :
    place ∈ entered initial (listedRows nfa alphabet policy (nfa.subsets policy)) ↔
      nfa.IsEntered alphabet (NameSet.ofList subset) := by
  have atInitial : place = initial ↔ NameSet.ofList subset = {nfa.initial} := by
    rw [← index_eq_some_iff_of_listed listed, initial_eq, Option.some.injEq, eq_comm]
  have atTargets : ∀ source symbol, placeOf? nfa policy (nfa.subsets policy) source symbol =
      some place ↔ nfa.targetsOf source symbol = NameSet.ofList subset := by
    intro source symbol
    rw [placeOf?_subsets, index_eq_some_iff_of_listed listed, eq_comm]
  simp only [mem_entered_listedRows, isEntered_iff_exists_subset policy, atInitial, atTargets]

/-- A listed subset is a state if its members are entered, and of a total automaton if it has any. -/
theorem exists_state_iff (made : nfa.overSubsets (nfa.subsets policy) alphabet policy = .ok dfa) :
    (∃ state ∈ dfa.states, state.subset = subset) ↔ subset ∈ nfa.subsets policy ∧
      (nfa.IsEntered alphabet (NameSet.ofList subset) ∨ policy = .total ∧ subset ≠ []) := by
  obtain ⟨initial, found, rfl⟩ := overSubsets_eq_ok_iff.mp made
  constructor
  · rintro ⟨state, member, rfl⟩
    obtain ⟨row, isKept, rfl⟩ := mem_states_automatonOf.mp member
    obtain ⟨subset, place, listed, _, rfl, reason⟩ := mem_keptRows.mp isKept
    rw [mem_entered_subsets_iff found.initial_eq listed] at reason
    exact ⟨List.mem_of_getElem? listed, reason⟩
  · rintro ⟨member, reason⟩
    obtain ⟨place, listed⟩ := List.mem_iff_getElem?.mp member
    rw [← mem_entered_subsets_iff found.initial_eq listed] at reason
    exact ⟨_, mem_states_automatonOf.mpr ⟨_, mem_keptRows.mpr
      ⟨subset, place, listed, hasRow_subsets listed, rfl, reason⟩, rfl⟩, rfl⟩

/-- No targets are left exactly where a single declared state has none. -/
theorem isEntered_empty_iff : nfa.IsEntered alphabet ∅ ↔ nfa.LacksTransition alphabet := by
  constructor
  · rintro (alone | ⟨sources, filled, declared, symbol, known, targets⟩)
    · exact absurd alone.symm (NameSet.singleton_ne_empty nfa.initial)
    · obtain ⟨source, member⟩ := NameSet.ne_empty_iff.mp filled
      refine ⟨source, declared source member, symbol, known, NameSet.eq_empty_iff.mpr ?_⟩
      intro name edge
      exact NameSet.not_mem_empty name ((targets name).mpr ⟨source, member, edge⟩)
  · rintro ⟨state, declared, symbol, known, none⟩
    refine .inr ⟨{state}, NameSet.singleton_ne_empty state, by simpa using declared, symbol, known,
      fun name => ?_⟩
    simp [none]

end Entered

section Labels

/-- In a list that a relation orders strictly, an item has as many before it as its position says. -/
theorem countP_eq_of_pairwise {α : Type} {R : α → α → Prop} [DecidableRel R] {items : List α}
    {item : α} {position : Nat} (asymm : ∀ left right, R left right → ¬ R right left)
    (ordered : items.Pairwise R) (present : items[position]? = some item) :
    items.countP (fun other => decide (R other item)) = position := by
  induction items generalizing position with
  | nil => simp at present
  | cons first rest ih =>
    obtain ⟨before, later⟩ := List.pairwise_cons.mp ordered
    cases position with
    | zero =>
      obtain rfl : first = item := by simpa using present
      rw [List.countP_eq_zero]
      intro other member
      rw [decide_eq_true_iff]
      rcases List.mem_cons.mp member with rfl | inRest
      · exact fun itself => asymm _ _ itself itself
      · exact asymm _ _ (before other inRest)
    | succ position =>
      rw [List.getElem?_cons_succ] at present
      have firstBefore : R first item := before item (List.mem_of_getElem? present)
      rw [List.countP_cons_of_pos (by simpa using firstBefore), ih later present]

/-- The states are labelled by their positions. -/
theorem label_eq_of_getElem? {subsets : List Subset}
    (made : nfa.overSubsets subsets alphabet policy = .ok dfa) {position : Nat}
    (present : dfa.states[position]? = some state) : state.label = Label.ofPosition position := by
  obtain ⟨bound, _⟩ := List.getElem?_eq_some_iff.mp present
  have atPosition : dfa.labels[position]? = some state.label := by
    rw [DFA.labels, List.getElem?_map, present, Option.map_some]
  rw [labels_of_overSubsets made, List.getElem?_map, List.getElem?_range bound] at atPosition
  exact (Option.some.inj atPosition).symm

/-- The subsets of the states increase strictly in the canonical order. -/
theorem pairwise_precedes_states
    (made : nfa.overSubsets (nfa.subsets policy) alphabet policy = .ok dfa) :
    dfa.states.Pairwise fun left right =>
      Subset.Precedes nfa.states.eraseDups left.subset right.subset :=
  List.pairwise_map.mp ((Subset.pairwise_precedes_enumerate nfa.states _).sublist
    (subsets_sublist_of_overSubsets made))

theorem label_eq_countP (made : nfa.overSubsets (nfa.subsets policy) alphabet policy = .ok dfa)
    (member : state ∈ dfa.states) :
    state.label = Label.ofPosition (dfa.states.countP fun other =>
      decide (Subset.Precedes nfa.states.eraseDups other.subset state.subset)) := by
  obtain ⟨position, present⟩ := List.mem_iff_getElem?.mp member
  have rank := countP_eq_of_pairwise
    (R := fun left right : DFA.State =>
      Subset.Precedes nfa.states.eraseDups left.subset right.subset)
    (fun _ _ before => before.not_precedes) (pairwise_precedes_states made) present
  rw [rank, label_eq_of_getElem? made present]

/-- A total automaton has the whole powerset for its states, with or without the empty subset. -/
theorem map_subset_total (made : nfa.overSubsets (nfa.subsets .total) alphabet .total = .ok dfa) :
    dfa.states.map (·.subset) =
      Subset.enumerate nfa.states (decide (nfa.LacksTransition alphabet)) := by
  have distinct := Subset.nodup_enumerate nfa.states true
  have someSublist : (Subset.enumerate nfa.states (decide (nfa.LacksTransition alphabet))).Sublist
      (Subset.enumerate nfa.states true) := by
    cases decide (nfa.LacksTransition alphabet) with
    | true => exact List.Sublist.refl _
    | false =>
      rw [Subset.enumerate_true]
      exact List.sublist_cons_self _ _
  refine Subset.eq_of_sublist_of_mem_iff distinct (subsets_sublist_of_overSubsets made) someSublist
    fun subset => ?_
  have listed_iff : subset ∈ nfa.subsets .total ↔ subset.Sublist nfa.states.eraseDups :=
    Subset.mem_enumerate.trans (and_iff_left (.inl rfl))
  rw [List.mem_map, exists_state_iff made, listed_iff, Subset.mem_enumerate, decide_eq_true_iff]
  apply and_congr_right
  intro _
  by_cases empty : subset = []
  · subst empty
    change nfa.IsEntered alphabet ∅ ∨ _ ↔ _
    simp [isEntered_empty_iff]
  · simp [empty]

end Labels

theorem labelsEntered_of_overSubsets
    (made : nfa.overSubsets (nfa.subsets .sparse) alphabet .sparse = .ok dfa) :
    nfa.LabelsEntered alphabet dfa where
  listed := fun state member =>
    (subsets_sublist_of_overSubsets made).subset (List.mem_map_of_mem member)
  subsets_nodup := (Subset.nodup_enumerate _ _).sublist (subsets_sublist_of_overSubsets made)
  isState_iff := by
    intro names filled declared
    constructor
    · rintro ⟨state, member, rfl⟩
      have reason := ((exists_state_iff made).mp ⟨state, member, rfl⟩).2
      exact reason.resolve_right (by simp)
    · intro isEntered
      obtain ⟨subset, listed, rfl⟩ := exists_subset_of_declared .sparse filled declared
      obtain ⟨state, member, rfl⟩ := (exists_state_iff made).mpr ⟨listed, .inl isEntered⟩
      exact ⟨state, member, rfl⟩
  label_eq := fun _ => label_eq_countP made

theorem labelsAll_of_overSubsets
    (made : nfa.overSubsets (nfa.subsets .total) alphabet .total = .ok dfa) :
    nfa.LabelsAll alphabet dfa where
  listed := fun state member =>
    (subsets_sublist_of_overSubsets made).subset (List.mem_map_of_mem member)
  subsets_nodup := (Subset.nodup_enumerate _ _).sublist (subsets_sublist_of_overSubsets made)
  isState := by
    intro names filled declared
    obtain ⟨subset, listed, rfl⟩ := exists_subset_of_declared .total filled declared
    obtain ⟨state, member, rfl⟩ := (exists_state_iff made).mpr
      ⟨listed, .inr ⟨rfl, NameSet.ofList_eq_empty_iff.not.mp filled⟩⟩
    exact ⟨state, member, rfl⟩
  dead_iff := by
    rw [exists_state_iff made, ← isEntered_empty_iff]
    have listed : [] ∈ nfa.subsets .total :=
      Subset.mem_enumerate.mpr ⟨List.nil_sublist _, .inl rfl⟩
    simp [listed, NameSet.ofList]
  length_eq := by
    have lengths := congrArg List.length (map_subset_total made)
    rw [List.length_map] at lengths
    by_cases lacks : nfa.LacksTransition alphabet
    · rw [lengths, decide_eq_true lacks, if_pos lacks, Subset.length_enumerate_true]
    · rw [lengths, decide_eq_false lacks, if_neg lacks, Subset.length_enumerate_false]
  label_eq := by
    intro state member place listed
    obtain ⟨position, present⟩ := List.mem_iff_getElem?.mp member
    have atPosition : (Subset.enumerate nfa.states
        (decide (nfa.LacksTransition alphabet)))[position]? = some state.subset := by
      rw [← map_subset_total made, List.getElem?_map, present, Option.map_some]
    obtain ⟨bound, _⟩ := List.getElem?_eq_some_iff.mp listed
    have unique : ∀ other, (Subset.enumerate nfa.states true)[other]? = some state.subset →
        place = other := fun other found =>
      (List.getElem?_inj bound (Subset.nodup_enumerate nfa.states true)).mp
        (listed.trans found.symm)
    rw [label_eq_of_getElem? made present]
    by_cases lacks : nfa.LacksTransition alphabet
    · rw [decide_eq_true lacks] at atPosition
      rw [if_pos lacks, unique position atPosition]
    · -- without a dead state the list of states begins one place later in the powerset
      rw [decide_eq_false lacks] at atPosition
      have next : (Subset.enumerate nfa.states true)[position + 1]? = some state.subset := by
        rw [Subset.enumerate_true, List.getElem?_cons_succ, atPosition]
      rw [if_neg lacks, unique (position + 1) next, Nat.add_sub_cancel]

/-- Over all subsets of the declared states, a sparse automaton has the entered ones for its states
and a total one all of them, the empty one only where a transition is missing, with labels that
follow the canonical order. -/
theorem determinize_labels (declared : nfa.initial ∈ nfa.states)
    (inside : ¬ nfa.LeadsOutside alphabet) :
    (∃ dfa, (nfa.determinize (Subset.enumerate nfa.states false) alphabet .sparse).result = .ok dfa ∧
      nfa.LabelsEntered alphabet dfa) ∧
    ∃ dfa, (nfa.determinize (Subset.enumerate nfa.states true) alphabet .total).result = .ok dfa ∧
      nfa.LabelsAll alphabet dfa := by
  simp only [result_determinize]
  constructor
  · have succeeds : ∃ dfa, nfa.overSubsets (nfa.subsets .sparse) alphabet .sparse = .ok dfa :=
      exists_overSubsets_subsets declared inside
    obtain ⟨dfa, made⟩ := succeeds
    exact ⟨dfa, made, labelsEntered_of_overSubsets made⟩
  · have succeeds : ∃ dfa, nfa.overSubsets (nfa.subsets .total) alphabet .total = .ok dfa :=
      exists_overSubsets_subsets declared inside
    obtain ⟨dfa, made⟩ := succeeds
    exact ⟨dfa, made, labelsAll_of_overSubsets made⟩

/-- A state that is declared twice, two edges on one symbol, and a state that only one symbol leaves. -/
private def diverging : NFA where
  states := ["T", "S", "T"]
  initial := "S"
  finals := ["T"]
  edges := Table.ofList [(("S", "0"), NameSet.ofList ["S", "T"]), (("S", "1"), NameSet.ofList ["T"]),
    (("T", "1"), NameSet.ofList ["T"])]
  sources_declared := by decide +kernel

theorem determinize_labels_diverging :
    diverging.initial ∈ diverging.states ∧ ¬ diverging.LeadsOutside ["1", "0"] ∧
    (∃ dfa, (diverging.determinize (Subset.enumerate ["T", "S", "T"] false)
        ["1", "0"] .sparse).result = .ok dfa ∧ diverging.LabelsEntered ["1", "0"] dfa) ∧
    ∃ dfa, (diverging.determinize (Subset.enumerate ["T", "S", "T"] true)
        ["1", "0"] .total).result = .ok dfa ∧ diverging.LabelsAll ["1", "0"] dfa := by
  have inside : ¬ diverging.LeadsOutside ["1", "0"] := by
    have declared : ∀ state ∈ diverging.states, ∀ symbol ∈ ["1", "0"],
        ∀ target ∈ (diverging.targets state symbol).toList, target ∈ diverging.states := by
      decide +kernel
    rintro ⟨state, member, symbol, known, target, edge, undeclared⟩
    exact undeclared (declared state member symbol known target edge)
  exact ⟨by decide, inside, determinize_labels (by decide) inside⟩

end NFA

end Determinizer
