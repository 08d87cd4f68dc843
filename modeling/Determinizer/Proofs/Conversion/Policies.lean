import Determinizer.Proofs.Conversion.Accessible
import Determinizer.Proofs.Subset.Canonical

/-! # Sparse and total conversions agree

A total conversion lists the same subsets as a sparse one after the empty subset, which has no
targets to be looked up. So both are stopped by the same error, and where neither is stopped the
total automaton is the sparse one with a dead state at its front, if a transition is missing.
-/

namespace Determinizer

/-- The same settings with another policy. -/
def Config.withPolicy (config : Config) (policy : Policy) : Config := { config with policy }

namespace DFA

/-- The state to which a transition of a state leads. -/
def target? (dfa : DFA) (state : State) (symbol : Symbol) : Option State :=
  (state.transitions.get? symbol).bind dfa.state?

/-- What a state tells of itself apart from its label and its transitions. -/
def State.outline (state : State) : List Name × Bool × Bool :=
  (state.subset, state.isFinal, state.isInitial)

/-- The sparse automaton `part` with a dead state for the transitions that are missing. States of
the two automata belong together if they have the same subset. -/
structure Completes (dfa part : DFA) (alphabet : List Symbol) : Prop where
  /-- Apart from the dead state both have the same states in the same order. -/
  outlines : part.states.map State.outline =
    (dfa.states.filter fun state => decide (state.subset ≠ [])).map State.outline
  /-- What is missing in the one automaton leads to the dead state of the other. -/
  targets : ∀ state ∈ part.states, ∀ other ∈ dfa.states, state.subset = other.subset →
    ∀ symbol ∈ alphabet, ∃ target, dfa.target? other symbol = some target ∧
      (symbol ∈ state.transitions.keys ↔ target.subset ≠ []) ∧
      (symbol ∈ state.transitions.keys →
        ∃ next, part.target? state symbol = some next ∧ next.subset = target.subset)
  dead_iff : (∃ dead ∈ dfa.states, dead.subset = []) ↔
    ∃ state ∈ part.states, ∃ symbol ∈ alphabet, symbol ∉ state.transitions.keys
  dead : ∀ dead ∈ dfa.states, dead.subset = [] →
    dfa.states.head? = some dead ∧ dead.isFinal = false ∧
      ∀ symbol ∈ alphabet, dead.transitions.get? symbol = some dead.label

end DFA

/-- Both conversions fail with the same error, or one automaton completes the other. -/
def PoliciesAgree (alphabet : List Symbol) : Except Error DFA → Except Error DFA → Prop
  | .error left, .error right => left = right
  | .ok sparse, .ok total => total.Completes sparse alphabet
  | _, _ => False

namespace NFA

open SubsetConstruction

variable {nfa : NFA} {config : Config} {policy : Policy} {alphabet : List Symbol}
  {dfa sparse total : DFA} {state other dead : DFA.State} {symbol : Symbol}

section Errors

theorem subsets_total (nfa : NFA) : nfa.subsets .total = [] :: nfa.subsets .sparse :=
  Subset.enumerate_true nfa.states

/-- Listing the empty subset too does not list more targets. -/
theorem listed_total_iff {subset : Subset} :
    Listed nfa (Subset.index (nfa.subsets .total)) subset symbol ↔
      Listed nfa (Subset.index (nfa.subsets .sparse)) subset symbol := by
  simp only [Listed, Subset.exists_index_iff, exists_subset_iff]
  by_cases none : nfa.targetsOf subset symbol = ∅ <;> simp [none]

theorem unlisted?_total (alphabet : List Symbol) (subset : Subset) :
    unlisted? nfa (Subset.index (nfa.subsets .total)) alphabet subset =
      unlisted? nfa (Subset.index (nfa.subsets .sparse)) alphabet subset := by
  simp only [unlisted?, listed_total_iff]

/-- The empty subset has no targets, so the first targets that are missing are the same. -/
theorem missing?_total (nfa : NFA) (alphabet : List Symbol) :
    missing? nfa alphabet (nfa.subsets .total) = missing? nfa alphabet (nfa.subsets .sparse) := by
  have same : unlisted? nfa (Subset.index (nfa.subsets .total)) alphabet.eraseDups =
      unlisted? nfa (Subset.index (nfa.subsets .sparse)) alphabet.eraseDups :=
    funext (unlisted?_total _)
  have skipped : ∀ index rest, firstUnlisted? nfa index alphabet.eraseDups ([] :: rest) =
      firstUnlisted? nfa index alphabet.eraseDups rest := by
    intro index rest
    rw [firstUnlisted?_cons, unlisted?_nil, Option.none_or]
  calc missing? nfa alphabet (nfa.subsets .total)
    _ = firstUnlisted? nfa (Subset.index (nfa.subsets .total)) alphabet.eraseDups
          ([] :: nfa.subsets .sparse) := by rw [missing?, ← subsets_total]
    _ = firstUnlisted? nfa (Subset.index (nfa.subsets .total)) alphabet.eraseDups
          (nfa.subsets .sparse) := skipped _ _
    _ = missing? nfa alphabet (nfa.subsets .sparse) := by rw [firstUnlisted?, same]; rfl

/-- How the construction over all subsets ends, said without the policy. -/
theorem overSubsets_subsets_eq_error_iff {error : Error} :
    nfa.overSubsets (nfa.subsets policy) alphabet policy = .error error ↔
      nfa.initial ∉ nfa.states ∧ error = .noInitialSubset nfa.initial ∨
        nfa.initial ∈ nfa.states ∧ ∃ names,
          missing? nfa alphabet (nfa.subsets .sparse) = some names ∧ error = .unlistedSubset names := by
  have missing_eq : missing? nfa alphabet (nfa.subsets policy) =
      missing? nfa alphabet (nfa.subsets .sparse) := by
    cases policy with
    | sparse => rfl
    | total => exact missing?_total nfa alphabet
  by_cases declared : nfa.initial ∈ nfa.states
  · obtain ⟨place, found⟩ := exists_initial_iff.mpr declared
    rw [overSubsets_eq hasDead_subsets found, missing_eq]
    cases missing? nfa alphabet (nfa.subsets .sparse) with
    | none => simp [unlessUnlisted, declared]
    | some names => simp [unlessUnlisted, declared, eq_comm]
  · rw [overSubsets_subsets_of_undeclared declared]
    simp [declared, eq_comm]

/-- The policy does not matter for the error of a conversion. -/
theorem convert_eq_error_iff {error : Error} :
    (nfa.convert (config.withPolicy policy)).result = .error error ↔
      (nfa.convert config).result = .error error := by
  by_cases exceeds : nfa.Exceeds config
  · obtain ⟨limit, limited, more⟩ := exceeds
    have limitedToo : (config.withPolicy policy).maxStates = some limit := limited
    rw [result_convert_of_exceeds limited more, result_convert_of_exceeds limitedToo more]
  · have within : ¬ nfa.Exceeds (config.withPolicy policy) := exceeds
    have mapped : ∀ (result : Except Error DFA),
        result.map DFA.reachablePart = .error error ↔ result = .error error := by
      rintro (cause | whole) <;> simp [Except.map]
    rw [result_convert_of_not_exceeds exceeds, result_convert_of_not_exceeds within, mapped, mapped]
    exact overSubsets_subsets_eq_error_iff.trans overSubsets_subsets_eq_error_iff.symm

end Errors

section States

/-- The flags of a state follow from its subset. -/
theorem outline_eq (converted : (nfa.convert config).result = .ok dfa)
    (member : state ∈ dfa.states) : state.outline =
      (state.subset, state.subset.any nfa.finals.contains, state.subset == [nfa.initial]) := by
  have automaton := subsetAutomaton_of_convert converted
  have final : state.isFinal = state.subset.any nfa.finals.contains := by
    rw [Bool.eq_iff_iff, automaton.isFinal_iff state member]
    simp [DFA.State.members]
  have initial : state.isInitial = (state.subset == [nfa.initial]) := by
    obtain ⟨start, startMember, isInitial, members⟩ := automaton.initial
    have alone : start.subset = [nfa.initial] :=
      Subset.eq_singleton_of_sublist (subset_sublist_of_convert converted startMember) members
    rw [Bool.eq_iff_iff, automaton.isInitial_iff_eq startMember isInitial member, beq_iff_eq]
    constructor
    · rintro rfl
      exact alone
    · intro same
      exact List.inj_on_of_nodup_map (subsets_nodup_of_convert converted) member startMember
        (same.trans alone.symm)
  rw [DFA.State.outline, final, initial]

/-- A state that is not the dead one is a state under each policy. -/
theorem exists_same_subset {policy' : Policy} {dfa' : DFA}
    (converted : (nfa.convert (config.withPolicy policy)).result = .ok dfa)
    (converted' : (nfa.convert (config.withPolicy policy')).result = .ok dfa')
    (member : state ∈ dfa.states) (kept : policy' = .total ∨ state.subset ≠ []) :
    ∃ other ∈ dfa'.states, other.subset = state.subset := by
  obtain ⟨word, known, stands⟩ := exists_word_of_convert converted member
  have left : policy' = .total ∨ nfa.run {nfa.initial} word ≠ ∅ := by
    rwa [← stands, DFA.State.members, Ne, NameSet.ofList_eq_empty_iff]
  obtain ⟨other, present, reached⟩ :=
    (subsetAutomaton_of_convert converted').exists_mem_of_word known left
  exact ⟨other, present,
    subset_eq_of_members_eq converted' converted present member (reached.trans stands.symm)⟩

/-- The subsets of the sparse automaton are those of the total one without the empty subset. -/
theorem map_subset_sparse
    (sparseMade : (nfa.convert (config.withPolicy .sparse)).result = .ok sparse)
    (totalMade : (nfa.convert (config.withPolicy .total)).result = .ok total) :
    sparse.states.map (·.subset) =
      (total.states.filter fun state => decide (state.subset ≠ [])).map (·.subset) := by
  have filtered : (total.states.filter fun state => decide (state.subset ≠ [])).map (·.subset) =
      (total.states.map (·.subset)).filter fun subset => decide (subset ≠ []) := by
    rw [List.filter_map]
    rfl
  have nonempty : (nfa.subsets .total).filter (fun subset => decide (subset ≠ [])) =
      nfa.subsets .sparse := by
    rw [subsets_total, List.filter_cons_of_neg (by simp), List.filter_eq_self]
    intro subset member
    refine decide_eq_true fun empty => ?_
    exact Subset.nil_not_mem_enumerate_false nfa.states (empty ▸ member)
  have totalSublist : ((total.states.map (·.subset)).filter fun subset =>
      decide (subset ≠ [])).Sublist (nfa.subsets .sparse) :=
    nonempty ▸ (subsets_sublist_of_convert totalMade).filter _
  rw [filtered]
  refine Subset.eq_of_sublist_of_mem_iff (Subset.nodup_enumerate nfa.states false)
    (subsets_sublist_of_convert sparseMade) totalSublist fun subset => ?_
  rw [List.mem_filter, decide_eq_true_eq]
  constructor
  · intro listed
    obtain ⟨state, member, rfl⟩ := List.mem_map.mp listed
    obtain ⟨other, present, same⟩ := exists_same_subset sparseMade totalMade member (.inl rfl)
    refine ⟨same ▸ List.mem_map_of_mem present, fun empty => ?_⟩
    exact (subsetAutomaton_of_convert sparseMade).nonempty rfl state member
      (NameSet.ofList_eq_empty_iff.mpr empty)
  · rintro ⟨listed, filled⟩
    obtain ⟨other, present, rfl⟩ := List.mem_map.mp listed
    obtain ⟨state, member, same⟩ := exists_same_subset totalMade sparseMade present (.inr filled)
    exact same ▸ List.mem_map_of_mem member

theorem outlines_eq (sparseMade : (nfa.convert (config.withPolicy .sparse)).result = .ok sparse)
    (totalMade : (nfa.convert (config.withPolicy .total)).result = .ok total) :
    sparse.states.map DFA.State.outline =
      (total.states.filter fun state => decide (state.subset ≠ [])).map DFA.State.outline := by
  let outlineOf : Subset → List Name × Bool × Bool := fun subset =>
    (subset, subset.any nfa.finals.contains, subset == [nfa.initial])
  have ofSparse : sparse.states.map DFA.State.outline =
      (sparse.states.map (·.subset)).map outlineOf := by
    rw [List.map_map]
    exact List.map_congr_left fun state member => outline_eq sparseMade member
  have ofTotal : (total.states.filter fun state => decide (state.subset ≠ [])).map
      DFA.State.outline = ((total.states.filter fun state => decide (state.subset ≠ [])).map
        (·.subset)).map outlineOf := by
    rw [List.map_map]
    exact List.map_congr_left fun state member => outline_eq totalMade (List.mem_filter.mp member).1
  rw [ofSparse, ofTotal, map_subset_sparse sparseMade totalMade]

end States

section Transitions

/-- A total automaton has a target everywhere, with all targets of the subset together. -/
theorem exists_target_of_total
    (totalMade : (nfa.convert (config.withPolicy .total)).result = .ok total)
    (member : state ∈ total.states) (known : symbol ∈ config.alphabet) :
    ∃ target ∈ total.states, state.transitions.get? symbol = some target.label ∧
      total.target? state symbol = some target ∧
      target.members = nfa.targetsOf state.subset symbol := by
  have automaton := subsetAutomaton_of_convert totalMade
  obtain ⟨label, linked⟩ := automaton.exists_get?_eq_some nofun member known
  obtain ⟨target, present, rfl, stands⟩ := automaton.target state member symbol known label linked
  refine ⟨target, present, linked, ?_, stands⟩
  rw [DFA.target?, linked, Option.bind_some, DFA.state?_label automaton.labels_nodup present]

/-- Exactly the states without targets are dead. -/
theorem subset_ne_nil_iff {target : DFA.State}
    (stands : target.members = nfa.targetsOf state.subset symbol) :
    target.subset ≠ [] ↔ nfa.targetsOf state.subset symbol ≠ ∅ := by
  rw [← stands, DFA.State.members, Ne, Ne, NameSet.ofList_eq_empty_iff]

theorem mem_keys_sparse_iff
    (sparseMade : (nfa.convert (config.withPolicy .sparse)).result = .ok sparse)
    (member : state ∈ sparse.states) (known : symbol ∈ config.alphabet) :
    symbol ∈ state.transitions.keys ↔ nfa.targetsOf state.subset symbol ≠ ∅ := by
  rw [(subsetAutomaton_of_convert sparseMade).mem_keys_iff member symbol]
  exact ⟨fun ⟨_, left⟩ => left.resolve_left (by rintro ⟨⟩), fun left => ⟨known, .inr left⟩⟩

/-- A transition of the sparse automaton leads where that of the total one leads. -/
theorem exists_sparse_target
    (sparseMade : (nfa.convert (config.withPolicy .sparse)).result = .ok sparse)
    (totalMade : (nfa.convert (config.withPolicy .total)).result = .ok total)
    (member : state ∈ sparse.states) (present : other ∈ total.states)
    (stands : other.members = nfa.targetsOf state.subset symbol)
    (linked : symbol ∈ state.transitions.keys) :
    ∃ next, sparse.target? state symbol = some next ∧ next.subset = other.subset := by
  have automaton := subsetAutomaton_of_convert sparseMade
  have known := ((automaton.mem_keys_iff member symbol).mp linked).1
  obtain ⟨label, found⟩ : ∃ label, state.transitions.get? symbol = some label := by
    rw [← Option.ne_none_iff_exists', Ne, Table.get?_eq_none_iff, not_not]
    exact linked
  obtain ⟨next, inside, rfl, same⟩ := automaton.target state member symbol known label found
  refine ⟨next, ?_, ?_⟩
  · rw [DFA.target?, found, Option.bind_some, DFA.state?_label automaton.labels_nodup inside]
  · exact subset_eq_of_members_eq sparseMade totalMade inside present (same.trans stands.symm)

/-- If a word leads nowhere, some state on its way has no targets for the next symbol. -/
theorem exists_missing_of_run_eq_empty
    (sparseMade : (nfa.convert (config.withPolicy .sparse)).result = .ok sparse)
    {word : List Symbol} (inside : ∀ symbol ∈ word, symbol ∈ config.alphabet)
    (nowhere : nfa.run {nfa.initial} word = ∅) :
    ∃ state ∈ sparse.states, ∃ symbol ∈ config.alphabet, symbol ∉ state.transitions.keys := by
  induction word using List.reverseRecOn with
  | nil =>
    rw [NFA.run_nil] at nowhere
    exact absurd nowhere (NameSet.singleton_ne_empty nfa.initial)
  | append_singleton before symbol ih =>
    obtain ⟨earlier, known⟩ := List.forall_mem_append.mp inside
    by_cases lost : nfa.run {nfa.initial} before = ∅
    · exact ih earlier lost
    · obtain ⟨state, member, stands⟩ :=
        (subsetAutomaton_of_convert sparseMade).exists_mem_of_word earlier (.inr lost)
      have known : symbol ∈ config.alphabet := known symbol List.mem_cons_self
      refine ⟨state, member, symbol, known, ?_⟩
      rw [mem_keys_sparse_iff sparseMade member known, not_not,
        ← SubsetAutomaton.targetsOf_members, stands]
      rwa [run_append] at nowhere

/-- The dead state is there exactly if the sparse automaton lacks a transition. -/
theorem exists_dead_iff
    (sparseMade : (nfa.convert (config.withPolicy .sparse)).result = .ok sparse)
    (totalMade : (nfa.convert (config.withPolicy .total)).result = .ok total) :
    (∃ dead ∈ total.states, dead.subset = []) ↔
      ∃ state ∈ sparse.states, ∃ symbol ∈ config.alphabet, symbol ∉ state.transitions.keys := by
  constructor
  · rintro ⟨dead, member, empty⟩
    obtain ⟨word, inside, stands⟩ := exists_word_of_convert totalMade member
    apply exists_missing_of_run_eq_empty sparseMade inside
    rw [← stands, DFA.State.members, NameSet.ofList_eq_empty_iff]
    exact empty
  · rintro ⟨state, member, symbol, known, missing⟩
    rw [mem_keys_sparse_iff sparseMade member known, not_not] at missing
    obtain ⟨other, present, same⟩ := exists_same_subset sparseMade totalMade member (.inl rfl)
    obtain ⟨dead, inside, _, _, stands⟩ := exists_target_of_total totalMade present known
    rw [same, missing] at stands
    exact ⟨dead, inside, NameSet.ofList_eq_empty_iff.mp stands⟩

/-- The dead state stands first, is not final and leads to itself. -/
theorem dead_of_subset_eq_nil
    (totalMade : (nfa.convert (config.withPolicy .total)).result = .ok total)
    (member : dead ∈ total.states) (empty : dead.subset = []) :
    total.states.head? = some dead ∧ dead.isFinal = false ∧
      ∀ symbol ∈ config.alphabet, dead.transitions.get? symbol = some dead.label := by
  have distinct := subsets_nodup_of_convert totalMade
  refine ⟨?_, ?_, fun symbol known => ?_⟩
  · have ordered : (total.states.map (·.subset)).Sublist ([] :: nfa.subsets .sparse) :=
      subsets_total nfa ▸ subsets_sublist_of_convert totalMade
    have listed : [] ∈ total.states.map (·.subset) := empty ▸ List.mem_map_of_mem member
    rcases List.sublist_cons_iff.mp ordered with later | ⟨rest, first, _⟩
    · exact absurd (later.subset listed) (Subset.nil_not_mem_enumerate_false nfa.states)
    · obtain ⟨head, others, states_eq, headEmpty, _⟩ := List.map_eq_cons_iff.mp first
      have present : head ∈ total.states := states_eq ▸ List.mem_cons_self
      rw [List.inj_on_of_nodup_map distinct member present (empty.trans headEmpty.symm), states_eq,
        List.head?_cons]
  · have final := (subsetAutomaton_of_convert totalMade).isFinal_iff dead member
    rw [DFA.State.members, empty] at final
    simpa [NameSet.ofList] using final
  · obtain ⟨target, present, linked, _, stands⟩ := exists_target_of_total totalMade member known
    rw [empty, targetsOf_nil] at stands
    have none : target.subset = [] := NameSet.ofList_eq_empty_iff.mp stands
    rw [linked, List.inj_on_of_nodup_map distinct present member (none.trans empty.symm)]

end Transitions

/-- The total automaton is the sparse one with a dead state for the transitions that are missing. -/
theorem completes_of_convert
    (sparseMade : (nfa.convert (config.withPolicy .sparse)).result = .ok sparse)
    (totalMade : (nfa.convert (config.withPolicy .total)).result = .ok total) :
    total.Completes sparse config.alphabet where
  outlines := outlines_eq sparseMade totalMade
  targets := by
    intro state member other present same symbol known
    obtain ⟨target, inside, _, leads, stands⟩ := exists_target_of_total totalMade present known
    rw [← same] at stands
    refine ⟨target, leads, ?_, exists_sparse_target sparseMade totalMade member inside stands⟩
    rw [mem_keys_sparse_iff sparseMade member known, subset_ne_nil_iff stands]
  dead_iff := exists_dead_iff sparseMade totalMade
  dead := fun _ => dead_of_subset_eq_nil totalMade

/-- Whether a conversion is sparse or total decides neither if it fails nor how. Where it gives an
automaton, the total one is the sparse one with a dead state for the transitions that are missing. -/
theorem convert_policies_agree (nfa : NFA) (config : Config) :
    PoliciesAgree config.alphabet (nfa.convert (config.withPolicy .sparse)).result
      (nfa.convert (config.withPolicy .total)).result := by
  cases sparseMade : (nfa.convert (config.withPolicy .sparse)).result with
  | error error =>
    rw [convert_eq_error_iff.mpr (convert_eq_error_iff.mp sparseMade)]
    exact rfl
  | ok sparse =>
    cases totalMade : (nfa.convert (config.withPolicy .total)).result with
    | error error =>
      rw [convert_eq_error_iff.mpr (convert_eq_error_iff.mp totalMade)] at sparseMade
      contradiction
    | ok total => exact completes_of_convert sparseMade totalMade

end NFA

end Determinizer
