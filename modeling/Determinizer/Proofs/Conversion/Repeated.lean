import Determinizer.Proofs.Conversion.Language
import Determinizer.Proofs.Conversion.NameOrder
import Determinizer.Proofs.Subset.Canonical

/-! # Converting a result again

The automaton that is read back from a result has one target at most, so each word leads to a single
state or to none. The states of a second conversion are therefore the single states, in the order of
their names, and they stand before all other subsets. So the second result is the first one in the
order of names, and with at most 26 states a third result is the same as the second.
-/

namespace Determinizer

/-- Two conversions with the same settings, the second of what is read back from the first. -/
structure Repeated (config : Config) (nfa : NFA) (dfa : DFA) (again : NFA) (repeated : DFA) :
    Prop where
  made : (nfa.convert config).result = .ok dfa
  printable : dfa.Printable
  same : dfa.ReadsBackAs again
  remade : (again.convert config).result = .ok repeated

namespace Repeated

variable {config : Config} {nfa again : NFA} {dfa repeated : DFA} {state source : DFA.State}
  {label : Label} {symbol : Symbol}

/-- A state of the second result stands for one state of the first. -/
theorem exists_label (twice : Repeated config nfa dfa again repeated)
    (member : state ∈ repeated.states) : ∃ label ∈ dfa.labels, state.subset = [label] := by
  have automaton := NFA.subsetAutomaton_of_convert twice.made
  have reautomaton := NFA.subsetAutomaton_of_convert twice.remade
  obtain ⟨word, inside, stands⟩ := NFA.exists_word_of_convert twice.remade member
  have known : ∀ symbol ∈ word, symbol ∈ dfa.alphabet := automaton.alphabet_eq ▸ inside
  cases ended : dfa.run? word with
  | none =>
    have nowhere : again.run {again.initial} word = ∅ := by
      rw [NameSet.eq_empty_iff]
      intro name reached
      obtain ⟨_, last, found, _⟩ := (twice.same.mem_run_iff twice.printable).mp reached
      rw [ended] at found
      contradiction
    obtain ⟨sparse, _⟩ := (automaton.run?_eq_none_iff inside).mp ended
    exact absurd (stands.trans nowhere) (reautomaton.nonempty sparse state member)
  | some last =>
    have alone : state.members = {last.label} := by
      refine NameSet.ext fun name => ?_
      rw [stands, twice.same.mem_run_iff twice.printable, NameSet.mem_singleton,
        and_iff_right known, ended]
      simp [eq_comm]
    exact ⟨last.label, DFA.label_mem_labels (automaton.run?_members inside ended).1,
      Subset.eq_singleton_of_sublist (NFA.subset_sublist_of_convert twice.remade member) alone⟩

/-- Each state of the first result is a state of the second. -/
theorem exists_state (twice : Repeated config nfa dfa again repeated)
    (declared : label ∈ dfa.labels) : ∃ state ∈ repeated.states, state.subset = [label] := by
  have automaton := NFA.subsetAutomaton_of_convert twice.made
  have reautomaton := NFA.subsetAutomaton_of_convert twice.remade
  obtain ⟨source, member, rfl⟩ := List.mem_map.mp declared
  obtain ⟨word, inside, ended⟩ := NFA.exists_run?_of_convert twice.made member
  have known : ∀ symbol ∈ word, symbol ∈ dfa.alphabet := automaton.alphabet_eq ▸ inside
  have reached : source.label ∈ again.run {again.initial} word :=
    (twice.same.mem_run_iff twice.printable).mpr ⟨known, source, ended, rfl⟩
  obtain ⟨state, present, stands⟩ :=
    reautomaton.exists_mem_of_word inside (.inr (NameSet.ne_empty_iff.mpr ⟨_, reached⟩))
  obtain ⟨label, _, alone⟩ := twice.exists_label present
  rw [← stands, DFA.State.members, alone, NameSet.ofList_singleton,
    NameSet.mem_singleton] at reached
  exact ⟨state, present, reached ▸ alone⟩

/-- The second result has one state for each state of the first. -/
theorem subsets_perm (twice : Repeated config nfa dfa again repeated) :
    (repeated.states.map (·.subset)).Perm (dfa.sortedLabels.map fun label => [label]) := by
  have distinct : (dfa.sortedLabels.map fun label => [label]).Nodup :=
    (DFA.nodup_sortedLabels twice.printable.labels_nodup).map fun _ _ => List.singleton_inj.mp
  rw [List.perm_ext_iff_of_nodup (NFA.subsets_nodup_of_convert twice.remade) distinct]
  intro subset
  simp only [List.mem_map, DFA.mem_sortedLabels]
  constructor
  · rintro ⟨state, member, rfl⟩
    obtain ⟨label, declared, alone⟩ := twice.exists_label member
    exact ⟨label, declared, alone.symm⟩
  · rintro ⟨label, declared, rfl⟩
    exact twice.exists_state declared

theorem length_eq (twice : Repeated config nfa dfa again repeated) :
    repeated.states.length = dfa.states.length := by
  simpa [DFA.length_sortedLabels] using twice.subsets_perm.length_eq

theorem join_singleton (label : Label) : String.join [label] = label := String.empty_append

/-- The second result lists the states of the first in the order of their names. -/
theorem map_subset (twice : Repeated config nfa dfa again repeated) :
    repeated.states.map (·.subset) = dfa.sortedLabels.map fun label => [label] := by
  have single : ∀ subset ∈ repeated.states.map (·.subset), ∃ label, subset = [label] := by
    intro subset member
    obtain ⟨state, present, rfl⟩ := List.mem_map.mp member
    obtain ⟨label, _, alone⟩ := twice.exists_label present
    exact ⟨label, alone⟩
  -- subsets of one name are compared by that name
  refine @List.Perm.eq_of_pairwise _ (fun left right => String.join left ≤ String.join right) _ _
    ?_ ?_ ?_ twice.subsets_perm
  · intro left right leftMember rightMember forth back
    obtain ⟨first, rfl⟩ := single left leftMember
    obtain ⟨second, rfl⟩ := single right (twice.subsets_perm.mem_iff.mpr rightMember)
    simp only [join_singleton] at forth back
    rw [String.le_antisymm forth back]
  · have ordered := (Subset.pairwise_enumerate again.states (config.policy == .total)).sublist
      (NFA.subsets_sublist_of_convert twice.remade)
    refine ordered.imp_of_mem fun leftMember rightMember inOrder => ?_
    obtain ⟨first, rfl⟩ := single _ leftMember
    obtain ⟨second, rfl⟩ := single _ rightMember
    exact Subset.Key.text_le_of_isLE inOrder rfl
  · rw [List.pairwise_map]
    simpa only [join_singleton] using dfa.pairwise_sortedLabels

/-- The targets that are read back are those of the transitions. -/
theorem mem_targets_iff (twice : Repeated config nfa dfa again repeated)
    (present : source ∈ dfa.states) (known : symbol ∈ config.alphabet) {name : Name} :
    name ∈ again.targets source.label symbol ↔ source.transitions.get? symbol = some name := by
  rw [twice.same.mem_targets_iff, DFA.mem_transitions_from twice.printable.labels_nodup present,
    (NFA.subsetAutomaton_of_convert twice.made).alphabet_eq, and_iff_right known]

/-- What the second construction makes before it is pruned. -/
abbrev Constructs (config : Config) (again : NFA) (whole : DFA) : Prop :=
  again.overSubsets (again.subsets config.policy) config.alphabet config.policy = .ok whole

theorem mem_labels_of_mem_subset (twice : Repeated config nfa dfa again repeated)
    {subset : Subset} (listed : subset ∈ again.subsets config.policy) (inside : label ∈ subset) :
    label ∈ dfa.labels := by
  have declared := (Subset.mem_enumerate.mp listed).1.subset inside
  rwa [List.mem_eraseDups, twice.same.states_eq] at declared

/-- There is no dead state: a total automaton that is read back lacks no targets. -/
theorem subset_ne_nil (twice : Repeated config nfa dfa again repeated) {whole : DFA}
    (built : Constructs config again whole) (member : state ∈ whole.states) :
    state.subset ≠ [] := by
  intro empty
  have listed : [] ∈ again.subsets config.policy :=
    (SubsetConstruction.subsets_sublist_of_overSubsets built).subset
      (empty ▸ List.mem_map_of_mem member)
  rcases (Subset.mem_enumerate.mp listed).2 with total | filled
  · obtain ⟨subset, inList, filled, symbol, known, lost⟩ :=
      SubsetConstruction.exists_lost_of_nil built member empty
    obtain ⟨label, rest, rfl⟩ := List.exists_cons_of_ne_nil filled
    obtain ⟨source, present, rfl⟩ :=
      List.mem_map.mp (twice.mem_labels_of_mem_subset inList List.mem_cons_self)
    have notSparse : config.policy ≠ .sparse := by
      rw [beq_iff_eq.mp total]
      nofun
    obtain ⟨target, linked⟩ :=
      (NFA.subsetAutomaton_of_convert twice.made).exists_get?_eq_some notSparse present known
    have edge := (twice.mem_targets_iff present known).mpr linked
    exact NameSet.eq_empty_iff.mp lost target
      (NFA.mem_targetsOf.mpr ⟨_, List.mem_cons_self, edge⟩)
  · exact filled rfl

/-- What the second result keeps stands before everything else. -/
theorem states_prefix (twice : Repeated config nfa dfa again repeated) {whole : DFA}
    (built : Constructs config again whole) (part : repeated = whole.reachablePart) :
    repeated.states <+: whole.states := by
  have listed := SubsetConstruction.subsets_sublist_of_overSubsets built
  have distinct : (whole.states.map (·.subset)).Nodup :=
    (Subset.nodup_enumerate _ _).sublist listed
  have sizes := List.pairwise_map.mp
    ((Subset.pairwise_length_enumerate again.states (config.policy == .total)).sublist listed)
  have kept : ∀ state, state ∈ repeated.states ↔
      state ∈ whole.states ∧ whole.Reachable state.label := by
    intro state
    rw [part, DFA.mem_states_reachablePart]
  rw [part]
  apply DFA.states_reachablePart_prefix
  refine sizes.imp_of_mem fun {earlier later} earlierMember laterMember smaller reached => ?_
  obtain ⟨label, _, alone⟩ := twice.exists_label ((kept later).mpr ⟨laterMember, reached⟩)
  have single : earlier.subset.length = 1 := by
    have filled := List.length_pos_of_ne_nil (twice.subset_ne_nil built earlierMember)
    rw [alone, List.length_singleton] at smaller
    omega
  obtain ⟨name, only⟩ := List.length_eq_one_iff.mp single
  have declared : name ∈ dfa.labels :=
    twice.mem_labels_of_mem_subset (listed.subset (List.mem_map_of_mem earlierMember))
      (only ▸ List.mem_cons_self)
  obtain ⟨state, present, same⟩ := twice.exists_state declared
  obtain ⟨inside, reachable⟩ := (kept state).mp present
  rwa [← List.inj_on_of_nodup_map distinct inside earlierMember (same.trans only.symm)]

/-- The states of the second result are labelled by their positions. -/
theorem labels_eq (twice : Repeated config nfa dfa again repeated) :
    repeated.labels = (List.range dfa.states.length).map Label.ofPosition := by
  obtain ⟨_, whole, built, part⟩ := NFA.convert_eq_ok_iff.mp twice.remade
  have prefixed := twice.states_prefix built part
  have taken : repeated.labels = whole.labels.take dfa.states.length := by
    have size : repeated.labels.length = dfa.states.length := by
      rw [DFA.labels, List.length_map, twice.length_eq]
    rw [← size]
    exact List.prefix_iff_eq_take.mp (prefixed.map _)
  have enough : dfa.states.length ≤ whole.states.length := twice.length_eq ▸ prefixed.length_le
  rw [taken, SubsetConstruction.labels_of_overSubsets built, ← List.map_take, List.take_range,
    Nat.min_eq_left enough]

/-- The state that stands for a label has the new name of the label. -/
theorem label_eq (twice : Repeated config nfa dfa again repeated) (member : state ∈ repeated.states)
    (alone : state.subset = [label]) : state.label = dfa.newLabel label := by
  have labels := twice.labels_eq
  rw [← DFA.map_newLabel_sortedLabels twice.printable.labels_nodup, DFA.labels] at labels
  have subsets := twice.map_subset
  obtain ⟨position, bound, rfl⟩ := List.getElem_of_mem member
  have inside : position < dfa.sortedLabels.length := by
    rwa [DFA.length_sortedLabels, ← twice.length_eq]
  have label_at := congrArg (·[position]?) labels
  have subset_at := congrArg (·[position]?) subsets
  simp only [List.getElem?_map, List.getElem?_eq_getElem bound, List.getElem?_eq_getElem inside,
    Option.map_some, Option.some.injEq] at label_at subset_at
  rw [label_at, List.singleton_inj.mp (alone.symm.trans subset_at)]

/-- Transitions of the second result lead where those of the first lead. -/
theorem get?_transitions (twice : Repeated config nfa dfa again repeated)
    (member : state ∈ repeated.states) (present : source ∈ dfa.states)
    (alone : state.subset = [source.label]) (known : symbol ∈ config.alphabet) :
    state.transitions.get? symbol = (source.transitions.get? symbol).map dfa.newLabel := by
  have automaton := NFA.subsetAutomaton_of_convert twice.remade
  have reached : ∀ name, name ∈ again.targetsOf state.subset symbol ↔
      source.transitions.get? symbol = some name := by
    intro name
    simp [NFA.mem_targetsOf, alone, twice.mem_targets_iff present known]
  cases found : state.transitions.get? symbol with
  | none =>
    obtain ⟨_, empty⟩ := (automaton.missing_iff state member symbol known).mp found
    cases linked : source.transitions.get? symbol with
    | none => rfl
    | some target =>
      exact absurd ((reached target).mpr linked) (NameSet.eq_empty_iff.mp empty target)
  | some label =>
    obtain ⟨other, inside, rfl, stands⟩ := automaton.target state member symbol known label found
    obtain ⟨target, _, only⟩ := twice.exists_label inside
    have linked := (reached target).mp (by rw [← stands, DFA.State.members, only]; simp)
    rw [linked, Option.map_some, twice.label_eq inside only]

theorem isFinal_eq (twice : Repeated config nfa dfa again repeated)
    (member : state ∈ repeated.states) (present : source ∈ dfa.states)
    (alone : state.subset = [source.label]) : state.isFinal = source.isFinal := by
  rw [Bool.eq_iff_iff, (NFA.subsetAutomaton_of_convert twice.remade).isFinal_iff state member,
    ← DFA.label_mem_finalLabels_iff twice.printable.labels_nodup present,
    ← twice.printable.finals_eq, ← twice.same.finals_eq, DFA.State.members, alone]
  simp

theorem initial_eq (twice : Repeated config nfa dfa again repeated) :
    repeated.initial = dfa.initial.map dfa.newLabel := by
  obtain ⟨state, member, isInitial, stands⟩ := (NFA.subsetAutomaton_of_convert twice.remade).initial
  have alone :=
    Subset.eq_singleton_of_sublist (NFA.subset_sublist_of_convert twice.remade member) stands
  rw [isInitial, twice.same.initial_eq, Option.map_some, twice.label_eq member alone]

/-- What one view of two lists shows to be equal is equal in another view, if it is so item by
item. -/
theorem map_eq_map_of_map_eq_map {α β γ δ : Type} {firsts : List α} {seconds : List β}
    {f : α → γ} {g : β → γ} {f' : α → δ} {g' : β → δ} (same : firsts.map f = seconds.map g)
    (agree : ∀ first ∈ firsts, ∀ second ∈ seconds, f first = g second → f' first = g' second) :
    firsts.map f' = seconds.map g' := by
  apply List.ext_getElem?
  intro position
  have here := congrArg (·[position]?) same
  simp only [List.getElem?_map] at here ⊢
  cases atFirst : firsts[position]? with
  | none =>
    rw [atFirst, Option.map_none, eq_comm, Option.map_eq_none_iff] at here
    rw [here]
    rfl
  | some first =>
    rw [atFirst, Option.map_some, eq_comm, Option.map_eq_some_iff] at here
    obtain ⟨second, atSecond, view⟩ := here
    have agreed := agree first (List.mem_of_getElem? atFirst) second
      (List.mem_of_getElem? atSecond) view.symm
    rw [atSecond, Option.map_some, Option.map_some, agreed]

/-- A state of the second result shows what the state that it stands for shows under new names. -/
theorem shown_eq (twice : Repeated config nfa dfa again repeated)
    (member : state ∈ repeated.states) (present : source ∈ dfa.states)
    (alone : state.subset = [source.label]) :
    state.shown config.alphabet = (source.renamed dfa.newLabel).shown config.alphabet := by
  have named := twice.label_eq member alone
  have final : state.isFinal = source.isFinal := twice.isFinal_eq member present alone
  refine Prod.ext named (Prod.ext final ?_)
  apply DFA.transitionsOn_congr named
  intro symbol known
  rw [twice.get?_transitions member present alone known, DFA.get?_transitions_renamed]

/-- The second result is the first one in the order of names. -/
theorem toText?_eq (twice : Repeated config nfa dfa again repeated) :
    repeated.toText? = dfa.inNameOrder.toText? := by
  have automaton := NFA.subsetAutomaton_of_convert twice.made
  have reautomaton := NFA.subsetAutomaton_of_convert twice.remade
  apply DFA.toText?_eq_of_shown_eq
  · rw [reautomaton.alphabet_eq, DFA.inNameOrder, automaton.alphabet_eq, List.map_map]
    have same : repeated.states.map (·.subset) =
        dfa.sortedStates.map fun source => [source.label] := by
      rw [twice.map_subset, DFA.sortedLabels, List.map_map]
      rfl
    apply map_eq_map_of_map_eq_map same
    intro state member source present alone
    exact twice.shown_eq member (DFA.mem_sortedStates.mp present) alone
  · exact twice.initial_eq
  · exact reautomaton.finals_eq
  · rfl

end Repeated

variable {config : Config} {text out : String}

/-- The conversion of a result gives it in the order of names, unless it has too many states. -/
theorem exists_repeated {nfa : NFA} {dfa : DFA}
    (wordy : ∀ symbol ∈ config.alphabet, Text.IsWord symbol)
    (made : (nfa.convert config).result = .ok dfa) (written : dfa.toText? = some out)
    (within : ∀ limit, config.maxStates = some limit → dfa.states.length ≤ limit) :
    ∃ again repeated, (NFA.ofText config.strict out).result = .ok again ∧
      Repeated config nfa dfa again repeated := by
  have printable := NFA.printable_of_convert wordy made
  obtain ⟨again, read⟩ := printable.exists_ofText written config.strict
  have same := printable.readsBackAs written read
  have few : ¬ again.Exceeds config := by
    rintro ⟨limit, limited, exceeds⟩
    rw [same.length_states] at exceeds
    exact Nat.not_lt.mpr (within limit limited) exceeds
  obtain ⟨repeated, remade⟩ := NFA.exists_convert_of_ofText read few
  exact ⟨again, repeated, read, made, printable, same, remade⟩

/-- A second conversion gives the result in the order of names, unless it has too many states, and
with at most 26 states a third conversion changes nothing. -/
theorem convertText_repeated (wordy : ∀ symbol ∈ config.alphabet, Text.IsWord symbol)
    (converted : (convertText config text).result = .ok out) :
    ∃ nfa dfa, (NFA.ofText config.strict text).result = .ok nfa ∧
      (nfa.convert config).result = .ok dfa ∧ dfa.toText? = some out ∧
      (∀ limit, config.maxStates = some limit → limit < dfa.states.length →
        (convertText config out).result = .error (.tooManyStates dfa.states.length limit)) ∧
      ((∀ limit, config.maxStates = some limit → dfa.states.length ≤ limit) →
        ∃ second, (convertText config out).result = .ok second ∧
          dfa.inNameOrder.toText? = some second ∧
          (dfa.states.length ≤ 26 → (convertText config second).result = .ok second)) := by
  obtain ⟨nfa, dfa, read, made, written⟩ := exists_of_convertText converted
  refine ⟨nfa, dfa, read, made, written, ?_, ?_⟩
  · intro limit limited exceeds
    have printable := NFA.printable_of_convert wordy made
    obtain ⟨again, reread⟩ := printable.exists_ofText written config.strict
    have count := (printable.readsBackAs written reread).length_states
    rw [← count] at exceeds ⊢
    exact convertText_eq_error_of_convert reread (NFA.result_convert_of_exceeds limited exceeds)
  · intro within
    obtain ⟨again, repeated, reread, twice⟩ := exists_repeated wordy made written within
    obtain ⟨second, secondWritten⟩ := NFA.exists_toText?_of_convert twice.remade
    refine ⟨second, convertText_eq_ok_of_convert reread twice.remade secondWritten,
      twice.toText?_eq ▸ secondWritten, fun few => ?_⟩
    rw [← twice.length_eq] at within few
    obtain ⟨third, final, finalRead, thrice⟩ :=
      exists_repeated wordy twice.remade secondWritten within
    apply convertText_eq_ok_of_convert finalRead thrice.remade
    calc final.toText?
      _ = repeated.inNameOrder.toText? := thrice.toText?_eq
      _ = repeated.toText? :=
        DFA.toText?_inNameOrder thrice.printable few (twice.length_eq ▸ twice.labels_eq)
      _ = some second := secondWritten

/-- States that are not declared in the order of their names, with missing edges. -/
private def unordered : String := "z y\nz\ny\nz 0 y\ny 1 z\n"

private def unorderedRead : NFA where
  states := ["z", "y"]
  initial := "z"
  finals := ["y"]
  edges := Table.ofList [(("z", "0"), NameSet.ofList ["y"]), (("y", "1"), NameSet.ofList ["z"])]
  sources_declared := by decide +kernel

private def totalDefault : Config := { Config.default with policy := .total }

theorem convertText_repeated_unordered :
    ∃ (out second : String) (dfa : DFA), (convertText totalDefault unordered).result = .ok out ∧
      (convertText totalDefault out).result = .ok second ∧
      dfa.toText? = some out ∧ dfa.inNameOrder.toText? = some second ∧
      (convertText totalDefault second).result = .ok second := by
  have wordy : ∀ symbol ∈ totalDefault.alphabet, Text.IsWord symbol := by decide +kernel
  have read : (NFA.ofText totalDefault.strict unordered).result = .ok unorderedRead := by
    decide +kernel
  have within : ¬ unorderedRead.Exceeds totalDefault := by
    rintro ⟨limit, ⟨⟩, more⟩
    exact absurd more (by decide)
  obtain ⟨first, firstMade⟩ := NFA.exists_convert_of_ofText read within
  obtain ⟨out, written⟩ := NFA.exists_toText?_of_convert firstMade
  have converted := convertText_eq_ok_of_convert read firstMade written
  obtain ⟨nfa, dfa, reread, made, toText, _, again⟩ := convertText_repeated wordy converted
  have few : dfa.states.length ≤ 4 := by
    obtain rfl := Except.ok.inj (read.symm.trans reread)
    have size : (unorderedRead.subsets totalDefault.policy).length = 4 :=
      (Subset.ordered_perm _ _).length_eq.trans (by decide +kernel)
    have listed := (NFA.subsets_sublist_of_convert made).length_le
    rwa [List.length_map, size] at listed
  have enough : ∀ limit, totalDefault.maxStates = some limit → dfa.states.length ≤ limit := by
    rintro limit ⟨⟩
    exact few.trans (by decide)
  obtain ⟨second, reconverted, ordered, third⟩ := again enough
  exact ⟨out, second, dfa, converted, reconverted, toText, ordered, third (few.trans (by decide))⟩

end Determinizer
