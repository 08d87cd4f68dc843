import Determinizer.DFA.Printer
import Determinizer.Proofs.DFA.Run
import Determinizer.Proofs.NFA.Path
import Determinizer.Proofs.NFA.Reading
import Determinizer.Proofs.Subset.Enumeration
import Determinizer.Proofs.Text.Tokens

/-! # Written automata are read back

The text form of a deterministic automaton is a description of a nondeterministic one. If labels
and symbols are single words it is read without errors, strictly or leniently, and gives the same
states and transitions. A path of the automaton that is read back is a run of the one that was
written, so both accept the same words.
-/

namespace Determinizer.DFA

/-- Labels and the symbols on transitions are single words, and labels tell states apart. There is an
initial state, and transitions lead to states. -/
structure Printable (dfa : DFA) : Prop where
  labels_nodup : dfa.labels.Nodup
  labels_words : ∀ label ∈ dfa.labels, Text.IsWord label
  symbols_words : ∀ transition ∈ dfa.transitions, Text.IsWord transition.symbol
  initial : ∃ label ∈ dfa.labels, dfa.initial = some label
  finals_eq : dfa.finals = finalLabels dfa.states
  dangling_eq_nil : dfa.dangling = []

/-- What is asked of the labels alone, whatever the symbols on transitions are. -/
structure WellLabelled (dfa : DFA) : Prop where
  labels_nodup : dfa.labels.Nodup
  labels_words : ∀ label ∈ dfa.labels, Text.IsWord label
  initial : ∃ label ∈ dfa.labels, dfa.initial = some label
  finals_eq : dfa.finals = finalLabels dfa.states
  dangling_eq_nil : dfa.dangling = []

/-- The same states and transitions, as a nondeterministic automaton. -/
structure ReadsBackAs (dfa : DFA) (nfa : NFA) : Prop where
  states_eq : nfa.states = dfa.labels
  initial_eq : dfa.initial = some nfa.initial
  finals_eq : nfa.finals = dfa.finals
  mem_targets_iff : ∀ source symbol target, target ∈ nfa.targets source symbol ↔
    ⟨source, symbol, target⟩ ∈ dfa.transitions

variable {dfa : DFA} {nfa : NFA} {state : State} {transition : Transition} {symbol : Symbol}
  {target initial : Label} {word : List Symbol} {text : String}

/-- Distinct labels tell which state a transition leaves. -/
theorem mem_transitions_from (distinct : dfa.labels.Nodup) (member : state ∈ dfa.states) :
    ⟨state.label, symbol, target⟩ ∈ dfa.transitions ↔
      symbol ∈ dfa.alphabet ∧ state.transitions.get? symbol = some target := by
  rw [mem_transitions]
  constructor
  · rintro ⟨other, present, same, known, linked⟩
    obtain rfl := eq_of_label_eq distinct member present same
    exact ⟨known, linked⟩
  · rintro ⟨known, linked⟩
    exact ⟨state, member, rfl, known, linked⟩

theorem Transition.line_eq (transition : Transition) : transition.line =
    " ".intercalate [transition.source, transition.symbol, transition.target] := rfl

theorem source_mem_labels (member : transition ∈ dfa.transitions) :
    transition.source ∈ dfa.labels := by
  obtain ⟨state, present, same, _⟩ := mem_transitions.mp member
  exact same ▸ label_mem_labels present

namespace WellLabelled

theorem finals_subset (labelled : dfa.WellLabelled) {label : Label} (final : label ∈ dfa.finals) :
    label ∈ dfa.labels := by
  rw [labelled.finals_eq, finalLabels] at final
  obtain ⟨state, member, rfl⟩ := List.mem_map.mp final
  exact label_mem_labels (List.mem_filter.mp member).1

theorem target_mem_labels (labelled : dfa.WellLabelled) (member : transition ∈ dfa.transitions) :
    transition.target ∈ dfa.labels := by
  by_contra absent
  have dangles : transition ∈ dfa.dangling := mem_dangling.mpr ⟨member, absent⟩
  simp [labelled.dangling_eq_nil] at dangles

theorem finals_words (labelled : dfa.WellLabelled) : ∀ label ∈ dfa.finals, Text.IsWord label :=
  fun label final => labelled.labels_words label (labelled.finals_subset final)

theorem exists_toText? (labelled : dfa.WellLabelled) : ∃ text, dfa.toText? = some text := by
  obtain ⟨initial, _, initial_eq⟩ := labelled.initial
  rw [← Option.ne_none_iff_exists', Ne, toText?_eq_none_iff, initial_eq]
  exact Option.some_ne_none initial

theorem initial_isWord (labelled : dfa.WellLabelled) (initial_eq : dfa.initial = some initial) :
    Text.IsWord initial := by
  obtain ⟨label, declared, same⟩ := labelled.initial
  obtain rfl := Option.some.inj (same.symm.trans initial_eq)
  exact labelled.labels_words label declared

/-- The heading takes three lines, and each transition takes those that its symbol is cut into. -/
theorem lines_toText (labelled : dfa.WellLabelled) (initial_eq : dfa.initial = some initial)
    (written : dfa.toText? = some text) :
    Text.lines text = " ".intercalate dfa.labels :: initial :: " ".intercalate dfa.finals ::
      ((dfa.transitions.flatMap fun transition => Text.lines transition.line) ++ [""]) := by
  rw [toText?, textLines?, initial_eq, Option.map_some, Option.map_some,
    Option.some.injEq] at written
  have first := Text.lines_eq_singleton (Text.lineFeed_not_mem_intercalate labelled.labels_words)
  have second := Text.lines_eq_singleton (labelled.initial_isWord initial_eq).lineFeed_not_mem
  have third := Text.lines_eq_singleton (Text.lineFeed_not_mem_intercalate labelled.finals_words)
  rw [← written, Text.lines_append_last_feed, Text.lines_intercalate_feed (List.cons_ne_nil _ _)]
  simp only [List.flatMap_cons, List.flatMap_map, first, second, third, List.cons_append,
    List.nil_append]

/-- A transition takes one line if its symbol holds no line feed. -/
theorem lines_line (labelled : dfa.WellLabelled) (member : transition ∈ dfa.transitions)
    (oneLine : '\n' ∉ transition.symbol.toList) :
    Text.lines transition.line = [transition.line] := by
  have source := labelled.labels_words _ (source_mem_labels member)
  have target := labelled.labels_words _ (labelled.target_mem_labels member)
  apply Text.lines_eq_singleton
  rw [Transition.line_eq]
  apply Text.not_mem_intercalate (by decide)
  simpa only [List.forall_mem_cons] using
    ⟨source.lineFeed_not_mem, oneLine, target.lineFeed_not_mem, List.forall_mem_nil _⟩

/-- Only the symbols on transitions are missing to what can be printed. -/
theorem printable (labelled : dfa.WellLabelled)
    (wordy : ∀ transition ∈ dfa.transitions, Text.IsWord transition.symbol) : dfa.Printable where
  labels_nodup := labelled.labels_nodup
  labels_words := labelled.labels_words
  symbols_words := wordy
  initial := labelled.initial
  finals_eq := labelled.finals_eq
  dangling_eq_nil := labelled.dangling_eq_nil

end WellLabelled

namespace Printable

theorem wellLabelled (printable : dfa.Printable) : dfa.WellLabelled where
  labels_nodup := printable.labels_nodup
  labels_words := printable.labels_words
  initial := printable.initial
  finals_eq := printable.finals_eq
  dangling_eq_nil := printable.dangling_eq_nil

theorem target_mem_labels (printable : dfa.Printable) (member : transition ∈ dfa.transitions) :
    transition.target ∈ dfa.labels :=
  printable.wellLabelled.target_mem_labels member

theorem areWords (printable : dfa.Printable) (member : transition ∈ dfa.transitions) :
    ∀ text ∈ [transition.source, transition.symbol, transition.target], Text.IsWord text := by
  simp only [List.forall_mem_cons]
  refine ⟨?_, printable.symbols_words _ member, ?_, by simp⟩
  · exact printable.labels_words _ (source_mem_labels member)
  · exact printable.labels_words _ (printable.target_mem_labels member)

/-- The line of a transition is read as that transition. -/
theorem edgeOn?_line (printable : dfa.Printable) (member : transition ∈ dfa.transitions) :
    NFA.edgeOn? transition.line =
      some (transition.source, transition.symbol, transition.target) := by
  have words : Text.words transition.line =
      [transition.source, transition.symbol, transition.target] := by
    rw [Transition.line_eq, Text.words_intercalate (printable.areWords member)]
  exact NFA.edgeOn?_of_words words

theorem finals_words (printable : dfa.Printable) : ∀ label ∈ dfa.finals, Text.IsWord label :=
  printable.wellLabelled.finals_words

theorem lines_toText (printable : dfa.Printable) (initial_eq : dfa.initial = some initial)
    (written : dfa.toText? = some text) :
    Text.lines text = " ".intercalate dfa.labels :: initial :: " ".intercalate dfa.finals ::
      (dfa.transitions.map (·.line) ++ [""]) := by
  have labelled := printable.wellLabelled
  have alone : ∀ transition ∈ dfa.transitions,
      Text.lines transition.line = [transition.line] := fun transition member =>
    labelled.lines_line member (printable.symbols_words _ member).lineFeed_not_mem
  rw [labelled.lines_toText initial_eq written, List.flatMap_congr alone, ← List.map_eq_flatMap]

/-- What is written is read without errors. -/
theorem exists_ofText (printable : dfa.Printable) (written : dfa.toText? = some text)
    (strict : Bool) : ∃ nfa, (NFA.ofText strict text).result = .ok nfa := by
  obtain ⟨initial, declared, initial_eq⟩ := printable.initial
  have labels_eq := Text.words_intercalate printable.labels_words
  have finals_eq := Text.words_intercalate printable.finals_words
  have heading : NFA.Heading (" ".intercalate dfa.labels) initial (" ".intercalate dfa.finals)
      initial := by
    refine ⟨(printable.labels_words initial declared).words_eq, ?_, ?_⟩
    · rwa [labels_eq]
    · rw [labels_eq, finals_eq]
      exact fun label => printable.wellLabelled.finals_subset
  apply NFA.exists_ofText (printable.lines_toText initial_eq written) (by simp) heading
  rw [labels_eq]
  intro line member
  rcases List.mem_append.mp member with inside | last
  · obtain ⟨transition, present, rfl⟩ := List.mem_map.mp inside
    rw [NFA.readable_iff_of_edge (printable.edgeOn?_line present), List.mem_eraseDups,
      List.mem_eraseDups]
    exact ⟨source_mem_labels present, printable.target_mem_labels present⟩
  · rw [List.mem_singleton.mp last]
    exact NFA.readable_of_blank rfl

/-- What is read back has the states and the transitions of what was written. -/
theorem readsBackAs (printable : dfa.Printable) (written : dfa.toText? = some text) {strict : Bool}
    (read : (NFA.ofText strict text).result = .ok nfa) : dfa.ReadsBackAs nfa := by
  obtain ⟨initial, declared, initial_eq⟩ := printable.initial
  have labels_eq := Text.words_intercalate printable.labels_words
  have finals_eq := Text.words_intercalate printable.finals_words
  have finals_nodup : dfa.finals.Nodup := by
    rw [printable.finals_eq]
    exact printable.labels_nodup.sublist (List.filter_sublist.map _)
  obtain ⟨first, second, third, lines, lines_eq, _, described⟩ := NFA.describes_of_ofText read
  rw [printable.lines_toText initial_eq written] at lines_eq
  simp only [List.cons.injEq] at lines_eq
  obtain ⟨rfl, rfl, rfl, rfl⟩ := lines_eq
  refine ⟨?_, ?_, ?_, fun source symbol target => ?_⟩
  · rw [described.states_eq, labels_eq, Subset.eraseDups_eq_self printable.labels_nodup]
  · have alone := described.heading.initial_eq
    rw [(printable.labels_words _ declared).words_eq, List.singleton_inj] at alone
    rw [initial_eq, alone]
  · rw [described.finals_eq, finals_eq, Subset.eraseDups_eq_self finals_nodup]
  · rw [described.mem_targets_iff]
    constructor
    · rintro ⟨line, member, edge⟩
      rcases List.mem_append.mp member with inside | last
      · obtain ⟨transition, present, rfl⟩ := List.mem_map.mp inside
        rw [printable.edgeOn?_line present] at edge
        cases edge
        exact present
      · rw [List.mem_singleton.mp last] at edge
        contradiction
    · intro present
      exact ⟨_, List.mem_append_left _ (List.mem_map_of_mem present),
        printable.edgeOn?_line present⟩

end Printable

/-- Distinct labels tell which states are final. -/
theorem label_mem_finalLabels_iff (distinct : dfa.labels.Nodup) (member : state ∈ dfa.states) :
    state.label ∈ finalLabels dfa.states ↔ state.isFinal = true := by
  rw [finalLabels, List.mem_map]
  constructor
  · rintro ⟨other, present, same⟩
    obtain ⟨inside, final⟩ := List.mem_filter.mp present
    exact eq_of_label_eq distinct inside member same ▸ final
  · intro final
    exact ⟨state, List.mem_filter.mpr ⟨member, final⟩, rfl⟩

namespace ReadsBackAs

theorem length_states (same : dfa.ReadsBackAs nfa) : nfa.states.length = dfa.states.length := by
  rw [same.states_eq, labels, List.length_map]

/-- A path is a run over the alphabet. -/
theorem path_iff (same : dfa.ReadsBackAs nfa) (printable : dfa.Printable)
    (member : state ∈ dfa.states) : nfa.Path state.label word target ↔
      (∀ symbol ∈ word, symbol ∈ dfa.alphabet) ∧
        ∃ last, dfa.follow? state.label word = some last ∧ last.label = target := by
  induction word generalizing state with
  | nil =>
    rw [NFA.path_nil_iff, follow?_nil, state?_label printable.labels_nodup member]
    simp [eq_comm]
  | cons symbol rest ih =>
    simp only [NFA.path_cons_iff, same.mem_targets_iff, List.forall_mem_cons,
      follow?_cons printable.labels_nodup member,
      mem_transitions_from printable.labels_nodup member]
    constructor
    · rintro ⟨middle, ⟨known, linked⟩, path⟩
      obtain ⟨other, present, rfl⟩ := List.mem_map.mp (printable.target_mem_labels
        ((mem_transitions_from printable.labels_nodup member).mpr ⟨known, linked⟩))
      obtain ⟨later, last, ended, stands⟩ := (ih present).mp path
      exact ⟨⟨known, later⟩, last, by rw [linked, Option.bind_some, ended], stands⟩
    · rintro ⟨⟨known, later⟩, last, ended, stands⟩
      obtain ⟨middle, linked, ended⟩ := Option.bind_eq_some_iff.mp ended
      obtain ⟨other, present, rfl⟩ := List.mem_map.mp (printable.target_mem_labels
        ((mem_transitions_from printable.labels_nodup member).mpr ⟨known, linked⟩))
      exact ⟨other.label, ⟨known, linked⟩, (ih present).mpr ⟨later, last, ended, stands⟩⟩

/-- A word leads to the label of the state in which its run ends, and to no other state. -/
theorem mem_run_iff (same : dfa.ReadsBackAs nfa) (printable : dfa.Printable) {name : Name} :
    name ∈ nfa.run {nfa.initial} word ↔ (∀ symbol ∈ word, symbol ∈ dfa.alphabet) ∧
      ∃ last, dfa.run? word = some last ∧ last.label = name := by
  obtain ⟨initial, declared, initial_eq⟩ := printable.initial
  obtain ⟨start, member, rfl⟩ := List.mem_map.mp declared
  have started : nfa.initial = start.label :=
    Option.some.inj (same.initial_eq.symm.trans initial_eq)
  rw [NFA.mem_run, run?, initial_eq, Option.bind_some, ← same.path_iff printable member]
  simp [started]

/-- What is read back accepts the words over the alphabet that were accepted before. -/
theorem accepts_iff (same : dfa.ReadsBackAs nfa) (printable : dfa.Printable) :
    nfa.Accepts word ↔ (∀ symbol ∈ word, symbol ∈ dfa.alphabet) ∧ dfa.Accepts word := by
  obtain ⟨initial, declared, initial_eq⟩ := printable.initial
  obtain ⟨start, member, rfl⟩ := List.mem_map.mp declared
  have started : nfa.initial = start.label :=
    Option.some.inj (same.initial_eq.symm.trans initial_eq)
  simp only [NFA.Accepts, started, same.path_iff printable member, same.finals_eq,
    printable.finals_eq, Accepts, run?, initial_eq, Option.bind_some]
  constructor
  · rintro ⟨_, final, inside, last, ended, rfl⟩
    have present := mem_of_follow? ended
    exact ⟨inside, last, ended, (label_mem_finalLabels_iff printable.labels_nodup present).mp final⟩
  · rintro ⟨inside, last, ended, final⟩
    have present := mem_of_follow? ended
    exact ⟨last.label, (label_mem_finalLabels_iff printable.labels_nodup present).mpr final, inside,
      last, ended, rfl⟩

end ReadsBackAs

end Determinizer.DFA
