import Determinizer.Proofs.Conversion.Errors
import Determinizer.Proofs.DFA.ReadBack

/-! # Conversions keep the language

The text that a conversion gives is a description of an automaton again. If the symbols of the
alphabet are single words it can be read back, and the automaton that is read accepts the words over
the alphabet that the first automaton accepts, and no other words.
-/

namespace Determinizer

namespace SubsetAutomaton

variable {nfa : NFA} {alphabet : List Symbol} {policy : Policy} {dfa : DFA}

/-- States that stand for sets of states need only single words for labels. -/
theorem wellLabelled (automaton : SubsetAutomaton nfa alphabet policy dfa)
    (areWords : ∀ label ∈ dfa.labels, Text.IsWord label) : dfa.WellLabelled where
  labels_nodup := automaton.labels_nodup
  labels_words := areWords
  initial := by
    obtain ⟨state, member, isInitial, _⟩ := automaton.initial
    exact ⟨state.label, DFA.label_mem_labels member, isInitial⟩
  finals_eq := automaton.finals_eq
  dangling_eq_nil := automaton.dangling_eq_nil

end SubsetAutomaton

namespace SubsetConstruction

variable {nfa : NFA} {subsets : List Subset} {alphabet : List Symbol} {policy : Policy} {dfa : DFA}

theorem isWord_of_overSubsets (made : nfa.overSubsets subsets alphabet policy = .ok dfa) :
    ∀ label ∈ dfa.labels, Text.IsWord label := by
  intro label member
  obtain ⟨position, rfl⟩ := exists_position_of_overSubsets made member
  exact Label.isWord_ofPosition position

theorem wellLabelled_of_overSubsets (made : nfa.overSubsets subsets alphabet policy = .ok dfa) :
    dfa.WellLabelled :=
  (subsetAutomaton_of_overSubsets made).wellLabelled (isWord_of_overSubsets made)

theorem wellLabelled_reachablePart (made : nfa.overSubsets subsets alphabet policy = .ok dfa) :
    dfa.reachablePart.WellLabelled :=
  (subsetAutomaton_of_overSubsets made).reachablePart.wellLabelled fun label kept =>
    isWord_of_overSubsets made label ((DFA.labels_reachablePart_sublist dfa).subset kept)

end SubsetConstruction

namespace NFA

variable {nfa : NFA} {config : Config} {dfa : DFA}

/-- Labels of a conversion are single words, so what it gives can be written if the symbols on its
transitions are. -/
theorem printable_of_symbols_words (converted : (nfa.convert config).result = .ok dfa)
    (wordy : ∀ transition ∈ dfa.transitions, Text.IsWord transition.symbol) : dfa.Printable := by
  obtain ⟨_, whole, made, rfl⟩ := convert_eq_ok_iff.mp converted
  exact (SubsetConstruction.wellLabelled_reachablePart made).printable wordy

theorem printable_of_convert (wordy : ∀ symbol ∈ config.alphabet, Text.IsWord symbol)
    (converted : (nfa.convert config).result = .ok dfa) : dfa.Printable := by
  apply printable_of_symbols_words converted
  intro transition member
  obtain ⟨_, _, _, known, _⟩ := DFA.mem_transitions.mp member
  exact wordy _ ((subsetAutomaton_of_convert converted).alphabet_eq ▸ known)

theorem exists_toText?_of_convert (converted : (nfa.convert config).result = .ok dfa) :
    ∃ out, dfa.toText? = some out := by
  obtain ⟨_, whole, made, rfl⟩ := convert_eq_ok_iff.mp converted
  exact (SubsetConstruction.wellLabelled_reachablePart made).exists_toText?

end NFA

variable {config : Config} {text out : String}

theorem convertText_eq_ok_iff : (convertText config text).result = .ok out ↔
    ∃ nfa dfa, (NFA.ofText config.strict text).result = .ok nfa ∧
      (nfa.convert config).result = .ok dfa ∧ out = dfa.toText?.getD "" := by
  rw [convertText, Outcome.result_bind]
  cases NFA.ofText config.strict text |>.result with
  | error cause => simp [Except.bind]
  | ok nfa =>
    simp only [Except.bind, Outcome.result_bind, Except.ok.injEq, exists_and_left, exists_eq_left']
    cases (nfa.convert config).result with
    | error cause => simp
    | ok dfa => simp [eq_comm]

/-- A conversion of a text gives the text form of the automaton that it makes. -/
theorem exists_of_convertText (converted : (convertText config text).result = .ok out) :
    ∃ nfa dfa, (NFA.ofText config.strict text).result = .ok nfa ∧
      (nfa.convert config).result = .ok dfa ∧ dfa.toText? = some out := by
  obtain ⟨nfa, dfa, read, made, rfl⟩ := convertText_eq_ok_iff.mp converted
  obtain ⟨written, toText⟩ := NFA.exists_toText?_of_convert made
  exact ⟨nfa, dfa, read, made, by rw [toText, Option.getD_some]⟩

theorem convertText_eq_ok_of_convert {nfa : NFA} {dfa : DFA}
    (read : (NFA.ofText config.strict text).result = .ok nfa)
    (made : (nfa.convert config).result = .ok dfa) (written : dfa.toText? = some out) :
    (convertText config text).result = .ok out :=
  convertText_eq_ok_iff.mpr ⟨nfa, dfa, read, made, by rw [written, Option.getD_some]⟩

/-- What stops the conversion of an automaton stops that of a text from which it is read. -/
theorem convertText_eq_error_of_convert {nfa : NFA} {error : Error}
    (read : (NFA.ofText config.strict text).result = .ok nfa)
    (failed : (nfa.convert config).result = .error error) :
    (convertText config text).result = .error error := by
  rw [convertText, Outcome.result_bind, read]
  change ((nfa.convert config) >>= _).result = _
  rw [Outcome.result_bind, failed]
  rfl

/-- The text that a conversion gives is read as an automaton that accepts the words over the
alphabet which the automaton in the first text accepts, and no others. -/
theorem convertText_preserves_language (wordy : ∀ symbol ∈ config.alphabet, Text.IsWord symbol)
    (converted : (convertText config text).result = .ok out) :
    ∃ nfa, (NFA.ofText config.strict text).result = .ok nfa ∧
      ∀ strict, ∃ again, (NFA.ofText strict out).result = .ok again ∧
        ∀ word, ((∀ symbol ∈ word, symbol ∈ config.alphabet) →
            (again.Accepts word ↔ nfa.Accepts word)) ∧
          ((∃ symbol ∈ word, symbol ∉ config.alphabet) → ¬ again.Accepts word) := by
  obtain ⟨nfa, dfa, read, made, rfl⟩ := convertText_eq_ok_iff.mp converted
  have automaton := NFA.subsetAutomaton_of_convert made
  have printable := NFA.printable_of_convert wordy made
  obtain ⟨written, toText⟩ : ∃ written, dfa.toText? = some written := by
    obtain ⟨label, _, initial_eq⟩ := printable.initial
    rw [← Option.ne_none_iff_exists', Ne, DFA.toText?_eq_none_iff, initial_eq]
    simp
  rw [toText, Option.getD_some]
  refine ⟨nfa, read, fun strict => ?_⟩
  obtain ⟨again, readAgain⟩ := printable.exists_ofText toText strict
  have same := printable.readsBackAs toText readAgain
  refine ⟨again, readAgain, fun word => ?_⟩
  rw [same.accepts_iff printable, automaton.accepts_iff, automaton.alphabet_eq]
  constructor
  · intro inside
    rw [and_iff_right inside, and_iff_right inside]
  · rintro ⟨symbol, member, foreign⟩ ⟨inside, _⟩
    exact foreign (inside symbol member)

/-- The words that end in `0`, with a line to be skipped and an edge off the alphabet. -/
private def endsInZero : String := "A B\nA\nB\nA 0 A\nA 0 B\nA 1\nA 1 A\nB x A\n"

private def endsInZeroRead : NFA where
  states := ["A", "B"]
  initial := "A"
  finals := ["B"]
  edges := Table.ofList [(("A", "0"), NameSet.ofList ["A", "B"]), (("A", "1"), NameSet.ofList ["A"]),
    (("B", "x"), NameSet.ofList ["A"])]
  sources_declared := by decide +kernel

private def lenientConfig : Config := { Config.default with strict := false }

theorem convertText_preserves_language_endsInZero :
    ∃ out, (convertText lenientConfig endsInZero).result = .ok out ∧
      ∃ nfa, (NFA.ofText lenientConfig.strict endsInZero).result = .ok nfa ∧
        ∀ strict, ∃ again, (NFA.ofText strict out).result = .ok again ∧
          ∀ word, ((∀ symbol ∈ word, symbol ∈ lenientConfig.alphabet) →
              (again.Accepts word ↔ nfa.Accepts word)) ∧
            ((∃ symbol ∈ word, symbol ∉ lenientConfig.alphabet) → ¬ again.Accepts word) := by
  have wordy : ∀ symbol ∈ lenientConfig.alphabet, Text.IsWord symbol := by decide +kernel
  have read : (NFA.ofText lenientConfig.strict endsInZero).result = .ok endsInZeroRead := by
    decide +kernel
  have within : ¬ endsInZeroRead.Exceeds lenientConfig := by
    rintro ⟨limit, ⟨⟩, more⟩
    exact absurd more (by decide)
  obtain ⟨dfa, made⟩ := NFA.exists_convert_of_ofText read within
  have converted : (convertText lenientConfig endsInZero).result = .ok (dfa.toText?.getD "") :=
    convertText_eq_ok_iff.mpr ⟨endsInZeroRead, dfa, read, made, rfl⟩
  exact ⟨_, converted, convertText_preserves_language wordy converted⟩

end Determinizer
