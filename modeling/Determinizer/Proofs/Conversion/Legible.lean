import Determinizer.Proofs.Conversion.Language

/-! # Which results can be read back

Settings may have any texts as symbols, but a line is read word by word. A symbol that is not a
single word does not occur on the edges of a description, so a sparse automaton has no transition on
it. A total automaton has one from every state, and the line of such a transition does not give it
back. So every result of a sparse conversion can be read back, and that of a total conversion if the
symbols are single words.
-/

namespace Determinizer

/-- The text is read strictly, as the automaton that was written. -/
def DFA.ReadableFrom (dfa : DFA) (text : String) : Prop :=
  ∃ nfa, (NFA.ofText true text).result = .ok nfa ∧ dfa.ReadsBackAs nfa

namespace NFA

variable {nfa : NFA} {config : Config} {dfa : DFA} {strict : Bool} {text out : String}

/-- A result can be read back exactly if its transitions are on single words. -/
theorem readableFrom_iff (converted : (nfa.convert config).result = .ok dfa)
    (written : dfa.toText? = some out) : dfa.ReadableFrom out ↔
      ∀ transition ∈ dfa.transitions, Text.IsWord transition.symbol := by
  constructor
  · rintro ⟨again, read, same⟩ transition member
    exact isWord_of_mem_targets read ((same.mem_targets_iff _ _ _).mpr member)
  · intro wordy
    have printable := printable_of_symbols_words converted wordy
    obtain ⟨again, read⟩ := printable.exists_ofText written true
    exact ⟨again, read, printable.readsBackAs written read⟩

/-- Transitions of a sparse automaton follow edges that were read, and a total automaton has
transitions on the whole alphabet. -/
theorem symbols_words_iff (read : (ofText strict text).result = .ok nfa)
    (converted : (nfa.convert config).result = .ok dfa) :
    (∀ transition ∈ dfa.transitions, Text.IsWord transition.symbol) ↔
      config.policy = .sparse ∨ ∀ symbol ∈ config.alphabet, Text.IsWord symbol := by
  have automaton := subsetAutomaton_of_convert converted
  constructor
  · intro wordy
    rw [or_iff_not_imp_left]
    intro total symbol known
    obtain ⟨state, member, _⟩ := automaton.initial
    obtain ⟨target, linked⟩ := automaton.exists_get?_eq_some total member known
    exact wordy ⟨state.label, symbol, target⟩
      (DFA.mem_transitions.mpr ⟨state, member, rfl, automaton.alphabet_eq ▸ known, linked⟩)
  · intro legible transition present
    obtain ⟨state, member, _, known, linked⟩ := DFA.mem_transitions.mp present
    rw [automaton.alphabet_eq] at known
    rcases legible with sparse | wordy
    · have found : nfa.targetsOf state.subset transition.symbol ≠ ∅ := by
        intro none
        rw [(automaton.missing_iff state member _ known).mpr ⟨sparse, none⟩] at linked
        contradiction
      obtain ⟨name, reached⟩ := NameSet.ne_empty_iff.mp found
      obtain ⟨source, _, edge⟩ := mem_targetsOf.mp reached
      exact isWord_of_mem_targets read edge
    · exact wordy _ known

end NFA

variable {config : Config} {text out : String}

/-- A text is converted if it can be read and is not too large. -/
theorem exists_convertText_of_ofText {nfa : NFA}
    (read : (NFA.ofText config.strict text).result = .ok nfa) (within : ¬ nfa.Exceeds config) :
    ∃ out, (convertText config text).result = .ok out := by
  obtain ⟨dfa, made⟩ := NFA.exists_convert_of_ofText read within
  exact ⟨_, convertText_eq_ok_iff.mpr ⟨nfa, dfa, read, made, rfl⟩⟩

/-- What a conversion gives can be read back exactly if it is sparse or its symbols are words. -/
theorem convertText_readableFrom_iff (converted : (convertText config text).result = .ok out) :
    ∃ nfa dfa, (NFA.ofText config.strict text).result = .ok nfa ∧
      (nfa.convert config).result = .ok dfa ∧ dfa.toText? = some out ∧
      (dfa.ReadableFrom out ↔
        config.policy = .sparse ∨ ∀ symbol ∈ config.alphabet, Text.IsWord symbol) := by
  obtain ⟨nfa, dfa, read, made, written⟩ := exists_of_convertText converted
  exact ⟨nfa, dfa, read, made, written,
    (NFA.readableFrom_iff made written).trans (NFA.symbols_words_iff read made)⟩

/-- Two states with edges between them, one of them on a symbol of two letters. -/
private def roundTrip : String := "A B\nA\nB\nA 0 B\nB go A\n"

private def roundTripRead : NFA where
  states := ["A", "B"]
  initial := "A"
  finals := ["B"]
  edges := Table.ofList [(("A", "0"), {"B"}), (("B", "go"), {"A"})]
  sources_declared := by decide +kernel

/-- Settings for a total automaton whose symbols are single words. -/
private def singleWords : Config where
  alphabet := ["0", "go"]
  policy := .total
  strict := true
  maxStates := none
  alphabet_ne_nil := by decide
  alphabet_nodup := by decide
  maxStates_pos := nofun

theorem convertText_readableFrom_iff_roundTrip :
    ∃ out, (convertText singleWords roundTrip).result = .ok out ∧
      ∃ nfa dfa, (NFA.ofText true roundTrip).result = .ok nfa ∧
        (nfa.convert singleWords).result = .ok dfa ∧ dfa.toText? = some out ∧
        dfa.ReadableFrom out := by
  have parsed : (NFA.ofText singleWords.strict roundTrip).result = .ok roundTripRead := by
    decide +kernel
  have within : ¬ roundTripRead.Exceeds singleWords := by
    rintro ⟨limit, ⟨⟩, _⟩
  obtain ⟨out, converted⟩ := exists_convertText_of_ofText parsed within
  obtain ⟨nfa, dfa, read, made, written, readable⟩ := convertText_readableFrom_iff converted
  have wordy : ∀ symbol ∈ singleWords.alphabet, Text.IsWord symbol := by decide +kernel
  exact ⟨out, converted, nfa, dfa, read, made, written, readable.mpr (.inr wordy)⟩

/-- A lone state without edges. -/
private def loneState : String := "A\nA\nA\n"

/-- Settings whose only symbol is read as two words. -/
private def twoWords (policy : Policy) : Config where
  alphabet := ["a b"]
  policy := policy
  strict := true
  maxStates := none
  alphabet_ne_nil := by decide
  alphabet_nodup := by decide
  maxStates_pos := nofun

/-- The result of a total conversion over a symbol of two words cannot be read back. -/
theorem not_readableFrom_loneState :
    ∃ out, (convertText (twoWords .total) loneState).result = .ok out ∧
      ∃ nfa dfa, (NFA.ofText true loneState).result = .ok nfa ∧
        (nfa.convert (twoWords .total)).result = .ok dfa ∧ dfa.toText? = some out ∧
        ¬ dfa.ReadableFrom out := by
  have parsed : (NFA.ofText (twoWords .total).strict loneState).result =
      .ok (NFA.ofStates ["A"] "A" ["A"]) := by decide +kernel
  have within : ¬ (NFA.ofStates ["A"] "A" ["A"]).Exceeds (twoWords .total) := by
    rintro ⟨limit, ⟨⟩, _⟩
  obtain ⟨out, converted⟩ := exists_convertText_of_ofText parsed within
  obtain ⟨nfa, dfa, read, made, written⟩ := exists_of_convertText converted
  refine ⟨out, converted, nfa, dfa, read, made, written, ?_⟩
  rw [NFA.readableFrom_iff made written, NFA.symbols_words_iff read made]
  decide +kernel

end Determinizer
